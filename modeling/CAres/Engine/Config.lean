import CAres.Engine.Types

/-! # Name server strings

`config_nameserver` (`ares_init.c`, lines 1775-1837) splits a string at white space and commas
and hands each piece to `parse_dnsaddrport` (lines 1662-1757), which accepts `addr`, `[addr]`
and `[addr]:port` and reads the address with `ares_inet_pton`. Each accepted piece is appended
to the server array, which grows by one `ares_realloc` per server.

C strings are lists of characters without their terminator; the one read past a piece, of the
character that ends it, is passed as `next` (`'\x00'` at the end of the string).
`ares_inet_pton` is not in the sources: it is the oracle `pton`, which gives the address bytes
of a text in a family, or `none`. The allocator is the oracle `alloc`, asked once per server
appended. -/

namespace CAres

/-- `ISSPACE`: `isspace` in the C locale. -/
def isSpace (c : Char) : Bool :=
  c == ' ' || c == '\t' || c == '\n' || c == '\x0b' || c == '\x0c' || c == '\r'

/-- `isxdigit`. -/
def isXDigit (c : Char) : Bool :=
  c.isDigit || ('a' ≤ c && c ≤ 'f') || ('A' ≤ c && c ≤ 'F')

/-- The digits `atoi` reads, from the accumulated value `acc`. -/
def atoiDigits : List Char → Nat → Nat
  | c :: cs, acc => if c.isDigit then atoiDigits cs (acc * 10 + (c.toNat - '0'.toNat)) else acc
  | [], acc => acc

/-- `atoi`: leading white space, an optional sign, then the longest run of digits. -/
def atoi (s : List Char) : Int :=
  match s.dropWhile isSpace with
  | '-' :: t => -(atoiDigits t 0 : Int)
  | '+' :: t => atoiDigits t 0
  | t => atoiDigits t 0

/-- The cast `(unsigned short)` of an `int`. -/
def toUShort (n : Int) : Nat := (n % 65536).toNat

/-- `INET6_ADDRSTRLEN`. -/
def inet6AddrStrLen : Nat := 46

/-- `ares_ipv6_subnet_matches`: the bytes of `ipaddr` under the first `netmask` bits of the
mask are those of `netbase`. -/
def ipv6SubnetMatches (netbase : Bytes) (netmask : Nat) (ipaddr : Bytes) : Bool :=
  if netmask > 128 then false
  else
    let mask (i : Nat) : UInt8 :=
      if i < netmask / 8 then 0xff
      else if i = netmask / 8 ∧ netmask % 8 ≠ 0 then (0xff <<< (8 - netmask % 8) % 256).toUInt8
      else 0
    (List.range 16).all fun i => (netbase.getD i 0 &&& mask i) == (ipaddr.getD i 0 &&& mask i)

/-- `ares_ipv6_server_blacklisted`: the address is in `fec0::/10`. -/
def ipv6ServerBlacklisted (ipaddr : Bytes) : Bool :=
  ipv6SubnetMatches [0xfe, 0xc0, 0, 0, 0, 0, 0, 0, 0, 0, 0, 0, 0, 0, 0, 0] 10 ipaddr

/-- The conversion at the end of `parse_dnsaddrport`: the address text read as IPv4, or else as
IPv6 outside `fec0::/10`. -/
def ptonHost (pton : Nat → List Char → Option Bytes) (addr : List Char) : Option (Nat × Bytes) :=
  match pton afInet addr with
  | some a => some (afInet, a)
  | none =>
    match pton afInet6 addr with
    | some a => if ipv6ServerBlacklisted a then none else some (afInet6, a)
    | none => none

/-- `parse_dnsaddrport` on the piece `tok` (its `len` characters), followed by `next`: the
family, the address bytes and the port, or `none` for `ARES_EBADSTR`. -/
def parseDnsaddrport (pton : Nat → List Char → Option Bytes) (tok : List Char) (next : Char) :
    Option (Nat × Bytes × Nat) :=
  let len := tok.length
  let char (i : Nat) : Char := if i < len then tok.getD i '\x00' else next
  if len = 0 ∨ (char 0 ≠ '[' ∧ !isXDigit (char 0) ∧ char 0 ≠ ':') then none
  else
    -- The address text, and the port text when there is one.
    let parts : Option (List Char × Option (List Char)) :=
      if char 0 = '[' then
        match ((tok.drop 1).take (len - 1)).indexOf? ']' with
        | none => none
        | some j =>
          if 1 + j < len then
            if char (2 + j) ≠ ':' then none
            else if 2 + j = len then none
            else some ((tok.drop 1).take j, some (tok.drop (3 + j)))
          else some ((tok.drop 1).take j, none)
      else some (tok, none)
    match parts with
    | none => none
    | some (addr, port) =>
      if addr.length + 1 > inet6AddrStrLen then none
      else if port.any (fun p => p.length + 1 > 6) then none
      else
        let portNum := toUShort (atoi (port.getD ['0']))
        (ptonHost pton addr).map fun (family, a) => (family, a, portNum)

/-- A name server separator: white space or a comma. -/
def isNameserverSep (c : Char) : Bool := isSpace c || c == ','

/-- The loop of `config_nameserver` over the rest `p` of the string, with `k` servers appended
so far. Each round skips separators, takes the piece up to the next one, and appends what
`parse_dnsaddrport` accepts; the fuel bounds the rounds. -/
def configNameserverLoop (pton : Nat → List Char → Option Bytes) (alloc : Nat → Bool) :
    Nat → List Char → Nat → List AresAddr → Status × List AresAddr
  | 0, _, _, servers => (.success, servers)
  | fuel + 1, p, k, servers =>
    let p := p.dropWhile isNameserverSep
    if p = [] then (.success, servers)
    else
      let tok := p.takeWhile (!isNameserverSep ·)
      let rest := p.dropWhile (!isNameserverSep ·)
      match parseDnsaddrport pton tok (rest.headD '\x00') with
      | none => configNameserverLoop pton alloc fuel rest k servers
      | some (family, addr, port) =>
        if !alloc k then (.enomem, servers)
        else
          configNameserverLoop pton alloc fuel rest (k + 1)
            (servers ++ [{ family := family, addr := addr, udpPort := port, tcpPort := port }])

/-- `config_nameserver`: the servers of `str` appended to `servers`. Ports are kept as numbers;
the code stores them with `htons`. -/
def configNameserver (pton : Nat → List Char → Option Bytes) (alloc : Nat → Bool)
    (servers : List AresAddr) (str : List Char) : Status × List AresAddr :=
  configNameserverLoop pton alloc (str.length + 1) str 0 servers

end CAres
