import CAres.Engine.Init
import CAres.Engine.Config

/-! # The environment and file stages of initialisation

`init_by_environment` (`ares_init.c`, lines 340-363) and the POSIX branch of
`init_by_resolv_conf` (lines 882-893 and 1180-1363), with what they call: `set_search`
(1951-1971), `set_options` (1973-2012) with `try_option` (2014-2018), `try_config`
(2022-2103), `config_domain` (1532-1544), `config_lookup` (1553-1596), `config_nameserver`
(`CAres.Engine.Config`), and `config_sortlist` (1840-1949) with `ip_addr`, `natural_mask` and
`sortlist_alloc` (2106-2153), which `ares_set_sortlist` (2175-2194) also applies to a live
channel. `ARES_CONFIG_CHECK` is in `ares_private.h`, lines 504-506.

`ares_init_options` runs these stages after `ares__init_by_options`, which is not in the
sources: the channel it leaves is the input. As in the code, a count of 0 and a `NULL` pointer
mean "not set", and `rotate` and the sortlist count as set when their `optmask` bit is.

Taken as given, being outside the sources: `ares__strsplit`, which splits a string at any of
its delimiters and skips empty pieces; `ares__read_line`, which returns the lines of an open
file and then `ARES_EOF`; `fopen`, as the file's lines or the `errno` of a failed open;
`ares_inet_pton` and `ares_inet_net_pton`, as oracles; and the allocator, asked once per
`realloc` or `strdup` of these stages, numbered from 0. C strings are lists of characters
without their terminator. -/

namespace CAres

/-- `struct apattern`: a CIDR prefix of an address (`PATTERN_CIDR`), or an IPv4 address with
a mask (`PATTERN_MASK`). -/
inductive Pattern
  | cidr (family : Nat) (addr : Bytes) (bits : Nat)
  | mask (addr : Bytes) (mask : Bytes)
  deriving DecidableEq, Repr

/-- The bits of `optmask` these stages read: `ARES_OPT_SORTLIST`, and `ARES_OPT_ROTATE` or
`ARES_OPT_NOROTATE`. -/
structure OptMask where
  sortlist : Bool
  rotate : Bool
  deriving DecidableEq, Repr

/-- The channel's configuration as the stages before `init_by_defaults` see it: the fields
`init_by_defaults` reads, and `rotate`, the sortlist (`nsort` is its length), `optmask` and
`resolvconf_path`. -/
structure ResolvState where
  config : InitConfig
  rotate : Bool
  sortlist : List Pattern
  optmask : OptMask
  resolvconfPath : Option (List Char)
  deriving DecidableEq, Repr

/-- What `fopen` and `ares__read_line` give for a path: the file's lines, a failed open with
`ENOENT` or `ESRCH`, or a failed open with another `errno`. -/
inductive FileRead
  | lines (ls : List (List Char))
  | missing
  | error

/-- What the two stages read besides the channel: `LOCALDOMAIN` and `RES_OPTIONS`, the files,
`ares_inet_pton`, `ares_inet_net_pton` (the address and the prefix length it returns), and the
allocator. -/
structure ConfEnv where
  localdomain : Option (List Char)
  resOptions : Option (List Char)
  files : List Char → FileRead
  pton : Nat → List Char → Option Bytes
  netPton : Nat → List Char → Option (Bytes × Nat)
  alloc : Nat → Bool

/-- `PATH_RESOLV_CONF` on a POSIX build. -/
def pathResolvConf : List Char := "/etc/resolv.conf".toList

/-- `ares__strsplit(str, delims)`: the pieces of `str` between delimiters, empty ones
skipped. -/
def strsplit (delims : List Char) (str : List Char) : List String :=
  ((str.splitOnP fun c => delims.contains c).filter fun w => !w.isEmpty).map String.mk

/-- `strtoul(str, NULL, 10)` with a 64-bit `unsigned long`: leading white space, an optional
sign, then the longest run of digits; a value past `ULONG_MAX` gives `ULONG_MAX`, and a minus
sign negates modulo 2^64. -/
def strtoul (str : List Char) : Nat :=
  let conv (neg : Bool) (t : List Char) : Nat :=
    let v := atoiDigits t 0
    if 2 ^ 64 ≤ v then 2 ^ 64 - 1 else if neg then (2 ^ 64 - v) % 2 ^ 64 else v
  match str.dropWhile isSpace with
  | '-' :: t => conv true t
  | '+' :: t => conv false t
  | t => conv false t

/-! ## The environment -/

/-- `set_search`: the search domains of `str`, split at commas and spaces; none if it has
none. -/
def setSearch (c : InitConfig) (str : List Char) : InitConfig :=
  let domains := strsplit [',', ' '] str
  if domains = [] then { c with domains := none, ndomains := 0 }
  else { c with domains := some domains, ndomains := domains.length }

/-- `try_option(p, q, opt)` for the option starting at `p` whose first `len` characters run up
to `q`: what follows `opt` in the string when the option starts with `opt`. -/
def tryOption (p : List Char) (len : Nat) (opt : String) : Option (List Char) :=
  if opt.length ≤ len ∧ p.take opt.length = opt.toList then some (p.drop opt.length) else none

/-- One of the counts `set_options` reads, from the option at `p` of length `len`: the value
`strtoul` reads after `opt`, when the option starts with `opt` and the count is not set. -/
def setCount (p : List Char) (len : Nat) (opt : String) (cur : Nat) : Nat :=
  match tryOption p len opt with
  | some val => if cur = 0 then strtoul val else cur
  | none => cur

/-- The loop of `set_options` over the rest `p` of the string: each white-space separated
option may set `ndots`, `timeout` (`retrans:`) and `tries` (`retry:`) while they are 0, and
`rotate` unless the caller chose it. The fuel bounds the rounds. -/
def setOptionsLoop : Nat → List Char → ResolvState → ResolvState
  | 0, _, s => s
  | fuel + 1, p, s =>
    if p = [] then s
    else
      let len := (p.takeWhile (!isSpace ·)).length
      let c := s.config
      let s := { s with
        config := { c with
          ndots := setCount p len "ndots:" c.ndots
          timeout := setCount p len "retrans:" c.timeout
          tries := setCount p len "retry:" c.tries }
        rotate := if (tryOption p len "rotate").isSome && !s.optmask.rotate then true
          else s.rotate }
      setOptionsLoop fuel ((p.drop len).dropWhile isSpace) s

/-- `set_options`. -/
def setOptions (s : ResolvState) (str : List Char) : ResolvState :=
  setOptionsLoop (str.length + 1) str s

variable (e : ConfEnv)

/-- `init_by_environment`: `LOCALDOMAIN` sets the search domains if none are set, and
`RES_OPTIONS` is read by `set_options`. Neither can fail, so the stage returns
`ARES_SUCCESS`. -/
def initByEnvironment (s : ResolvState) : ResolvState :=
  let s := match e.localdomain with
    | some d => if s.config.ndomains = 0 then { s with config := setSearch s.config d } else s
    | none => s
  match e.resOptions with
  | some o => setOptions s o
  | none => s

/-! ## The files -/

/-- `try_config(s, opt, scc)`: cut the line at `#` and at the comment character `scc` (none
when it is `'\x00'`), trim white space at both ends, and if the line starts with `opt`, return
the value after it and the white space that follows; an option name that does not end in `:`
or `=` must be followed by white space. -/
def tryConfig (s : List Char) (opt : List Char) (scc : Char) : Option (List Char) :=
  let s := s.takeWhile fun c => c != '#' && (scc == '\x00' || c != scc)
  let p := (s.reverse.dropWhile isSpace).reverse.dropWhile isSpace
  if p = [] ∨ opt = [] ∨ p.take opt.length ≠ opt then none
  else
    match p.drop opt.length with
    | [] => none
    | c :: rest =>
      if opt.getLast? ≠ some ':' ∧ opt.getLast? ≠ some '=' ∧ !isSpace c then none
      else
        let v := (c :: rest).dropWhile isSpace
        if v = [] then none else some v

/-- `config_domain`: the search domain is the value up to its first white space. -/
def configDomain (c : InitConfig) (str : List Char) : InitConfig :=
  setSearch c (str.takeWhile (!isSpace ·))

/-- The loop of `config_lookup` over the rest `p` of the value, with the letters `l` so far:
a word whose first character is that of `bindch` or `altbindch` adds `b`, one whose first
character is that of `filech` adds `f`, up to two letters; words are separated by white space
and commas. -/
def configLookupLoop (bindch altbindch filech : Char) :
    Nat → List Char → List Char → Bool → List Char × Bool
  | 0, _, l, found => (l, found)
  | _ + 1, [], l, found => (l, found)
  | fuel + 1, c :: cs, l, found =>
    let (l, found) :=
      if (c = bindch ∨ c = altbindch ∨ c = filech) ∧ l.length < 2 then
        (l ++ [if c = bindch ∨ c = altbindch then 'b' else 'f'], true)
      else (l, found)
    let p := ((c :: cs).dropWhile fun x => !isSpace x && x != ',').dropWhile
      fun x => isSpace x || x == ','
    configLookupLoop bindch altbindch filech fuel p l found

/-- `config_lookup` with the first characters of its three source names (`altbindch` may be
`NULL`) and its `strdup` numbered `n`: the lookup order of `str`, or `ARES_ENOTINITIALIZED`
when no word names a source. Returns the status, the configuration and the next number. -/
def configLookup (c : InitConfig) (str : List Char) (bindch : Char) (altbindch : Option Char)
    (filech : Char) (n : Nat) : Status × InitConfig × Nat :=
  let (l, found) := configLookupLoop bindch (altbindch.getD bindch) filech (str.length + 1) str
    [] false
  if !found then (.enotinitialized, c, n)
  else if e.alloc n then (.success, { c with lookups := some (String.mk l) }, n + 1)
  else (.enomem, { c with lookups := none }, n + 1)

/-- `config_nameserver` with the allocator's calls numbered from `n`; also returns the next
number: one call per server appended, and one more for a failed one. -/
def configNameserverFrom (n : Nat) (servers : List AresAddr) (str : List Char) :
    Status × List AresAddr × Nat :=
  let (st, servers') := configNameserver e.pton (fun k => e.alloc (n + k)) servers str
  (st, servers', n + (servers'.length - servers.length) + if st = .enomem then 1 else 0)

/-- `natural_mask`: the classful mask of an IPv4 address (class A, B, or else C). -/
def naturalMask (addr : Bytes) : Bytes :=
  let b0 := (addr.getD 0 0).toNat
  if b0 < 128 then [255, 0, 0, 0] else if b0 < 192 then [255, 255, 0, 0] else [255, 255, 255, 0]

/-- `ip_addr(ipbuf, len)`: the IPv4 address `ipbuf` names, if `len` is at most 15. -/
def ipAddr (ipbuf : List Char) (len : Nat) : Option Bytes :=
  if len > 15 then none else e.pton afInet ipbuf

/-- What `config_sortlist` makes of one item with address text `ip` and, after a slash, the
whole text `ip/pfx` and the text `pfx`: a CIDR pattern when `ares_inet_net_pton` reads the item
as IPv6 or the whole text as IPv4 with a positive prefix length, else a mask pattern when `ip`
is an IPv4 address (the mask `pfx` names, or the natural mask), else nothing. The lengths
`ip_addr` checks are those of `pfx` when there is one. -/
def sortlistItem (ip : List Char) (slash : Option (List Char × List Char)) :
    Except Status (Option Pattern) :=
  let text := match slash with
    | some (whole, _) => whole
    | none => ip
  let len := match slash with
    | some (_, pfx) => pfx.length
    | none => ip.length
  let v6 := (e.netPton afInet6 text).filter fun r => 0 < r.2
  let v4 := slash.bind fun (whole, _) => (e.netPton afInet whole).filter fun r => 0 < r.2
  match v6, v4, ipAddr e ip len with
  | some (a, bits), _, _ => .ok (some (.cidr afInet6 a (bits % 65536)))
  | none, some (a, bits), _ => .ok (some (.cidr afInet a (bits % 65536)))
  | none, none, some a =>
    match slash with
    | some (_, pfx) =>
      if 16 ≤ pfx.length then .error .ebadstr
      else .ok (some (.mask a ((ipAddr e pfx pfx.length).getD (naturalMask a))))
    | none => .ok (some (.mask a (naturalMask a)))
  | none, none, none => .ok none

/-- The loop of `config_sortlist` over the rest `str` of the value, up to `;`, with the patterns
so far and the allocator's next number: an item too long is `ARES_EBADSTR`, an item read is
appended by a `realloc`, and any error frees the list. The fuel bounds the rounds. -/
def configSortlistLoop : Nat → List Char → List Pattern → Nat → Status × List Pattern × Nat
  | 0, _, pats, n => (.success, pats, n)
  | fuel + 1, str, pats, n =>
    if str = [] ∨ str.head? = some ';' then (.success, pats, n)
    else
      let ip := str.takeWhile fun c => c != '/' && c != ';' && !isSpace c
      let q := str.drop ip.length
      if 16 ≤ ip.length then (.ebadstr, [], n)
      else
        let item : Option (List Char × List Char) × List Char :=
          match q with
          | '/' :: str2 =>
            let pfx := str2.takeWhile fun c => c != ';' && !isSpace c
            (some (ip ++ '/' :: pfx, pfx), str2.drop pfx.length)
          | _ => (none, q)
        let (slash, q) := item
        if slash.any (fun (whole, _) => 32 ≤ whole.length) then (.ebadstr, [], n)
        else
          match sortlistItem e ip slash with
          | .error st => (st, [], n)
          | .ok none =>
            let q := q.dropWhile fun c => c != ';' && !isSpace c
            configSortlistLoop fuel (q.dropWhile isSpace) pats n
          | .ok (some pat) =>
            if e.alloc n then configSortlistLoop fuel (q.dropWhile isSpace) (pats ++ [pat]) (n + 1)
            else (.enomem, [], n + 1)

/-- `config_sortlist`: it starts from an empty list. -/
def configSortlist (str : List Char) (n : Nat) : Status × List Pattern × Nat :=
  configSortlistLoop e (str.length + 1) str [] n

/-- `ares_set_sortlist` (lines 2175-2194) on a channel (`none` for a `NULL` one), with the
allocator's calls numbered from `n`: the sortlist `config_sortlist` reads from `sortstr`
replaces the channel's when the read succeeds and is not empty. Returns the status, the
channel and the next number. -/
def aresSetSortlist (ch : Option ResolvState) (sortstr : List Char) (n : Nat) :
    Status × Option ResolvState × Nat :=
  match ch with
  | none => (.enodata, none, n)
  | some s =>
    let (st, sortlist, n) := configSortlist e sortstr n
    if st = .success ∧ sortlist ≠ [] then (st, some { s with sortlist := sortlist }, n)
    else (st, some s, n)

/-- What `ares_set_sortlist` does with a channel: it returns the status of `config_sortlist`,
and changes the channel only by a successful, non-empty sortlist. -/
theorem aresSetSortlist_some {s : ResolvState} {sortstr : List Char} {n n' : Nat} {st : Status}
    {pats : List Pattern} (h : configSortlist e sortstr n = (st, pats, n')) :
    aresSetSortlist e (some s) sortstr n =
      (st, some (if st = .success ∧ pats ≠ [] then { s with sortlist := pats } else s), n') := by
  simp only [aresSetSortlist, h]
  split <;> rfl

/-- `ARES_CONFIG_CHECK`: `lookups`, the servers, `ndots`, `timeout` and `tries` are all
set. -/
def configCheck (c : InitConfig) : Bool :=
  c.lookups.isSome && 0 < c.nservers && 0 < c.ndots && 0 < c.timeout && 0 < c.tries

/-- The state of the `resolv.conf` loop: the channel, the servers and the sortlist read so far
(kept apart from the channel's), and the allocator's next number. -/
structure ConfRead where
  st : ResolvState
  servers : List AresAddr
  sortlist : List Pattern
  n : Nat

/-- One line of `resolv.conf`: the first directive that `try_config` finds and whose condition
holds. `domain` and `search` apply if no search domain was set before the file, `lookup` while
no lookup order is set, `nameserver` while the channel has no server, `sortlist` unless the
caller set one, and `options` always. -/
def resolvConfLine (updateDomains : Bool) (line : List Char) (r : ConfRead) : Status × ConfRead :=
  let c := r.st.config
  let directive (cond : Bool) (opt : String) : Option (List Char) :=
    if cond then tryConfig line opt.toList ';' else none
  match directive updateDomains "domain" with
  | some p => (.success, { r with st := { r.st with config := configDomain c p } })
  | none =>
  match directive c.lookups.isNone "lookup" with
  | some p =>
    let (st, c, n) := configLookup e c p 'b' none 'f' r.n
    (st, { r with st := { r.st with config := c }, n := n })
  | none =>
  match directive updateDomains "search" with
  | some p => (.success, { r with st := { r.st with config := setSearch c p } })
  | none =>
  match directive (c.nservers = 0) "nameserver" with
  | some p =>
    let (st, servers, n) := configNameserverFrom e r.n r.servers p
    (st, { r with servers := servers, n := n })
  | none =>
  match directive (!r.st.optmask.sortlist) "sortlist" with
  | some p =>
    let (st, sortlist, n) := configSortlist e p r.n
    (st, { r with sortlist := sortlist, n := n })
  | none =>
  match directive true "options" with
  | some p => (.success, { r with st := setOptions r.st p })
  | none => (.success, r)

/-- The read loop over the lines of `resolv.conf`: it stops at the first line whose directive
fails, and returns `ARES_EOF` after the last line. -/
def resolvConfLines (updateDomains : Bool) : List (List Char) → ConfRead → Status × ConfRead
  | [], r => (.eof, r)
  | line :: rest, r =>
    match resolvConfLine e updateDomains line r with
    | (.success, r) => resolvConfLines updateDomains rest r
    | (st, r) => (st, r)

/-- The read loop over `nsswitch.conf`, `host.conf` or `svc.conf`: each line with the directive
`opt` sets the lookup order while none is set; errors are ignored. -/
def lookupFileLines (opt : List Char) (bindch : Char) (altbindch : Option Char) (filech : Char) :
    List (List Char) → InitConfig × Nat → InitConfig × Nat
  | [], r => r
  | line :: rest, (c, n) =>
    let r := match (if c.lookups.isNone then tryConfig line opt '\x00' else none) with
      | some p => (configLookup e c p bindch altbindch filech n).2
      | none => (c, n)
    lookupFileLines opt bindch altbindch filech rest r

/-- One of the three lookup files, read while no lookup order is set; one that cannot be
opened is skipped. The status stays `ARES_EOF` either way. -/
def lookupFile (path opt : List Char) (bindch : Char) (altbindch : Option Char) (filech : Char)
    (r : InitConfig × Nat) : InitConfig × Nat :=
  if r.1.lookups.isNone then
    match e.files path with
    | .lines ls => lookupFileLines e opt bindch altbindch filech ls r
    | _ => r
  else r

/-- `init_by_resolv_conf` on a POSIX build: nothing if `ARES_CONFIG_CHECK` holds; otherwise
read `resolv.conf` (or `resolvconf_path`), then, if it ended without an error and no lookup
order is set, `nsswitch.conf`, `host.conf` and `svc.conf`. On an error the servers and the
sortlist read are dropped and the status returned; the other fields the file set stay. Else
the servers and the sortlist read, if any, replace the channel's. -/
def initByResolvConf (s : ResolvState) : Status × ResolvState :=
  if configCheck s.config then (.success, s)
  else
    let updateDomains := s.config.ndomains = 0
    let r : ConfRead := ⟨s, [], [], 0⟩
    let (status, r) := match e.files (s.resolvconfPath.getD pathResolvConf) with
      | .lines ls => resolvConfLines e updateDomains ls r
      | .missing => (.eof, r)
      | .error => (.efile, r)
    if status ≠ .eof then (status, r.st)
    else
      let (c, _) :=
        lookupFile e "/etc/svc.conf".toList "hosts=".toList 'b' none 'l' <|
          lookupFile e "/etc/host.conf".toList "order".toList 'b' none 'h' <|
            lookupFile e "/etc/nsswitch.conf".toList "hosts:".toList 'd' (some 'r') 'f'
              (r.st.config, r.n)
      let c := if r.servers = [] then c
        else { c with servers := r.servers, nservers := r.servers.length }
      (.success, { r.st with
        config := c
        sortlist := if r.sortlist = [] then r.st.sortlist else r.sortlist })

/-- The environment and file stages of `ares_init_options`, on the channel
`ares__init_by_options` left. `init_by_environment` cannot fail, so `init_by_resolv_conf`
always runs; its status is overwritten by that of `init_by_defaults`. -/
def initConfigured (s : ResolvState) : ResolvState :=
  (initByResolvConf e (initByEnvironment e s)).2

end CAres
