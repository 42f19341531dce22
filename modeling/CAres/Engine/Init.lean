import CAres.Engine.Events

/-! # Channel initialisation

`ares_init_options` (`ares_init.c`, lines 130-264) with `init_by_defaults` (lines 1366-1528)
and `ares__init_servers_state` (lines 2196-2229), on a POSIX build (`HAVE_GETHOSTNAME`).

The stages that read the options, the environment and `resolv.conf` run before: what they
leave in the channel is the input `InitConfig` (the environment and file stages are
`initConfigured` of `CAres.Engine.Resolv`), and of their statuses only the options stage's
matters, because `ares_init_options` overwrites the other two with the status of
`init_by_defaults`. Every allocation of the path is a call of the allocator, which
succeeds or fails as the oracle `InitEnv.alloc` says for the call's number: the channel is
call 0, its random state and four indexes calls 1 to 5, and `init_by_defaults` and
`ares__init_servers_state` number their calls on from 6 in the order the code makes them. -/

namespace CAres

/-- `DEFAULT_TIMEOUT`, in milliseconds. -/
def defaultTimeout : Nat := 2000

/-- `DEFAULT_TRIES`. -/
def defaultTries : Nat := 3

/-- `EDNSPACKETSZ`. -/
def ednsPacketSz : Nat := 1280

/-- The server `init_by_defaults` adds when none is configured: `INADDR_LOOPBACK`, with the
ports left 0 so that the channel's ports apply. -/
def loopbackServer : AresAddr :=
  { family := afInet, addr := [127, 0, 0, 1], udpPort := 0, tcpPort := 0 }

/-- What one call of `gethostname` reports: the name, a buffer too short for it, or another
error. -/
inductive GetHostname
  | ok (name : String)
  | tooLong
  | error
  deriving DecidableEq, Repr

/-- The configuration fields of the channel while it is initialised. `servers` is the server
array, of which `nservers` entries are in use; `none` is a `NULL` pointer. -/
structure InitConfig where
  flags : Flags
  timeout : Nat
  tries : Nat
  ndots : Nat
  ednspsz : Nat
  servers : List AresAddr
  nservers : Nat
  ndomains : Nat
  domains : Option (List String)
  lookups : Option String
  deriving DecidableEq, Repr

/-- What initialisation consumes besides the configuration: whether the library is
initialised, the allocator, the status of the options stage, and what successive calls of
`gethostname` report (past the end of the list, the call fails). -/
structure InitEnv where
  libraryInitialized : Bool
  alloc : Nat → Bool
  optionsStatus : Status
  hostnames : List GetHostname

/-- `struct server_state` as `ares__init_servers_state` leaves it; the buffers and the
connection list are `none` until created. -/
structure InitServer where
  addr : AresAddr
  idx : Nat
  tcpParser : Option Bytes
  tcpSend : Option Bytes
  connections : Option (List ConnId)
  tcpConnectionGeneration : Nat
  deriving DecidableEq, Repr

/-- The channel `ares_init_options` hands over. -/
structure InitChannel where
  flags : Flags
  timeout : Nat
  tries : Nat
  ndots : Nat
  ednspsz : Nat
  servers : List InitServer
  nservers : Nat
  ndomains : Nat
  domains : Option (List String)
  lookups : Option String
  tcpConnectionGeneration : Nat
  deriving DecidableEq, Repr

variable (env : InitEnv)

/-- The `gethostname` loop of `init_by_defaults`, its `realloc` numbered `n`: a name too long
for the buffer doubles the buffer and calls again; another error leaves the empty name. -/
def hostnameLoop : List GetHostname → Nat → Except Status String × Nat
  | [], n | .error :: _, n => (.ok "", n)
  | .ok name :: _, n => (.ok name, n)
  | .tooLong :: rest, n =>
    if env.alloc n then hostnameLoop rest (n + 1) else (.error .enomem, n + 1)

/-- The search domain `init_by_defaults` derives from the host name when none is configured:
the part after the first dot, if there is one. Allocates the name buffer, then the domain
array and the copy of the domain. -/
def hostDomains (c : InitConfig) (n : Nat) : Status × InitConfig × Nat :=
  if env.alloc n then
    match hostnameLoop env env.hostnames (n + 1) with
    | (.error st, n) => (st, c, n)
    | (.ok name, n) =>
      if name.contains '.' then
        if env.alloc n then
          if env.alloc (n + 1) then
            let domain := (name.dropWhile (· ≠ '.')).drop 1
            (.success, { c with domains := some [domain], ndomains := 1 }, n + 2)
          else (.enomem, { c with domains := some [] }, n + 2)
        else (.enomem, c, n + 1)
      else (.success, c, n)
  else (.enomem, c, n + 1)

/-- The server table `init_by_defaults` fills in when none is configured: the loopback server
in a one-entry array. -/
def defaultServers (c : InitConfig) (n : Nat) : Status × InitConfig × Nat :=
  if c.nservers = 0 then
    if env.alloc n then (.success, { c with servers := [loopbackServer], nservers := 1 }, n + 1)
    else (.enomem, c, n + 1)
  else (.success, c, n)

/-- The default `lookups` string `"fb"`, when none is configured. -/
def defaultLookups (c : InitConfig) (n : Nat) : Status × InitConfig × Nat :=
  match c.lookups with
  | some _ => (.success, c, n)
  | none =>
    if env.alloc n then (.success, { c with lookups := some "fb" }, n + 1)
    else (.enomem, c, n + 1)

/-- The next step of `init_by_defaults`, unless an earlier one failed and jumped to
`error:`. -/
def initThen (r : Status × InitConfig × Nat) (f : InitConfig → Nat → Status × InitConfig × Nat) :
    Status × InitConfig × Nat :=
  if r.1 = .success then f r.2.1 r.2.2 else r

/-- The allocating part of `init_by_defaults`, up to its `error:` label: the loopback server
when none is configured, the search domain when none is configured, and `lookups`. -/
def defaultsAlloc (c : InitConfig) (n : Nat) : Status × InitConfig × Nat :=
  initThen (initThen (defaultServers env c n) fun c n =>
    if c.ndomains = 0 then hostDomains env c n else (.success, c, n)) (defaultLookups env)

/-- `init_by_defaults`: fill in the scalar defaults, allocate the rest, and on a failed
allocation free the server table, the search domains and `lookups`, and set `nservers` to 0.
Returns the status with the channel as it is left either way. -/
def initByDefaults (c : InitConfig) (n : Nat) : Status × InitConfig × Nat :=
  let c := { c with
    timeout := if c.timeout = 0 then defaultTimeout else c.timeout
    tries := if c.tries = 0 then defaultTries else c.tries
    ndots := if c.ndots = 0 then 1 else c.ndots
    ednspsz := if c.ednspsz = 0 then ednsPacketSz else c.ednspsz }
  let r := defaultsAlloc env c n
  if r.1 = .success then r
  else (r.1, { r.2.1 with servers := [], nservers := 0, domains := none, lookups := none }, r.2.2)

/-- The loop of `ares__init_servers_state` over the `k` servers from index `i`: create the
parser buffer, the send buffer and the connection list (three allocations from `n`), number
the server, and give it the next TCP generation after `gen`. Returns the servers and the
channel's generation. -/
def initServers (addrs : List AresAddr) : Nat → Nat → Nat → Nat →
    Except Status (List InitServer × Nat)
  | 0, _, _, gen => .ok ([], gen)
  | k + 1, i, n, gen =>
    if env.alloc n && env.alloc (n + 1) && env.alloc (n + 2) then
      match initServers addrs k (i + 1) (n + 3) (gen + 1) with
      | .ok (rest, g) =>
        let s : InitServer :=
          { addr := addrs.getD i loopbackServer, idx := i, tcpParser := some [], tcpSend := some [],
            connections := some [], tcpConnectionGeneration := gen + 1 }
        .ok (s :: rest, g)
      | .error st => .error st
    else .error .enomem

/-- Trim to one server if `ARES_FLAG_PRIMARY` is set. -/
def trimPrimary (c : InitConfig) : InitConfig :=
  if c.flags.primary ∧ 1 < c.nservers then { c with nservers := 1 } else c

/-- `ares_init_options`. The statuses of `init_by_environment` and `init_by_resolv_conf`, and
then that of `init_by_defaults`, are overwritten before they are checked; only the options
stage and `ares__init_servers_state` can fail the call after the indexes are created. -/
def aresInitOptions (c : InitConfig) : Except Status InitChannel :=
  if env.libraryInitialized = false then .error .enotinitialized
  else if env.alloc 0 = false then .error .enomem
  else if (env.alloc 1 && env.alloc 2 && env.alloc 3 && env.alloc 4 && env.alloc 5) = false then
    .error .enomem
  else if env.optionsStatus ≠ .success then .error env.optionsStatus
  else
    let r := initByDefaults env c 6
    let c := trimPrimary r.2.1
    match initServers env c.servers c.nservers 0 r.2.2 0 with
    | .error st => .error st
    | .ok (servers, gen) =>
      .ok { flags := c.flags, timeout := c.timeout, tries := c.tries, ndots := c.ndots,
            ednspsz := c.ednspsz, servers, nservers := c.nservers, ndomains := c.ndomains,
            domains := c.domains, lookups := c.lookups, tcpConnectionGeneration := gen }

end CAres
