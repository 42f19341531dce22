import CAres.Engine.Answer

/-! # Event dispatch

The entry points the embedder drives (`ares_process`, `ares_process_fd`) and what they run:
`write_tcp_data`, `read_packets` with `read_tcp_data` and `read_udp_packets_fd`,
`process_timeouts`, and `handle_error`, which they all fall back to on an I/O error.

Three loops of the code re-read a list that their own body changes: the drain of the stolen
list in `handle_error`, the walk of `queries_by_timeout` in `process_timeouts`, and the
framing loop of `read_tcp_data`. Each is modelled with the re-read kept and a fuel argument
that bounds its rounds; the bound given at the call is one the loop never reaches.

`Reachable` collects the states a channel reaches from its initial state by submissions and
calls of `processfds`, for any behaviour of the outside world. -/

namespace CAres

open Function

/-- `MAXENDSSZ`: a UDP read takes at most `MAXENDSSZ + 1` bytes. -/
def maxEndsSz : Nat := 4096

/-- `ares__timedout(now, check)`: `now` is at or past `check`. -/
def aresTimedout (now check : Timeval) : Bool :=
  let secs := now.sec - check.sec
  if secs > 0 then true
  else if secs < 0 then false
  else now.usec - check.usec ≥ 0

/-- `ares__slist_node_next`: the entry after `h`. -/
def slistNext (h : QueryId) : List QueryId → Option QueryId
  | a :: rest => if a = h then rest.head? else slistNext h rest
  | [] => none

/-- One frame of a TCP stream, as `read_tcp_data` tags it: a 16-bit big-endian length and
that many bytes. Returns the tagged bytes, length included, and what follows them. -/
def tcpFrame : Bytes → Option (Bytes × Bytes)
  | b0 :: b1 :: rest =>
    let len := b0.toNat * 256 + b1.toNat
    if len ≤ rest.length then some (b0 :: b1 :: rest.take len, rest.drop len) else none
  | _ => none

variable (cfg : Config) (env : Env)

/-- The drain loop of `handle_error` over the stolen list `connQueries c`: take the first
query, check the assertion, skip the failed server and call `next_server`, which takes the
query off the list. -/
def handleErrorLoop (c : ConnId) (server : Nat) (now : Timeval) : Nat → Channel → Channel
  | 0, ch => ch
  | fuel + 1, ch =>
    match ch.connQueries c with
    | [] => ch
    | h :: _ =>
      match ch.queries h with
      | none => ch.emit (.fault (.queryAfterEnd h))
      | some q =>
        let ch := if q.server = (ch.servers server).idx then ch
          else ch.emit (.fault (.assertServer h))
        handleErrorLoop c server now fuel (nextServer cfg env ch h (skipServer cfg q server) now)

/-- `handle_error`: steal the connection's query list, close the connection, then requeue
every query of the list. -/
def handleError (ch : Channel) (c : ConnId) (now : Timeval) : Channel :=
  match ch.conns c with
  | none => ch.emit (.fault (.connAfterClose c))
  | some conn =>
    let ch := ch.closeConnection c conn
    handleErrorLoop cfg env c conn.server now (ch.connQueries c).length ch

/-- The walk of `process_timeouts` from entry `node`: stop at the first query not timed out;
otherwise record the timeout, call `next_server`, try to clean up the query's former
connection, and go on with the successor cached before the call. -/
def processTimeoutsLoop (now : Timeval) : Nat → Channel → Option QueryId → Channel
  | 0, ch, _ => ch
  | _ + 1, ch, none => ch
  | fuel + 1, ch, some h =>
    match ch.queries h with
    | none => ch.emit (.fault (.queryAfterEnd h))
    | some q =>
      let next := slistNext h ch.queriesByTimeout
      if aresTimedout now q.timeout then
        let q := { q with errorStatus := .etimeout, timeouts := q.timeouts + 1 }
        let c := q.conn.getD 0
        let ch := if q.conn.isSome && (ch.conns c).isSome then ch
          else ch.emit (.fault (.staleQueryConn h))
        let fd := ch.connFd c
        processTimeoutsLoop now fuel ((nextServer cfg env ch h q now).checkCleanupConn cfg fd) next
      else ch

/-- `process_timeouts`. Every round either stops the walk, or ends a query or raises its
`try_count`, which stays below `loopBound`; the fuel covers that many rounds. -/
def processTimeouts (ch : Channel) (now : Timeval) : Channel :=
  processTimeoutsLoop cfg env now (ch.queriesByTimeout.length * (loopBound cfg + 1) + 1) ch
    ch.queriesByTimeout.head?

/-- Whether the embedder selected socket `fd`: in the set when one is given, else the single
socket (`none` is `ARES_SOCKET_BAD`). -/
def selected (fds : Option (List Nat)) (fd : Option Nat) (s : Nat) : Bool :=
  match fds with
  | some fds => fds.contains s
  | none => fd == some s

/-- One round of `write_tcp_data`: server `i` writes what it can of `tcp_send` on its TCP
connection if that socket is selected, and clears it from the set. -/
def writeTcpServer (fd : Option Nat) (now : Timeval) (st : Channel × Option (List Nat))
    (i : Nat) : Channel × Option (List Nat) :=
  let (ch, fds) := st
  let s := ch.servers i
  match s.tcpConn with
  | none => st
  | some c =>
    let sock := ch.connFd c
    if s.tcpSend.length = 0 ∨ !selected fds fd sock then st
    else
      let fds := fds.map (·.erase sock)
      match env.tcpWrite ch.tick with
      | .wrote n =>
        if n = 0 then (handleError cfg env ch.advance c now, fds)
        else
          let count := min n s.tcpSend.length
          let ch := (ch.advance.updateServer i fun s => { s with tcpSend := s.tcpSend.drop count }
            ).emit (.tcpWritten i c (s.tcpSend.take count))
          (if count = s.tcpSend.length then ch.emit (.sockState sock true false) else ch, fds)
      | .again => (ch.advance, fds)
      | .error => (handleError cfg env ch.advance c now, fds)

/-- `write_tcp_data`. -/
def writeTcpData (ch : Channel) (fds : Option (List Nat)) (fd : Option Nat) (now : Timeval) :
    Channel :=
  if fds.isNone ∧ fd.isNone then ch
  else ((List.range cfg.nservers).foldl (writeTcpServer cfg env fd now) (ch, fds)).1

/-- The framing loop of `read_tcp_data` on the server's `tcp_parser`: while a whole frame is
buffered, consume it and hand its payload (the tagged bytes after the two length bytes) to
`process_answer` with the connection. -/
def readTcpFrames (c : ConnId) (server : Nat) (now : Timeval) : Nat → Channel → Channel
  | 0, ch => ch
  | fuel + 1, ch =>
    match tcpFrame (ch.servers server).tcpParser with
    | none => ch
    | some (frame, rest) =>
      let ch := (ch.updateServer server fun s => { s with tcpParser := rest }).emit
        (.tcpFramed server c frame)
      readTcpFrames c server now fuel (processAnswer cfg env ch (frame.drop 2) c true now)

/-- `read_tcp_data`: make room in the parser buffer, read once, and process every complete
frame. Every frame consumes at least its two length bytes, so the buffer's length bounds the
rounds. -/
def readTcpData (ch : Channel) (c : ConnId) (conn : Conn) (now : Timeval) : Channel :=
  if !env.alloc ch.tick then handleError cfg env ch.advance c now
  else
    let ch' := { ch with tick := ch.tick + 2 }
    match env.tcpRecv (ch.tick + 1) with
    | .data [] => handleError cfg env ch' c now
    | .data bytes =>
      let ch := (ch'.updateServer conn.server fun s => { s with tcpParser := s.tcpParser ++ bytes }
        ).emit (.tcpReceived conn.server c bytes)
      readTcpFrames cfg env c conn.server now (ch.servers conn.server).tcpParser.length ch
    | .again => ch'
    | .error => handleError cfg env ch' c now

/-- The loop of `read_udp_packets_fd` over what successive reads return: skip empty
datagrams and datagrams from another address than the server's, hand the others to
`process_answer`, and go on while the socket is still registered. -/
def readUdpLoop (c : ConnId) (fd : Nat) (now : Timeval) : List UdpRead → Channel → Channel
  | [], ch => ch
  | r :: rest, ch =>
    match ch.conns c with
    | none => ch.emit (.fault (.connAfterClose c))
    | some conn =>
      match r with
      | .fail true => ch
      | .fail false => handleError cfg env ch c now
      | .datagram src bytes =>
        let bytes := bytes.take (maxEndsSz + 1)
        let ch :=
          if bytes.length = 0 then ch
          else if sameAddress src (ch.servers conn.server).addr then
            processAnswer cfg env ch bytes c false now
          else ch
        if (ch.connnodeBySocket fd).isSome then readUdpLoop c fd now rest ch else ch

/-- `read_udp_packets_fd`. -/
def readUdpPacketsFd (ch : Channel) (c : ConnId) (now : Timeval) : Channel :=
  readUdpLoop cfg env c (ch.connFd c) now (env.udpRecv ch.tick) ch.advance

/-- Dispatch a readable connection to the TCP or the UDP reader. -/
def readConn (ch : Channel) (c : ConnId) (now : Timeval) : Channel :=
  match ch.conns c with
  | none => ch.emit (.fault (.connAfterClose c))
  | some conn =>
    if conn.isTcp then readTcpData cfg env ch c conn now else readUdpPacketsFd cfg env ch c now

/-- `channel_socket_list`: the socket of every connection of every server, in server order
then list order. The array starts with room for 16 sockets; `socket_list_append` grows it
with `ares_realloc(socketlist, ...)`, the address of the caller's pointer rather than the
array, whose outcome is undefined. -/
def channelSocketList (ch : Channel) : Option (List Nat) × Channel :=
  if !env.alloc ch.tick then (none, ch.advance)
  else
    let socks := (List.range cfg.nservers).flatMap fun i => (ch.servers i).connections.map ch.connFd
    if socks.length ≤ 16 then (some socks, ch.advance)
    else (none, ch.advance.emit (.fault .socketListRealloc))

/-- The loop of `read_packets` over the socket list: a selected socket is cleared from the
set and its connection read; a socket no longer registered ends the whole loop. -/
def readPacketsLoop (now : Timeval) : List Nat → List Nat → Channel → Channel
  | _, [], ch => ch
  | fds, s :: rest, ch =>
    if fds.contains s then
      match ch.connnodeBySocket s with
      | none => ch
      | some c => readPacketsLoop now (fds.erase s) rest (readConn cfg env ch c now)
    else readPacketsLoop now fds rest ch

/-- `read_packets`. -/
def readPackets (ch : Channel) (fds : Option (List Nat)) (fd : Option Nat) (now : Timeval) :
    Channel :=
  match fds, fd with
  | none, none => ch
  | none, some s =>
    match ch.connnodeBySocket s with
    | none => ch
    | some c => readConn cfg env ch c now
  | some fds, _ =>
    let (socks, ch) := channelSocketList cfg env ch
    readPacketsLoop cfg env now fds (socks.getD []) ch

/-- `processfds`: writes, then reads, then timeouts, all at the one time `now`. -/
def processfds (ch : Channel) (readFds : Option (List Nat)) (readFd : Option Nat)
    (writeFds : Option (List Nat)) (writeFd : Option Nat) (now : Timeval) : Channel :=
  processTimeouts cfg env
    (readPackets cfg env (writeTcpData cfg env ch writeFds writeFd now) readFds readFd now) now

/-- `ares_process`. -/
def aresProcess (ch : Channel) (readFds writeFds : Option (List Nat)) (now : Timeval) :
    Channel :=
  processfds cfg env ch readFds none writeFds none now

/-- `ares_process_fd`. -/
def aresProcessFd (ch : Channel) (readFd writeFd : Option Nat) (now : Timeval) : Channel :=
  processfds cfg env ch none readFd none writeFd now

/-- The channel `ares_init_options` hands over: server `i` at address `addrs i` with no
connection and generation `i + 1`, and no query. -/
def Channel.init (flags : Flags) (addrs : Nat → AresAddr) : Channel where
  flags := flags
  servers i :=
    { idx := i, addr := addrs i, connections := [], tcpConn := none, tcpParser := [],
      tcpSend := [], tcpConnectionGeneration := i + 1 }
  tcpConnectionGeneration := cfg.nservers
  lastServer := 0
  allQueries := []
  queriesByQid _ := none
  queriesByTimeout := []
  connnodeBySocket _ := none
  queries _ := none
  conns _ := none
  connQueries _ := []
  nextQuery := 0
  nextConn := 0
  tick := 0
  trace := []

/-- The states of a channel over any run: submissions with a free 16-bit id, and calls of
`processfds`, at any times and for any behaviour of the outside world `env`. -/
inductive Reachable : Channel → Prop
  | init (flags : Flags) (addrs : Nat → AresAddr) : Reachable (Channel.init cfg flags addrs)
  | send {ch : Channel} (id : Nat) (qbuf : Bytes) (now : Timeval) :
      Reachable ch → id < 65536 → ch.queriesByQid id = none →
      Reachable (aresSend cfg env ch id qbuf now)
  | process {ch : Channel} (readFds : Option (List Nat)) (readFd : Option Nat)
      (writeFds : Option (List Nat)) (writeFd : Option Nat) (now : Timeval) :
      Reachable ch → Reachable (processfds cfg env ch readFds readFd writeFds writeFd now)

/-! ## The socket list past 16 sockets

`channel_socket_list` starts with room for 16 sockets, and `socket_list_append` grows the
array with `ares_realloc(socketlist, ...)`, where `socketlist` is the address of the caller's
pointer, not the array. A channel reaches that call as soon as its servers hold 17
connections. One submission is enough on a channel with 17 servers where every UDP write
fails: each attempt opens a socket on the next server, and a failed write leaves the socket
open (`socket_list_realloc_reached`). -/

/-- `127.0.0.1`, port 53. -/
def loopAddr : AresAddr :=
  { family := afInet, addr := [127, 0, 0, 1], udpPort := 53, tcpPort := 53 }

/-- Seventeen servers, one try each, and no UDP quota. -/
def sprayCfg : Config where
  nservers := 17
  nservers_pos := by decide
  tries := 1
  timeout := 1000
  rotate := false
  udpMaxQueries := 0
  ednspsz := 1232

/-- A world where sockets open but every UDP write fails. -/
def udpFailEnv : Env where
  parse _ := none
  openConnection _ := .success
  alloc _ := true
  udpWrite _ := false
  tcpWrite _ := .again
  tcpRecv _ := .again
  udpRecv _ := []

/-- A request with id 7: it is tried on each of the 17 servers in turn, over a new UDP socket
each time, and ends with `ARES_ECONNREFUSED`. -/
def sprayed : Channel :=
  aresSend sprayCfg udpFailEnv (Channel.init sprayCfg {} fun _ => loopAddr) 7
    (List.replicate 12 0) ⟨0, 0⟩

/-- After one submission each of the 17 servers holds one open UDP connection, and
`channel_socket_list` calls `ares_realloc` on the address of its local pointer. -/
theorem socket_list_realloc_reached :
    Reachable sprayCfg udpFailEnv sprayed ∧
      (List.range 17).map (fun i => (sprayed.servers i).connections.length) =
        List.replicate 17 1 ∧
      (∀ i < 17, ∀ c ∈ (sprayed.servers i).connections, (sprayed.conns c).isSome) ∧
      (channelSocketList sprayCfg udpFailEnv sprayed).1 = none ∧
      (channelSocketList sprayCfg udpFailEnv sprayed).2.trace.head? =
        some (.fault .socketListRealloc) :=
  ⟨.send _ _ _ (.init _ _) (by decide) rfl, by decide, by decide, by decide, by decide⟩

end CAres
