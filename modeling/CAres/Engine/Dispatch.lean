import CAres.Engine.Registry

/-! # The dispatcher: `ares__send_query` and `next_server`

`ares__send_query` (`ares_process.c`, lines 719-861) is split at its three exits. The
attempt `sendAttempt` puts the request on a connection of the query's current server and
reports one of the outcomes of `Sent`: the request went out, the server is to be skipped and
`next_server` called, or the query is to be ended with a status. `aresSendQuery` and the loop
of `next_server` then take the exit.

The query being dispatched is passed by value. The registry sees the new record when the
query is enqueued on a connection (`armAndEnqueue`) or ended; until then no other code reads
the query, so this is what the C code observes too.

`next_server` is structurally recursive on the number of loop rounds left,
`loopBound cfg - try_count`: each round increments `try_count`, whether it skips the
candidate or a failed send of the candidate calls `next_server` again. -/

namespace CAres

open Function

variable (cfg : Config) (env : Env)

/-- `skip_server`: mark the server skipped for this query, unless it is the only one. -/
def skipServer (q : Query) (s : Nat) : Query :=
  if 1 < cfg.nservers then
    let info : ServerInfo := ⟨true, (q.serverInfo s).tcpConnectionGeneration⟩
    { q with serverInfo := update q.serverInfo s info }
  else q

/-- The timeout of one attempt: the channel timeout doubled once per full pass over the
servers, unless the bits shifted out or into the sign bit of an `int` would not be zero. -/
def timeplus (timeout tryCount nservers : Nat) : Nat :=
  let shift := tryCount / nservers
  if shift ≤ 31 ∧ timeout >>> (31 - shift) = 0 then timeout <<< shift else timeout

/-- The cast `(time_t)` of a `size_t`: the 64 bits read as a two's complement number. -/
def toTimeT (n : Nat) : Int :=
  if n % 2 ^ 64 < 2 ^ 63 then (n % 2 ^ 64 : Nat) else ((n % 2 ^ 64 : Nat) : Int) - 2 ^ 64

/-- `timeadd`: add a number of milliseconds to a time. C's division truncates. -/
def timeadd (now : Timeval) (millisecs : Nat) : Timeval :=
  let sec := now.sec + (toTimeT millisecs).tdiv 1000
  let usec := now.usec + toTimeT (millisecs % 1000 * 1000)
  if usec ≥ 1000000 then ⟨sec + 1, usec - 1000000⟩ else ⟨sec, usec⟩

/-- `channel->nservers * channel->tries`, a `size_t` product. -/
def loopBound : Nat := cfg.nservers * cfg.tries % 2 ^ 64

/-- The exits of `ares__send_query`. -/
inductive Sent
  /-- The request went out; the query is enqueued and its deadline armed. -/
  | ok (ch : Channel)
  /-- `skip_server` has been applied: `return next_server(channel, query, now)`. -/
  | retry (ch : Channel) (q : Query)
  /-- `end_query(channel, query, status, NULL, 0)`. -/
  | fail (ch : Channel) (q : Query) (status : Status)

/-- `conn->total_queries++`. -/
def Conn.countQuery (conn : Conn) : Conn := { conn with totalQueries := conn.totalQueries + 1 }

/-- The success tail of `ares__send_query`, once the deadline of `q` is computed and its
skiplist node allocated: re-insert the query in `queries_by_timeout`, move it from the list
its node is in to `c`'s list (when `linked`, the outcome of that list insertion's
allocation), point `query->conn` at `c`, and count the query on `c`. -/
def Channel.enqueueQuery (ch : Channel) (h : QueryId) (q : Query) (c : ConnId) (linked : Bool) :
    Channel :=
  let lists := connListErase ch.connQueries q.nodeQueriesToConn h
  let q := { q with nodeQueriesToConn := if linked then some c else none, conn := some c }
  { ch with
    queriesByTimeout := insertByTimeout ch.queries h q.timeout (ch.queriesByTimeout.erase h)
    connQueries := if linked then update lists c (lists c ++ [h]) else lists
    conns := update ch.conns c ((ch.conns c).map Conn.countQuery)
    queries := update ch.queries h (some q)
    tick := ch.tick + 2 }

/-- The common tail of `ares__send_query` once the request is on its way over connection `c`:
record the send, re-arm the deadline in `queries_by_timeout`, and move the query to `c`'s
list. Both insertions allocate; a failed skiplist insertion ends the query, a failed list
insertion leaves `node_queries_to_conn` `NULL`, which the code does not check. -/
def armAndEnqueue (ch : Channel) (h : QueryId) (q : Query) (c : ConnId) (now : Timeval)
    (cause : Cause) : Sent :=
  let q := { q with timeout := timeadd now (timeplus cfg.timeout q.tryCount cfg.nservers) }
  let ch := ch.emit (.sent h q.server q.tryCount cause)
  if env.alloc ch.tick then .ok (ch.enqueueQuery h q c (env.alloc (ch.tick + 1)))
  else .fail { ch.advance with queriesByTimeout := ch.queriesByTimeout.erase h } q .enomem

/-- The enqueue on the TCP path of `ares__send_query`: append the length-prefixed request
to server `i`'s `tcp_send`, and notify write interest on the socket of `c` if the buffer was
empty. -/
def Channel.queueTcp (ch : Channel) (i : Nat) (c : ConnId) (frame : Bytes) : Channel :=
  let wasEmpty := (ch.servers i).tcpSend.length = 0
  let ch := (ch.advance.updateServer i fun s => { s with tcpSend := s.tcpSend ++ frame }).emit
    (.tcpQueued i frame)
  if wasEmpty then ch.emit (.sockState (ch.connFd c) true true) else ch

/-- The TCP branch of `ares__send_query`: open the server's TCP connection if there is none,
append the length-prefixed request to `tcp_send`, and record the connection's generation for
this server. -/
def sendTcp (ch : Channel) (h : QueryId) (q : Query) (now : Timeval) (cause : Cause) : Sent :=
  let (st, ch) :=
    match (ch.servers q.server).tcpConn with
    | some _ => (Status.success, ch)
    | none => ch.openConnection env q.server true
  match st with
  | .success =>
    match (ch.servers q.server).tcpConn with
    | some c =>
      if env.alloc ch.tick then
        let info : ServerInfo :=
          ⟨(q.serverInfo q.server).skipServer, (ch.servers q.server).tcpConnectionGeneration⟩
        armAndEnqueue cfg env (ch.queueTcp q.server c (q.tcpbuf.take q.tcplen)) h
          { q with serverInfo := update q.serverInfo q.server info } c now cause
      else .fail ch.advance q .enomem
    | none => .fail ch q .enomem
  | .econnrefused | .ebadfamily => .retry ch (skipServer cfg q q.server)
  | st => .fail ch q st

/-- The connection the UDP branch of `ares__send_query` reuses: the first of the server's
list, unless it is the TCP connection or has reached `udp_max_queries`. -/
def reusableUdp (ch : Channel) (s : Nat) : Option ConnId :=
  match (ch.servers s).connections with
  | c :: _ =>
    match ch.conns c with
    | some conn =>
      if conn.isTcp then none
      else if 0 < cfg.udpMaxQueries ∧ cfg.udpMaxQueries ≤ conn.totalQueries then none
      else some c
    | none => none
  | [] => none

/-- The UDP branch of `ares__send_query`: reuse or open a connection and write the request. -/
def sendUdp (ch : Channel) (h : QueryId) (q : Query) (now : Timeval) (cause : Cause) : Sent :=
  let reuse := reusableUdp cfg ch q.server
  let (st, ch) :=
    match reuse with
    | some _ => (Status.success, ch)
    | none => ch.openConnection env q.server false
  match st with
  | .success =>
    let node := match reuse with
      | some c => some c
      | none => (ch.servers q.server).connections.head?
    match node with
    | some c =>
      if env.udpWrite ch.tick then armAndEnqueue cfg env ch.advance h q c now cause
      else .retry ch.advance (skipServer cfg q q.server)
    | none => .fail ch q .enomem
  | .econnrefused | .ebadfamily => .retry ch (skipServer cfg q q.server)
  | st => .fail ch q st

/-- One run of `ares__send_query` up to its exit. -/
def sendAttempt (ch : Channel) (h : QueryId) (q : Query) (now : Timeval) (cause : Cause) : Sent :=
  if q.usingTcp then sendTcp cfg env ch h q now cause else sendUdp cfg env ch h q now cause

/-- The test of the loop of `next_server`: the candidate is neither skipped nor the very TCP
connection the query was already sent on. -/
def eligible (ch : Channel) (q : Query) : Bool :=
  !(q.serverInfo q.server).skipServer &&
    !(q.usingTcp && (q.serverInfo q.server).tcpConnectionGeneration ==
      (ch.servers q.server).tcpConnectionGeneration)

/-- The loop of `next_server`, with `k` the rounds left (`loopBound cfg - try_count`). -/
def nextServerLoop (h : QueryId) (now : Timeval) : Nat → Channel → Query → Channel
  | k + 2, ch, q =>
    let q := { q with tryCount := q.tryCount + 1 }
    if q.noRetries then ch.endQuery h q q.errorStatus none
    else
      let q := { q with server := (q.server + 1) % cfg.nservers }
      if eligible ch q then
        match sendAttempt cfg env ch h q now .nextServer with
        | .ok ch => ch
        | .retry ch q => nextServerLoop h now (k + 1) ch q
        | .fail ch q st => ch.endQuery h q st none
      else nextServerLoop h now (k + 1) ch q
  | _, ch, q =>
    let q := { q with tryCount := q.tryCount + 1 }
    ch.endQuery h q q.errorStatus none

/-- `next_server`. -/
def nextServer (ch : Channel) (h : QueryId) (q : Query) (now : Timeval) : Channel :=
  nextServerLoop cfg env h now (loopBound cfg - q.tryCount) ch q

/-- `ares__send_query`. -/
def aresSendQuery (ch : Channel) (h : QueryId) (q : Query) (now : Timeval) (cause : Cause) :
    Channel :=
  match sendAttempt cfg env ch h q now cause with
  | .ok ch => ch
  | .retry ch q => nextServer cfg env ch h q now
  | .fail ch q st => ch.endQuery h q st none

/-- `PACKETSZ`. -/
def packetSz : Nat := 512

/-- The request as the submission stores it: the id written into the header, and the
two-byte big-endian length in front. -/
def requestFrame (id : Nat) (qbuf : Bytes) : Bytes :=
  let len := qbuf.length
  [(len >>> 8 % 256).toUInt8, (len % 256).toUInt8] ++
    ((qbuf.set 0 (id >>> 8 % 256).toUInt8).set 1 (id % 256).toUInt8)

/-- Modelled from the spec: the submission path (`ares_send`) is not in the sources. A
request shorter than a header, or too long for the length prefix, is refused with
`ARES_EBADQUERY`. Otherwise the query gets the free 16-bit id `id` (the spec draws ids from a
PRNG until a free one comes up; the caller passes the id drawn), starts at the channel's
`last_server` (advanced when `rotate` is set) with no try made, over TCP when `USEVC` is set
or the request does not fit a UDP packet, and with `ARES_ECONNREFUSED` as the status to
report if every attempt fails (the spec reports "the last error encountered if none was
saved", and refused or failed connections are the errors that save none). It is inserted
in `all_queries` and `queries_by_qid` in one step, rolled back with `ARES_ENOMEM` when an
insertion fails, and sent. -/
def aresSend (ch : Channel) (id : Nat) (qbuf : Bytes) (now : Timeval) : Channel :=
  let h := ch.nextQuery
  let ch := { ch with nextQuery := h + 1 }
  if qbuf.length < 12 ∨ 65536 ≤ qbuf.length then ch.emit (.callback h .ebadquery 0 none)
  else if !(env.alloc ch.tick && env.alloc (ch.tick + 1)) then
    { ch with tick := ch.tick + 2 }.emit (.callback h .enomem 0 none)
  else
    let psz := if ch.flags.edns then cfg.ednspsz else packetSz
    let q : Query :=
      { qid := id, timeout := ⟨0, 0⟩, conn := none, nodeQueriesToConn := none,
        tcpbuf := requestFrame id qbuf, tcplen := qbuf.length + 2, qlen := qbuf.length,
        tryCount := 0, server := ch.lastServer, serverInfo := fun _ => ⟨false, 0⟩,
        usingTcp := ch.flags.usevc || decide (psz < qbuf.length),
        errorStatus := .econnrefused, timeouts := 0, noRetries := false }
    let ch := { ch with
      lastServer := if cfg.rotate then (ch.lastServer + 1) % cfg.nservers else ch.lastServer
      allQueries := ch.allQueries ++ [h]
      queriesByQid := update ch.queriesByQid id (some h)
      queries := update ch.queries h (some q)
      tick := ch.tick + 2
      trace := .submitted h q.server :: ch.trace }
    aresSendQuery cfg env ch h q now .initial

end CAres
