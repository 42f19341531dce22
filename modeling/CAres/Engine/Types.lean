import Mathlib.Logic.Function.Basic
import Mathlib.Algebra.Group.Int

/-! # Data model of the query engine

The records of `ares_private.h` that the query engine of `ares_process.c` reads and
writes, as flat Lean structures:

* `Query` is `struct query`, `Conn` is `struct server_connection`, `Server` is
  `struct server_state`;
* `Config` is the part of `struct ares_channeldata` the engine never writes (the resolver
  policy fixed by `ares_init_options`), `Channel` the part it does write;
* `Env` is what the engine consumes from outside: the DNS wire parser, the socket layer and
  the allocator.

Pointers become handles. A query is named by a `QueryId` and a connection by a `ConnId`;
the channel keeps one heap of each (`Channel.queries`, `Channel.conns`), and a freed object
is a handle the heap maps to `none`. A list of `ares__llist_t` or `ares__slist_t` is a
`List` of handles; a hash table is a function. The list object `queries_to_conn` of a
connection is `Channel.connQueries c`, kept apart from the connection record because
`handle_error` steals it before it frees the connection. A connection's socket is numbered
by its handle (`ares__open_connection` below hands out `fd = c`).

The channel also carries a ghost trace of what the engine did (`Event`), newest first: the
callbacks it invoked, the requests it put on the wire, the bytes moved on TCP streams, the
socket-state notifications, and every read of freed memory (`Fault`). What a run does is
stated over this trace. -/

namespace CAres

/-- A byte string. -/
abbrev Bytes := List UInt8

/-- Handle of a `struct query` object. -/
abbrev QueryId := Nat

/-- Handle of a `struct server_connection` object. -/
abbrev ConnId := Nat

/-- `ares_status_t`. -/
inductive Status
  | success | enodata | eformerr | eservfail | enotfound | enotimp | erefused
  | ebadquery | ebadname | ebadfamily | ebadresp | econnrefused | etimeout | eof | efile
  | enomem | edestruction | ebadstr | ebadflags | enoname | ebadhints | enotinitialized
  | eloadiphlpapi | eaddrgetnetworkparams | ecancelled | eservice
  deriving DecidableEq, Repr

/-! ## DNS messages and addresses -/

/-- `ARES_RCODE_FORMAT_ERROR`. -/
def rcodeFormatError : Nat := 1
/-- `ARES_RCODE_SERVER_FAILURE`. -/
def rcodeServerFailure : Nat := 2
/-- `ARES_RCODE_NOT_IMPLEMENTED`. -/
def rcodeNotImplemented : Nat := 4
/-- `ARES_RCODE_REFUSED`. -/
def rcodeRefused : Nat := 5
/-- `ARES_REC_TYPE_OPT`. -/
def recTypeOpt : Nat := 41
/-- `ARES_FLAG_TC` of `ares_dns_flags_t`. -/
def dnsFlagTc : Nat := 4

/-- One entry of a question section: name, type and class. -/
structure Question where
  name : String
  qtype : Nat
  qclass : Nat
  deriving DecidableEq, Repr

/-- The parts of an `ares_dns_record_t` that the engine reads: the header id, flags and
rcode, the question section, and the types of the additional-section records. -/
structure DnsRecord where
  id : Nat
  flags : Nat
  rcode : Nat
  questions : List Question
  additional : List Nat
  deriving DecidableEq, Repr

/-- `AF_INET`. -/
def afInet : Nat := 2
/-- `AF_INET6`. -/
def afInet6 : Nat := 10

/-- `struct ares_addr`: family, address bytes (4 or 16) and the two ports in network order. -/
structure AresAddr where
  family : Nat
  addr : Bytes
  udpPort : Nat
  tcpPort : Nat
  deriving DecidableEq, Repr

/-- The `struct sockaddr` a datagram came from. -/
structure SockAddr where
  family : Nat
  addr : Bytes
  deriving DecidableEq, Repr

/-- `struct timeval`, with `time_t` and `suseconds_t` as integers. -/
structure Timeval where
  sec : Int
  usec : Int
  deriving DecidableEq, Repr

/-! ## Channel flags -/

/-- The `ARES_FLAG_*` bits of `channel->flags`. -/
structure Flags where
  usevc : Bool := false
  primary : Bool := false
  igntc : Bool := false
  norecurse : Bool := false
  stayopen : Bool := false
  nosearch : Bool := false
  noaliases : Bool := false
  nocheckresp : Bool := false
  edns : Bool := false
  noDfltSvr : Bool := false
  deriving DecidableEq, Repr

/-! ## Queries, connections, servers -/

/-- `struct query_server_info`. -/
structure ServerInfo where
  skipServer : Bool
  tcpConnectionGeneration : Nat
  deriving DecidableEq, Repr

/-- `struct query`. `qbuf` is not stored: it always points two bytes into `tcpbuf`
(`Query.qbuf`). `nodeQueriesToConn` names the list that holds the query's
`node_queries_to_conn`, if any; the query's entries in `all_queries` and
`queries_by_timeout` are its occurrences in those lists. -/
structure Query where
  qid : Nat
  timeout : Timeval
  conn : Option ConnId
  nodeQueriesToConn : Option ConnId
  tcpbuf : Bytes
  tcplen : Nat
  qlen : Nat
  tryCount : Nat
  server : Nat
  serverInfo : Nat → ServerInfo
  usingTcp : Bool
  errorStatus : Status
  timeouts : Nat
  noRetries : Bool

/-- `query->qbuf`, `query->qlen`: the request without its two-byte length prefix. -/
def Query.qbuf (q : Query) : Bytes := (q.tcpbuf.drop 2).take q.qlen

/-- `struct server_connection` without its query list (`Channel.connQueries`). -/
structure Conn where
  server : Nat
  fd : Nat
  isTcp : Bool
  totalQueries : Nat
  deriving DecidableEq, Repr

/-- `struct server_state`. The TCP parser buffer holds the received bytes not yet consumed;
the send buffer the bytes queued and not yet written. -/
structure Server where
  idx : Nat
  addr : AresAddr
  connections : List ConnId
  tcpConn : Option ConnId
  tcpParser : Bytes
  tcpSend : Bytes
  tcpConnectionGeneration : Nat
  deriving DecidableEq, Repr

/-! ## Channel -/

/-- The fields of `struct ares_channeldata` that the engine reads and never writes. -/
structure Config where
  nservers : Nat
  nservers_pos : 0 < nservers
  tries : Nat
  timeout : Nat
  rotate : Bool
  udpMaxQueries : Nat
  ednspsz : Nat

/-- Why `ares__send_query` was called: the submission, `next_server`, or one of the two
re-sends of `process_answer`. Ghost data: the code passes no such argument. -/
inductive Cause
  | initial | nextServer | tcpUpgrade | ednsFallback
  deriving DecidableEq, Repr

/-- A read of freed memory, or a failed `assert`. -/
inductive Fault
  /-- A query handle taken from an index after its query was freed. -/
  | queryAfterEnd (h : QueryId)
  /-- A connection handle used after the connection was closed. -/
  | connAfterClose (c : ConnId)
  /-- `process_timeouts` read `query->conn->fd` of a query whose `conn` is closed or unset. -/
  | staleQueryConn (h : QueryId)
  /-- `assert(query->server == server->idx)` of `handle_error` failed. -/
  | assertServer (h : QueryId)
  /-- `socket_list_append` called `ares_realloc` on the address of the caller's pointer. -/
  | socketListRealloc
  /-- The EDNS fallback's `ares_realloc` of query `h`'s `tcpbuf` returned `NULL`, which the
  code does not check: `tcpbuf` is `NULL` and `qbuf` points two bytes past it when
  `ares__send_query` reads the request. -/
  | tcpbufRealloc (h : QueryId)
  deriving DecidableEq, Repr

/-- What the engine did, recorded in `Channel.trace`. -/
inductive Event
  /-- A query was submitted with its first server. -/
  | submitted (h : QueryId) (server : Nat)
  /-- `ares__send_query` put the request on the wire (UDP write or TCP enqueue). -/
  | sent (h : QueryId) (server : Nat) (tryCount : Nat) (cause : Cause)
  /-- `query->callback(arg, status, timeouts, abuf, alen)`. -/
  | callback (h : QueryId) (status : Status) (timeouts : Nat) (answer : Option Bytes)
  /-- `SOCK_STATE_CALLBACK(channel, fd, readable, writable)`. -/
  | sockState (fd : Nat) (readable writable : Bool)
  /-- A request frame appended to a server's `tcp_send`. -/
  | tcpQueued (server : Nat) (bytes : Bytes)
  /-- Bytes of `tcp_send` written on a TCP connection. -/
  | tcpWritten (server : Nat) (c : ConnId) (bytes : Bytes)
  /-- Bytes received on a TCP connection and appended to `tcp_parser`. -/
  | tcpReceived (server : Nat) (c : ConnId) (bytes : Bytes)
  /-- A frame `read_tcp_data` took off `tcp_parser`, its two length bytes included (the
  tagged region). Ghost data: it marks the frame whose payload goes to `process_answer`. -/
  | tcpFramed (server : Nat) (c : ConnId) (bytes : Bytes)
  /-- `process_answer` was entered with this payload. -/
  | answered (c : ConnId) (payload : Bytes) (tcp : Bool)
  | fault (f : Fault)
  deriving DecidableEq, Repr

/-- The mutable state of a channel. `nextQuery` and `nextConn` are the next fresh handles. -/
structure Channel where
  flags : Flags
  servers : Nat → Server
  tcpConnectionGeneration : Nat
  lastServer : Nat
  allQueries : List QueryId
  queriesByQid : Nat → Option QueryId
  queriesByTimeout : List QueryId
  connnodeBySocket : Nat → Option ConnId
  queries : QueryId → Option Query
  conns : ConnId → Option Conn
  connQueries : ConnId → List QueryId
  nextQuery : QueryId
  nextConn : ConnId
  tick : Nat
  trace : List Event

/-! ## The outside world -/

/-- What `ares__socket_write` reports on a stream socket. -/
inductive WriteResult
  /-- It accepted this many bytes (`0` is a failure with a hard errno). -/
  | wrote (count : Nat)
  /-- `-1` with `EAGAIN` or `EWOULDBLOCK`. -/
  | again
  /-- `-1` with any other errno. -/
  | error
  deriving DecidableEq, Repr

/-- What `ares__socket_recv` reports on a stream socket. -/
inductive RecvResult
  /-- It read these bytes (an empty string is the peer closing, a return of `0`). -/
  | data (bytes : Bytes)
  | again
  | error
  deriving DecidableEq, Repr

/-- One `ares__socket_recvfrom` on a UDP socket: a datagram (possibly empty) and its source,
or `-1` with a transient (`again`) or a hard errno. -/
inductive UdpRead
  | datagram (src : SockAddr) (bytes : Bytes)
  | fail (again : Bool)
  deriving DecidableEq, Repr

/-- The collaborators of the engine. `parse` is `ares_dns_parse`; the other fields answer
the socket and allocation calls, indexed by `Channel.tick`, which every call advances.
`udpRecv` lists what successive `recvfrom` calls on a socket return; past its end they
report `EAGAIN`. -/
structure Env where
  parse : Bytes → Option DnsRecord
  openConnection : Nat → Status
  alloc : Nat → Bool
  udpWrite : Nat → Bool
  tcpWrite : Nat → WriteResult
  tcpRecv : Nat → RecvResult
  udpRecv : Nat → List UdpRead

end CAres
