import CAres.Engine.Types

/-! # The query registry and the connection table

The primitive updates of the channel that the dispatcher is built from:

* `Channel.detachQuery`, `Channel.freeQuery` and `Channel.endQuery` are
  `ares_detach_query`, `ares__free_query` and `end_query` of `ares_process.c`;
* `Channel.openConnection`, `Channel.closeConnection` and `Channel.checkCleanupConn` stand
  for `ares__open_connection`, `ares__close_connection` and `ares__check_cleanup_conn`,
  which are not in the sources and are modelled from the spec;
* `insertByTimeout` is the insertion into the `queries_by_timeout` skiplist.

The updates are tagged `@[simps]`, which gives one `@[simp]` lemma per field saying what the
update does to it, so that later proofs never unfold them. -/

namespace CAres

open Function

/-- `ares__llist_node_destroy(query->node_queries_to_conn)`: remove the query from the list
its connection node is in, if it has one. -/
def connListErase (lists : ConnId → List QueryId) (node : Option ConnId) (h : QueryId) :
    ConnId → List QueryId :=
  match node with
  | none => lists
  | some c => update lists c ((lists c).erase h)

@[simp] theorem connListErase_none (lists : ConnId → List QueryId) (h : QueryId) :
    connListErase lists none h = lists := rfl

theorem connListErase_apply (lists : ConnId → List QueryId) (node : Option ConnId)
    (h : QueryId) (c : ConnId) :
    connListErase lists node h c = if node = some c then (lists c).erase h else lists c := by
  cases node with
  | none => simp
  | some c' =>
    by_cases hc : c = c'
    · subst hc; simp [connListErase]
    · simp [connListErase, update_noteq hc, Ne.symm hc]

/-- `ares_query_timeout_cmp_cb` on the two deadlines. -/
def timeoutCmp (a b : Timeval) : Int :=
  if a.sec > b.sec then 1
  else if a.sec < b.sec then -1
  else if a.usec > b.usec then 1
  else if a.usec < b.usec then -1
  else 0

/-- Modelled from the spec: `ares__slist_insert` is not in the sources. The spec orders
`queries_by_deadline` by `(sec, usec)` with the earliest deadline at the head; the new entry
goes before the first entry it does not compare greater than. -/
def insertByTimeout (queries : QueryId → Option Query) (h : QueryId) (t : Timeval) :
    List QueryId → List QueryId
  | [] => [h]
  | h' :: rest =>
    match queries h' with
    | some q' => if timeoutCmp t q'.timeout > 0 then h' :: insertByTimeout queries h t rest
                 else h :: h' :: rest
    | none => h' :: insertByTimeout queries h t rest

theorem mem_insertByTimeout (queries : QueryId → Option Query) (h : QueryId) (t : Timeval)
    (l : List QueryId) (x : QueryId) : x ∈ insertByTimeout queries h t l ↔ x = h ∨ x ∈ l := by
  induction l with
  | nil => simp [insertByTimeout]
  | cons h' rest ih =>
    simp only [insertByTimeout]
    split
    · split <;> simp [ih, or_left_comm]
    · simp [ih, or_left_comm]

theorem insertByTimeout_perm (queries : QueryId → Option Query) (h : QueryId) (t : Timeval)
    (l : List QueryId) : (insertByTimeout queries h t l).Perm (h :: l) := by
  induction l with
  | nil => simp [insertByTimeout]
  | cons h' rest ih =>
    simp only [insertByTimeout]
    split
    · split
      · exact (ih.cons h').trans (List.Perm.swap h h' rest)
      · exact .refl _
    · exact (ih.cons h').trans (List.Perm.swap h h' rest)

namespace Channel

variable (ch : Channel)

/-- Record an event. -/
@[simps]
def emit (e : Event) : Channel := { ch with trace := e :: ch.trace }

/-- One call of the outside world has been made. -/
@[simps]
def advance : Channel := { ch with tick := ch.tick + 1 }

/-- Store the query record `q` under `h`. -/
@[simps]
def setQuery (h : QueryId) (q : Query) : Channel :=
  { ch with queries := update ch.queries h (some q) }

/-- Apply `f` to server `i`. -/
@[simps]
def updateServer (i : Nat) (f : Server → Server) : Channel :=
  { ch with servers := update ch.servers i (f (ch.servers i)) }

/-- `conn->fd`. A closed connection's memory still holds its socket, which the model
numbers by the handle. -/
def connFd (c : ConnId) : Nat :=
  match ch.conns c with
  | some conn => conn.fd
  | none => c

/-- `ares_detach_query`: remove the query from `queries_by_qid` and from the three lists
it is linked in. -/
@[simps]
def detachQuery (h : QueryId) (q : Query) : Channel :=
  { ch with
    queriesByQid := update ch.queriesByQid q.qid none
    queriesByTimeout := ch.queriesByTimeout.erase h
    connQueries := connListErase ch.connQueries q.nodeQueriesToConn h
    allQueries := ch.allQueries.erase h }

/-- `ares__free_query`. It detaches the query again, but `ares_detach_query` has already set
every node pointer to `NULL`, so only the id is removed a second time; then the query is
freed. -/
@[simps]
def freeQuery (h : QueryId) (q : Query) : Channel :=
  { ch with
    queriesByQid := update ch.queriesByQid q.qid none
    queries := update ch.queries h none }

/-- `end_query`: detach, invoke the callback once, free. -/
def endQuery (h : QueryId) (q : Query) (status : Status) (answer : Option Bytes) : Channel :=
  ((ch.detachQuery h q).emit (.callback h status q.timeouts answer)).freeQuery h q

/-- What `end_query` does, field by field. -/
theorem endQuery_eq (h : QueryId) (q : Query) (status : Status) (answer : Option Bytes) :
    ch.endQuery h q status answer =
      { ch with
        queriesByQid := update ch.queriesByQid q.qid none
        queriesByTimeout := ch.queriesByTimeout.erase h
        connQueries := connListErase ch.connQueries q.nodeQueriesToConn h
        allQueries := ch.allQueries.erase h
        queries := update ch.queries h none
        trace := .callback h status q.timeouts answer :: ch.trace } := by
  simp only [endQuery, freeQuery, emit, detachQuery, update_idem]

/-- Modelled from the spec: the connection a successful `ares__open_connection` adds (the
function is not in the sources). A new connection has an empty query list and a socket
registered in `connnode_by_socket`; a UDP connection goes to the front of the server's list
(the spec picks reusable UDP connections from the front), a TCP connection to the back,
where it becomes `tcp_conn`. Every TCP open is a new incarnation: the channel's generation
counter is incremented and copied to the server. -/
def addConnection (i : Nat) (isTcp : Bool) : Channel :=
  let c := ch.nextConn
  let gen := if isTcp then ch.tcpConnectionGeneration + 1 else ch.tcpConnectionGeneration
  let s := ch.servers i
  { ch with
    servers := update ch.servers i
      { s with
        connections := if isTcp then s.connections ++ [c] else c :: s.connections
        tcpConn := if isTcp then some c else s.tcpConn
        tcpConnectionGeneration := if isTcp then gen else s.tcpConnectionGeneration }
    conns := update ch.conns c (some { server := i, fd := c, isTcp, totalQueries := 0 })
    connQueries := update ch.connQueries c []
    connnodeBySocket := update ch.connnodeBySocket c (some c)
    nextConn := c + 1
    tcpConnectionGeneration := gen
    tick := ch.tick + 1
    trace := .sockState c true false :: ch.trace }

/-- Modelled from the spec: `ares__open_connection`. The outside world decides whether the
socket can be opened. -/
def openConnection (env : Env) (i : Nat) (isTcp : Bool) : Status × Channel :=
  let st := env.openConnection ch.tick
  if st = .success then (.success, ch.addConnection i isTcp) else (st, ch.advance)

/-- Modelled from the spec: `ares__close_connection` is not in the sources. It unregisters
the socket, removes the connection from its server (and from `tcp_conn`), and frees it.
Its query list is not touched: callers close a connection only once its list is empty or
stolen. The server's TCP buffers belong to the server and are not touched either. -/
def closeConnection (c : ConnId) (conn : Conn) : Channel :=
  let s := ch.servers conn.server
  { ch with
    servers := update ch.servers conn.server
      { s with
        connections := s.connections.erase c
        tcpConn := if conn.isTcp then none else s.tcpConn }
    connnodeBySocket := update ch.connnodeBySocket conn.fd none
    conns := update ch.conns c none
    trace := .sockState conn.fd false false :: ch.trace }

/-- Modelled from the spec: `ares__check_cleanup_conn` is not in the sources. The spec closes
a UDP socket once its query list is empty and it has reached `udp_max_queries` (an error
closes it through `handle_error`), and closes a TCP socket only on an I/O error. -/
def checkCleanupConn (cfg : Config) (fd : Nat) : Channel :=
  match ch.connnodeBySocket fd with
  | none => ch
  | some c =>
    match ch.conns c with
    | none => ch
    | some conn =>
      if ch.connQueries c = [] ∧ conn.isTcp = false ∧ 0 < cfg.udpMaxQueries ∧
          cfg.udpMaxQueries ≤ conn.totalQueries then ch.closeConnection c conn
      else ch

end Channel

end CAres
