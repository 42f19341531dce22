import CAres.Spec.Registry

/-! # `handle_error`

`handle_error` steals a connection's query list, closes the connection and sends every query
of the list to `next_server`. Over every reachable state it leaves the channel as
`Requeued` says (`handle_error_requeues`): the connection is in no index, each stolen query
has ended or is live with a deadline and on at most one list, that of another open
connection, and every other query is as it was, in every index. A requeued query can be on no
list at all: `ares__send_query` ends the query when the skiplist insertion of its deadline
fails, but ignores a failed `ares__llist_insert_last`, so the query stays live, with
`query->conn` naming the new connection, on no list (`requeued_query_off_lists`).

The server's TCP generation moves only when a TCP connection is opened, so right after
`handle_error` closes a server's TCP connection a requeued query still holds the server's
current generation, and `next_server` declines the server as if the retry would reuse the
closed socket. With one server the query then ends without being sent again
(`tcp_requeue_declined`). -/

namespace CAres

variable {cfg : Config} {env : Env} {ch ch' : Channel} {c : ConnId}

/-- A world where a UDP read reports an error and the allocation at call 9, the list node of
the query that `handle_error` sends again, fails. -/
def listFailEnv : Env where
  parse _ := none
  openConnection _ := .success
  alloc t := t != 9
  udpWrite _ := true
  tcpWrite _ := .again
  tcpRecv _ := .again
  udpRecv _ := [.fail false]

/-- A request with id 7 sent over UDP connection 0. -/
def listSent : Channel :=
  aresSend loopCfg listFailEnv (Channel.init loopCfg {} fun _ => loopAddr) 7
    (List.replicate 12 0) ⟨0, 0⟩

theorem listSent_reachable : Reachable loopCfg listFailEnv listSent :=
  .send _ _ _ (.init _ _) (by decide) rfl

/-- `handle_error` on connection 0 sends query 0 again over a new UDP connection, but the list
node fails to allocate: the query was on connection 0's list, is live with `query->conn` the
open connection 1, and is on no list. -/
theorem requeued_query_off_lists :
    Reachable loopCfg listFailEnv listSent ∧ listSent.connQueries 0 = [0] ∧
      ((handleError loopCfg listFailEnv listSent 0 ⟨0, 0⟩).queries 0).map Query.conn =
        some (some 1) ∧ ((handleError loopCfg listFailEnv listSent 0 ⟨0, 0⟩).conns 1).isSome ∧
      ∀ c, 0 ∉ (handleError loopCfg listFailEnv listSent 0 ⟨0, 0⟩).connQueries c := by
  obtain ⟨conn, hc⟩ : ∃ conn, listSent.conns 0 = some conn :=
    Option.isSome_iff_exists.mp (by decide)
  have hi := (@handleError_drains _ listFailEnv _ listSent_reachable.inv _ _ hc ⟨0, 0⟩).1
  have hn : ((handleError loopCfg listFailEnv listSent 0 ⟨0, 0⟩).queries 0).map
      Query.nodeQueriesToConn = some none := by decide
  refine ⟨listSent_reachable, by decide, by decide, by decide, fun c hm => ?_⟩
  obtain ⟨q, hq, hnode⟩ := hi.wf.mem_list.mp hm
  rw [hq] at hn
  simp [hnode] at hn

/-- A world where every TCP write fails and nothing else goes wrong. -/
def tcpErrEnv : Env where
  parse _ := none
  openConnection _ := .success
  alloc _ := true
  udpWrite _ := true
  tcpWrite _ := .error
  tcpRecv _ := .again
  udpRecv _ := []

/-- A request with id 7 on a channel with `USEVC` set: it is queued on a new TCP connection. -/
def vcSent : Channel :=
  aresSend loopCfg tcpErrEnv (Channel.init loopCfg { usevc := true } fun _ => loopAddr) 7
    (List.replicate 12 0) ⟨0, 0⟩

/-- The TCP socket reported writable: the write fails and `handle_error` runs. -/
def vcDropped : Channel := processfds loopCfg tcpErrEnv vcSent none none (some [0]) none ⟨0, 0⟩

/-- With one server and three tries, a TCP query whose connection fails on its first write
ends with `ARES_ECONNREFUSED` after one send, though `try_count + 1 < tries`. -/
theorem tcp_requeue_declined :
    Reachable loopCfg tcpErrEnv vcDropped ∧
      (vcSent.queries 0).map (fun q => (q.usingTcp, q.tryCount)) = some (true, 0) ∧
      0 + 1 < loopCfg.tries ∧ Event.callback 0 .econnrefused 0 none ∈ vcDropped.trace ∧
      vcDropped.trace.countP (fun e => e matches .sent 0 _ _ _) = 1 :=
  ⟨.process _ _ _ _ _ (.send _ _ _ (.init _ _) (by decide) rfl), by decide, by decide, by decide,
    by decide⟩

end CAres
