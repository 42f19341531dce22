import CAres.Engine.Events
import Mathlib.Data.List.Nodup

/-! # The registry invariant

`Wf cfg ch` is the well-formedness of the channel's indexes (section 3 of the spec) at every
call boundary of the engine: each index holds exactly the live queries it should, each query
is on the list its node names, the id table is a bijection onto the live queries, and the
connection table, the servers' lists and the socket table agree. It also carries what the
trace says of callbacks: at most one per query, and only once the query has ended. `Wf` holds
inside operations too, because the query being dispatched is held by value
(`CAres.Engine.Dispatch`).

This file proves that the primitive updates of `CAres.Engine.Registry` keep `Wf`. -/

namespace CAres

open Function

/-- The query an event reports a callback for. -/
def Event.callbackOf : Event → Option QueryId
  | .callback h _ _ _ => some h
  | _ => none

/-- The registry invariant. -/
structure Wf (cfg : Config) (ch : Channel) : Prop where
  servers_idx : ∀ i, (ch.servers i).idx = i
  last_server : ch.lastServer < cfg.nservers
  conn_lt : ∀ {c conn}, ch.conns c = some conn → conn.server < cfg.nservers ∧ conn.fd = c
  mem_connections : ∀ {i c},
    c ∈ (ch.servers i).connections ↔ ∃ conn, ch.conns c = some conn ∧ conn.server = i
  connections_nodup : ∀ i, (ch.servers i).connections.Nodup
  tcp_conn : ∀ {i c}, (ch.servers i).tcpConn = some c →
    ∃ conn, ch.conns c = some conn ∧ conn.server = i ∧ conn.isTcp = true
  socket : ∀ {fd c}, ch.connnodeBySocket fd = some c ↔ fd = c ∧ (ch.conns c).isSome
  conn_fresh : ∀ {c}, ch.nextConn ≤ c → ch.conns c = none ∧ ch.connQueries c = []
  udp_quota : ∀ {c conn}, ch.conns c = some conn → conn.isTcp = false →
    0 < cfg.udpMaxQueries → conn.totalQueries ≤ cfg.udpMaxQueries
  all_nodup : ch.allQueries.Nodup
  mem_all : ∀ {h}, h ∈ ch.allQueries ↔ (ch.queries h).isSome
  slist_nodup : ch.queriesByTimeout.Nodup
  slist_live : ∀ {h}, h ∈ ch.queriesByTimeout → (ch.queries h).isSome
  qid : ∀ {id h}, ch.queriesByQid id = some h ↔ ∃ q, ch.queries h = some q ∧ q.qid = id
  list_nodup : ∀ c, (ch.connQueries c).Nodup
  mem_list : ∀ {c h},
    h ∈ ch.connQueries c ↔ ∃ q, ch.queries h = some q ∧ q.nodeQueriesToConn = some c
  node_conn : ∀ {h q c}, ch.queries h = some q → q.nodeQueriesToConn = some c → q.conn = some c
  node_server : ∀ {h q c conn}, ch.queries h = some q → q.nodeQueriesToConn = some c →
    ch.conns c = some conn → q.server = conn.server
  query_server : ∀ {h q}, ch.queries h = some q → q.server < cfg.nservers
  query_status : ∀ {h q}, ch.queries h = some q → q.errorStatus ≠ .success
  query_fresh : ∀ {h}, ch.nextQuery ≤ h → ch.queries h = none
  callback_ended : ∀ {h st t a}, Event.callback h st t a ∈ ch.trace →
    ch.queries h = none ∧ h < ch.nextQuery
  callback_once : (ch.trace.filterMap Event.callbackOf).Nodup
  callback_status : ∀ {h st t a}, Event.callback h st t a ∈ ch.trace →
    (st = .success ∧ a.isSome) ∨ (st ≠ .success ∧ a = none)
  no_query_fault : ∀ {h}, Event.fault (.queryAfterEnd h) ∉ ch.trace

/-- An event that is neither a callback nor a read of a freed query. -/
def Event.Benign (e : Event) : Prop := e.callbackOf = none ∧ ∀ h, e ≠ .fault (.queryAfterEnd h)

namespace Wf

variable {cfg : Config} {ch : Channel}

theorem live_of_mem_list (hw : Wf cfg ch) {c h} (hm : h ∈ ch.connQueries c) :
    (ch.queries h).isSome := by
  obtain ⟨q, hq, -⟩ := hw.mem_list.mp hm
  simp [hq]

theorem connFd_eq (hw : Wf cfg ch) (c : ConnId) : ch.connFd c = c := by
  unfold Channel.connFd
  split
  · exact (hw.conn_lt ‹_›).2
  · rfl

theorem lt_nextConn (hw : Wf cfg ch) {c conn} (hc : ch.conns c = some conn) : c < ch.nextConn := by
  by_contra hlt
  simp [(hw.conn_fresh (Nat.le_of_not_lt hlt)).1] at hc

theorem lt_nextQuery (hw : Wf cfg ch) {h q} (hq : ch.queries h = some q) : h < ch.nextQuery := by
  by_contra hlt
  simp [hw.query_fresh (Nat.le_of_not_lt hlt)] at hq

/-- A fresh handle is not the handle of a live query. -/
theorem ne_of_fresh (hw : Wf cfg ch) {h h' q} (hq : ch.queries h = some q)
    (hle : ch.nextQuery ≤ h') : h' ≠ h := by
  rintro rfl
  exact absurd hle (Nat.not_le.mpr (hw.lt_nextQuery hq))

/-- A query is on at most one connection list: the one its node names. -/
theorem list_unique (hw : Wf cfg ch) {c c' h} (hm : h ∈ ch.connQueries c)
    (hm' : h ∈ ch.connQueries c') : c = c' := by
  obtain ⟨q, hq, hn⟩ := hw.mem_list.mp hm
  obtain ⟨q', hq', hn'⟩ := hw.mem_list.mp hm'
  rw [hq] at hq'
  cases hq'
  exact Option.some.inj (hn.symm.trans hn')

/-- `Wf` is blind to events other than callbacks and reads of freed queries. -/
theorem emit (hw : Wf cfg ch) {e : Event} (he : e.Benign) : Wf cfg (ch.emit e) :=
  { hw with
  callback_ended := by
    intro h st t a hm
    rcases List.mem_cons.mp hm with rfl | hm
    · simp [Event.Benign, Event.callbackOf] at he
    · exact hw.callback_ended hm
  callback_once := by simpa [List.filterMap_cons, he.1] using hw.callback_once
  callback_status := by
    intro h st t a hm
    rcases List.mem_cons.mp hm with rfl | hm
    · simp [Event.Benign, Event.callbackOf] at he
    · exact hw.callback_status hm
  no_query_fault := by
    intro h hm
    rcases List.mem_cons.mp hm with heq | hm
    · exact he.2 h heq.symm
    · exact hw.no_query_fault hm }

theorem advance (hw : Wf cfg ch) : Wf cfg ch.advance := { hw with }

theorem benign_sockState {fd : Nat} {r w : Bool} : (Event.sockState fd r w).Benign := by
  simp [Event.Benign, Event.callbackOf]

theorem benign_sent {h s t : Nat} {cause : Cause} : (Event.sent h s t cause).Benign := by
  simp [Event.Benign, Event.callbackOf]

/-- Updating a server's buffers or generation keeps `Wf`. -/
theorem updateServer (hw : Wf cfg ch) {i : Nat} {f : Server → Server}
    (hidx : (f (ch.servers i)).idx = (ch.servers i).idx)
    (hconns : (f (ch.servers i)).connections = (ch.servers i).connections)
    (htcp : (f (ch.servers i)).tcpConn = (ch.servers i).tcpConn) :
    Wf cfg (ch.updateServer i f) :=
  { hw with
  servers_idx := fun j => by
    by_cases hj : j = i
    · subst hj; simp [hidx, hw.servers_idx]
    · simp [update_noteq hj, hw.servers_idx]
  mem_connections := fun {j c} => by
    by_cases hj : j = i
    · subst hj; simp [hconns, hw.mem_connections]
    · simp [update_noteq hj, hw.mem_connections]
  connections_nodup := fun j => by
    by_cases hj : j = i
    · subst hj; simp [hconns, hw.connections_nodup]
    · simp [update_noteq hj, hw.connections_nodup]
  tcp_conn := fun {j c} => by
    by_cases hj : j = i
    · subst hj; simpa [htcp] using @hw.tcp_conn j c
    · simpa [update_noteq hj] using @hw.tcp_conn j c }

end Wf

/-! ## Queries held by an operation -/

/-- The query `q` held by value under handle `h`: the registry still holds a record of it
with the same id and list node, and `q` has a valid server and a failure status. -/
structure Held (cfg : Config) (ch : Channel) (h : QueryId) (q : Query) : Prop where
  stored : ∃ q₀, ch.queries h = some q₀ ∧ q₀.qid = q.qid ∧
    q₀.nodeQueriesToConn = q.nodeQueriesToConn
  server_lt : q.server < cfg.nservers
  status : q.errorStatus ≠ .success

namespace Wf

variable {cfg : Config} {ch : Channel} {h : QueryId} {q : Query}

theorem mem_connListErase (hw : Wf cfg ch) {node : Option ConnId} {c h' : QueryId} :
    h' ∈ connListErase ch.connQueries node h c ↔
      h' ∈ ch.connQueries c ∧ (node = some c → h' ≠ h) := by
  rw [connListErase_apply]
  split
  · simp_all [(hw.list_nodup c).mem_erase_iff, and_comm]
  · simp_all

theorem nodup_connListErase (hw : Wf cfg ch) (node : Option ConnId) (c : ConnId) :
    (connListErase ch.connQueries node h c).Nodup := by
  rw [connListErase_apply]
  split
  · exact (hw.list_nodup c).erase h
  · exact hw.list_nodup c

/-- Removing the held query from the list its node names removes it from every list. -/
theorem not_mem_connListErase (hw : Wf cfg ch) (hh : Held cfg ch h q) (c : ConnId) :
    h ∉ connListErase ch.connQueries q.nodeQueriesToConn h c := by
  obtain ⟨q₀, hq₀, -, hn⟩ := hh.stored
  rw [hw.mem_connListErase]
  rintro ⟨hm, hne⟩
  obtain ⟨q', hq', hn'⟩ := hw.mem_list.mp hm
  rw [hq₀] at hq'
  cases hq'
  exact hne (hn ▸ hn') rfl

theorem update_none_eq_some {α : Type} {f : Nat → Option α} {c c' : Nat} {a : α}
    (hc : update f c none c' = some a) : c' ≠ c ∧ f c' = some a := by
  by_cases e : c' = c
  · subst e; simp at hc
  · rw [update_noteq e] at hc; exact ⟨e, hc⟩

theorem update_some_eq_some {α : Type} {f : Nat → Option α} {c c' : Nat} {a a' : α} :
    update f c (some a) c' = some a' ↔ (c' = c ∧ a' = a) ∨ (c' ≠ c ∧ f c' = some a') := by
  by_cases e : c' = c
  · subst e; simp [eq_comm]
  · simp [update_noteq e, e]

/-! ### Writing back a stored query

Writing any record back over a handle that holds one leaves the same handles live, and what
holds of the new record and of every stored one holds of every record after. -/

theorem isSome_update_some {f : QueryId → Option Query} {h h' : QueryId} {q₀ q : Query}
    (hq₀ : f h = some q₀) : (update f h (some q) h').isSome = (f h').isSome := by
  by_cases e : h' = h <;> simp [update_apply, e, hq₀]

theorem forall_update_some {P : Query → Prop} {f : QueryId → Option Query} (hq : P q)
    (hall : ∀ {h' q'}, f h' = some q' → P q') {h' : QueryId} {q' : Query}
    (hq' : update f h (some q) h' = some q') : P q' := by
  rcases update_some_eq_some.mp hq' with ⟨-, rfl⟩ | ⟨-, hq'⟩
  exacts [hq, hall hq']

/-- `queries_by_qid` still indexes a record written back with the stored record's id. -/
theorem qid_update_some (hw : Wf cfg ch) {q₀ : Query} (hq₀ : ch.queries h = some q₀)
    (hqid : q₀.qid = q.qid) {id h' : Nat} :
    ch.queriesByQid id = some h' ↔
      ∃ q', update ch.queries h (some q) h' = some q' ∧ q'.qid = id := by
  simp only [hw.qid, update_some_eq_some]
  constructor
  · rintro ⟨q', hq', rfl⟩
    by_cases e : h' = h
    · subst e; rw [hq₀] at hq'; cases hq'; exact ⟨q, .inl ⟨rfl, rfl⟩, hqid.symm⟩
    · exact ⟨q', .inr ⟨e, hq'⟩, rfl⟩
  · rintro ⟨q', ⟨rfl, rfl⟩ | ⟨-, hq'⟩, rfl⟩
    · exact ⟨q₀, hq₀, hqid⟩
    · exact ⟨q', hq', rfl⟩

theorem query_fresh_update_some (hw : Wf cfg ch) {q₀ : Query} (hq₀ : ch.queries h = some q₀)
    {h' : QueryId} (hle : ch.nextQuery ≤ h') : update ch.queries h (some q) h' = none := by
  rw [update_noteq (hw.ne_of_fresh hq₀ hle)]; exact hw.query_fresh hle

theorem callback_ended_update_some (hw : Wf cfg ch) {q₀ : Query} (hq₀ : ch.queries h = some q₀)
    {h' st t a} (hm : Event.callback h' st t a ∈ ch.trace) :
    update ch.queries h (some q) h' = none ∧ h' < ch.nextQuery := by
  obtain ⟨hnone, hlt⟩ := hw.callback_ended hm
  have e : h' ≠ h := by rintro rfl; simp [hq₀] at hnone
  exact ⟨by rw [update_noteq e]; exact hnone, hlt⟩

/-- `end_query` keeps the invariant, provided the status and the answer agree. -/
theorem endQuery (hw : Wf cfg ch) (hh : Held cfg ch h q) {st : Status} {a : Option Bytes}
    (hst : (st = .success ∧ a.isSome) ∨ (st ≠ .success ∧ a = none)) :
    Wf cfg (ch.endQuery h q st a) := by
  rw [Channel.endQuery_eq]
  obtain ⟨q₀, hq₀, hqid, hnode⟩ := hh.stored
  have hlive : ∀ {h'}, (update ch.queries h none h').isSome ↔
      h' ≠ h ∧ (ch.queries h').isSome := by
    intro h'
    by_cases e : h' = h
    · subst e; simp
    · simp [update_noteq e, e]
  refine
    { servers_idx := hw.servers_idx, last_server := hw.last_server, conn_lt := hw.conn_lt,
      mem_connections := hw.mem_connections, connections_nodup := hw.connections_nodup,
      tcp_conn := hw.tcp_conn, socket := hw.socket, udp_quota := hw.udp_quota,
      conn_fresh := fun hc => ⟨(hw.conn_fresh hc).1, ?_⟩,
      all_nodup := hw.all_nodup.erase h,
      mem_all := ?_, slist_nodup := hw.slist_nodup.erase h, slist_live := ?_, qid := ?_,
      list_nodup := hw.nodup_connListErase _, mem_list := ?_,
      node_conn := fun hq hn => hw.node_conn (update_none_eq_some hq).2 hn,
      node_server := fun hq hn hc => hw.node_server (update_none_eq_some hq).2 hn hc,
      query_server := fun hq => hw.query_server (update_none_eq_some hq).2,
      query_status := fun hq => hw.query_status (update_none_eq_some hq).2,
      query_fresh := ?_, callback_ended := ?_, callback_once := ?_, callback_status := ?_,
      no_query_fault := ?_ } <;> dsimp only
  · rw [connListErase_apply, (hw.conn_fresh hc).2]; simp
  · intro h'; rw [hw.all_nodup.mem_erase_iff, hlive, hw.mem_all]
  · intro h' hm
    rw [hw.slist_nodup.mem_erase_iff] at hm
    exact hlive.mpr ⟨hm.1, hw.slist_live hm.2⟩
  · intro id h'
    by_cases hid : id = q.qid
    · subst hid
      simp only [update_same, reduceCtorEq, false_iff, not_exists, not_and]
      intro q' hq' hq'id
      obtain ⟨e, hq'⟩ := update_none_eq_some hq'
      exact e (Option.some.inj ((hw.qid.mpr ⟨q', hq', hq'id⟩).symm.trans
        (hw.qid.mpr ⟨q₀, hq₀, hqid⟩)))
    · rw [update_noteq hid, hw.qid]
      constructor
      · rintro ⟨q', hq', rfl⟩
        have e : h' ≠ h := by rintro rfl; rw [hq₀] at hq'; cases hq'; exact hid hqid
        exact ⟨q', by rw [update_noteq e]; exact hq', rfl⟩
      · rintro ⟨q', hq', rfl⟩
        exact ⟨q', (update_none_eq_some hq').2, rfl⟩
  · intro c h'
    rw [hw.mem_connListErase, hw.mem_list]
    by_cases e : h' = h
    · subst e; simp [hq₀, ← hnode]
    · simp [update_noteq e, e]
  · intro h' hle
    by_cases e : h' = h
    · subst e; simp
    · rw [update_noteq e]; exact hw.query_fresh hle
  · intro h' st' t a' hm
    rcases List.mem_cons.mp hm with heq | hm
    · cases heq; exact ⟨by simp, hw.lt_nextQuery hq₀⟩
    · obtain ⟨hnone, hlt⟩ := hw.callback_ended hm
      by_cases e : h' = h
      · subst e; simp [hlt]
      · exact ⟨by rw [update_noteq e]; exact hnone, hlt⟩
  · rw [List.filterMap_cons]
    refine List.nodup_cons.mpr ⟨?_, hw.callback_once⟩
    intro hmem
    obtain ⟨e, he, hce⟩ := List.mem_filterMap.mp hmem
    cases e <;> simp only [Event.callbackOf, reduceCtorEq, Option.some.injEq] at hce
    subst hce
    simp [(hw.callback_ended he).1] at hq₀
  · intro h' st' t a' hm
    rcases List.mem_cons.mp hm with heq | hm
    · cases heq; exact hst
    · exact hw.callback_status hm
  · intro h' hm
    rcases List.mem_cons.mp hm with heq | hm
    · cases heq
    · exact hw.no_query_fault hm

theorem lt_of_held (hw : Wf cfg ch) (hh : Held cfg ch h q) : h < ch.nextQuery := by
  obtain ⟨q₀, hq₀, -⟩ := hh.stored
  exact hw.lt_nextQuery hq₀

/-- Writing back a held query, with its node and `conn` consistent with its list. -/
theorem setQuery (hw : Wf cfg ch) (hh : Held cfg ch h q)
    (hconn : ∀ {c}, q.nodeQueriesToConn = some c → q.conn = some c)
    (hsrv : ∀ {c conn}, q.nodeQueriesToConn = some c → ch.conns c = some conn →
      q.server = conn.server) :
    Wf cfg (ch.setQuery h q) := by
  obtain ⟨q₀, hq₀, hqid, hnode⟩ := hh.stored
  unfold Channel.setQuery
  refine
    { hw with
      mem_all := by intro h'; simp only [isSome_update_some hq₀, hw.mem_all]
      slist_live := fun hm => by simpa [isSome_update_some hq₀] using hw.slist_live hm
      qid := hw.qid_update_some hq₀ hqid, mem_list := ?_, node_conn := ?_, node_server := ?_,
      query_server := forall_update_some hh.server_lt hw.query_server,
      query_status := forall_update_some hh.status hw.query_status,
      query_fresh := hw.query_fresh_update_some hq₀,
      callback_ended := hw.callback_ended_update_some hq₀ } <;> dsimp only
  · intro c h'
    rw [hw.mem_list]
    simp only [update_some_eq_some]
    constructor
    · rintro ⟨q', hq', hn⟩
      by_cases e : h' = h
      · subst e; rw [hq₀] at hq'; cases hq'; exact ⟨q, .inl ⟨rfl, rfl⟩, hnode ▸ hn⟩
      · exact ⟨q', .inr ⟨e, hq'⟩, hn⟩
    · rintro ⟨q', ⟨rfl, rfl⟩ | ⟨-, hq'⟩, hn⟩
      · exact ⟨q₀, hq₀, hnode.trans hn⟩
      · exact ⟨q', hq', hn⟩
  · intro h' q' c hq' hn
    rcases update_some_eq_some.mp hq' with ⟨rfl, rfl⟩ | ⟨-, hq'⟩
    · exact hconn hn
    · exact hw.node_conn hq' hn
  · intro h' q' c conn hq' hn hc
    rcases update_some_eq_some.mp hq' with ⟨rfl, rfl⟩ | ⟨-, hq'⟩
    · exact hsrv hn hc
    · exact hw.node_server hq' hn hc

/-- Taking a live query off its connection's list, as `process_answer` does before it
branches, and writing it back with a `NULL` node. -/
theorem detachConn (hw : Wf cfg ch) {q : Query} (hq : ch.queries h = some q) :
    Wf cfg ({ ch with connQueries := connListErase ch.connQueries q.nodeQueriesToConn h }.setQuery
      h { q with nodeQueriesToConn := none }) := by
  unfold Channel.setQuery
  dsimp only
  refine
    { hw with
      mem_all := by intro h'; simp only [isSome_update_some hq, hw.mem_all]
      slist_live := fun hm => by simpa [isSome_update_some hq] using hw.slist_live hm
      conn_fresh := fun hc => ⟨(hw.conn_fresh hc).1, ?_⟩
      qid := hw.qid_update_some hq (by rfl), list_nodup := hw.nodup_connListErase _, mem_list := ?_,
      node_conn := ?_, node_server := ?_,
      query_server := forall_update_some (hw.query_server hq) hw.query_server,
      query_status := forall_update_some (hw.query_status hq) hw.query_status,
      query_fresh := hw.query_fresh_update_some hq,
      callback_ended := hw.callback_ended_update_some hq } <;> dsimp only
  · rw [connListErase_apply, (hw.conn_fresh hc).2]; simp
  · intro c h'
    rw [hw.mem_connListErase, hw.mem_list]
    by_cases e : h' = h
    · subst e; simp [hq]
    · simp [e, update_noteq e]
  · intro h' q' c hq' hn
    rcases update_some_eq_some.mp hq' with ⟨rfl, rfl⟩ | ⟨-, hq'⟩
    · cases hn
    · exact hw.node_conn hq' hn
  · intro h' q' c conn hq' hn hc
    rcases update_some_eq_some.mp hq' with ⟨rfl, rfl⟩ | ⟨-, hq'⟩
    · cases hn
    · exact hw.node_server hq' hn hc

/-! ## Opening and closing connections -/

variable {env : Env} {i : Nat} {tcp : Bool}

theorem fresh_conns (hw : Wf cfg ch) : ch.conns ch.nextConn = none :=
  (hw.conn_fresh (Nat.le_refl _)).1

/-- The list of a fresh connection is already empty. -/
theorem update_connQueries_fresh (hw : Wf cfg ch) :
    update ch.connQueries ch.nextConn [] = ch.connQueries := by
  rw [← (hw.conn_fresh (Nat.le_refl _)).2, update_eq_self]

theorem not_mem_connections_fresh (hw : Wf cfg ch) (j : Nat) :
    ch.nextConn ∉ (ch.servers j).connections := by
  simp [hw.mem_connections, hw.fresh_conns]

theorem ne_fresh (hw : Wf cfg ch) {c conn} (hc : ch.conns c = some conn) : c ≠ ch.nextConn :=
  Nat.ne_of_lt (hw.lt_nextConn hc)

/-- A successful `ares__open_connection` keeps the invariant: the new connection is fresh,
registered, on its server's list, and has an empty query list. -/
theorem addConnection (hw : Wf cfg ch) (hi : i < cfg.nservers) :
    Wf cfg (ch.addConnection i tcp) := by
  unfold Channel.addConnection
  dsimp only
  rw [hw.update_connQueries_fresh]
  have hne : ∀ {c conn}, ch.conns c = some conn → c ≠ ch.nextConn := hw.ne_fresh
  have hw' := hw.emit (e := .sockState ch.nextConn true false) benign_sockState
  refine
    { hw' with
      servers_idx := fun j => ?_, conn_lt := ?_, mem_connections := ?_,
      connections_nodup := fun j => ?_, tcp_conn := ?_, socket := ?_, conn_fresh := ?_,
      udp_quota := ?_, node_server := ?_ } <;> dsimp only
  · by_cases hj : j = i
    · subst hj; simp [hw.servers_idx]
    · simp [update_noteq hj, hw.servers_idx]
  · intro c conn hc
    rcases update_some_eq_some.mp hc with ⟨rfl, rfl⟩ | ⟨-, hc⟩
    · exact ⟨hi, rfl⟩
    · exact hw.conn_lt hc
  · intro j c
    by_cases hj : j = i
    · subst hj
      by_cases hc : c = ch.nextConn
      · subst hc; split <;> simp
      · split <;> simp [hc, update_noteq hc, hw.mem_connections]
    · by_cases hc : c = ch.nextConn
      · subst hc; simp [update_noteq hj, hw.not_mem_connections_fresh, Ne.symm hj]
      · simp [update_noteq hj, update_noteq hc, hw.mem_connections]
  · by_cases hj : j = i
    · subst hj
      have := hw.not_mem_connections_fresh j
      rw [update_same]
      split
      · exact (hw.connections_nodup j).append (List.nodup_singleton _)
          (List.disjoint_singleton.mpr this)
      · exact List.nodup_cons.mpr ⟨this, hw.connections_nodup j⟩
    · simp [update_noteq hj, hw.connections_nodup j]
  · intro j c htc
    by_cases hj : j = i
    · subst hj
      simp only [update_same] at htc
      split at htc
      · cases htc; simp_all
      · obtain ⟨conn, hc, hs, ht⟩ := hw.tcp_conn htc
        exact ⟨conn, by rw [update_noteq (hne hc)]; exact hc, hs, ht⟩
    · rw [update_noteq hj] at htc
      obtain ⟨conn, hc, hs, ht⟩ := hw.tcp_conn htc
      exact ⟨conn, by rw [update_noteq (hne hc)]; exact hc, hs, ht⟩
  · intro fd c
    by_cases hc : c = ch.nextConn
    · subst hc; by_cases hfd : fd = ch.nextConn <;> simp [hfd, update_apply, hw.socket]
    · by_cases hfd : fd = ch.nextConn
      · subst hfd; simp [Ne.symm hc, update_noteq hc]
      · simp [update_noteq hfd, update_noteq hc, hw.socket]
  · intro c hle
    rw [update_noteq (Nat.ne_of_gt hle)]
    exact hw.conn_fresh (Nat.le_of_succ_le hle)
  · intro c conn hc
    rcases update_some_eq_some.mp hc with ⟨rfl, rfl⟩ | ⟨-, hc⟩
    · simp
    · exact hw.udp_quota hc
  · intro h q c conn hq hn hc
    have hc' : c ≠ ch.nextConn := by
      rintro rfl
      simpa [(hw.conn_fresh (Nat.le_refl _)).2] using hw.mem_list.mpr ⟨q, hq, hn⟩
    rw [update_noteq hc'] at hc
    exact hw.node_server hq hn hc

theorem openConnection (hw : Wf cfg ch) (hi : i < cfg.nservers) :
    Wf cfg (ch.openConnection env i tcp).2 := by
  unfold Channel.openConnection
  dsimp only
  split
  · exact hw.addConnection hi
  · exact hw.advance

/-- `ares__close_connection` keeps the invariant. The closed connection's query list is left
as it is, so its queries still name it; the callers requeue them or have none. -/
theorem closeConnection (hw : Wf cfg ch) {c conn} (hc : ch.conns c = some conn) :
    Wf cfg (ch.closeConnection c conn) := by
  unfold Channel.closeConnection
  dsimp only
  obtain ⟨-, hfd⟩ := hw.conn_lt hc
  rw [hfd]
  have hw' := hw.emit (e := .sockState c false false) benign_sockState
  refine
    { hw' with
      servers_idx := fun j => ?_, conn_lt := fun hc' => hw.conn_lt (update_none_eq_some hc').2,
      mem_connections := ?_, connections_nodup := fun j => ?_, tcp_conn := ?_, socket := ?_,
      conn_fresh := ?_, udp_quota := fun hc' => hw.udp_quota (update_none_eq_some hc').2,
      node_server := fun hq hn hc' => hw.node_server hq hn (update_none_eq_some hc').2 } <;>
    dsimp only
  · by_cases hj : j = conn.server
    · subst hj; simp [hw.servers_idx]
    · simp [update_noteq hj, hw.servers_idx]
  · intro j c'
    by_cases hj : j = conn.server
    · subst hj
      rw [update_same, (hw.connections_nodup _).mem_erase_iff, hw.mem_connections]
      by_cases e : c' = c
      · subst e; simp
      · simp [e, update_noteq e]
    · rw [update_noteq hj, hw.mem_connections]
      by_cases e : c' = c
      · subst e; simp [hc, Ne.symm hj]
      · simp [update_noteq e]
  · by_cases hj : j = conn.server
    · subst hj; simpa using (hw.connections_nodup _).erase c
    · simpa [update_noteq hj] using hw.connections_nodup j
  · intro j c' htc
    have hne : ∀ {conn'}, ch.conns c' = some conn' → conn'.server = j →
        (conn'.isTcp = true) → (j = conn.server → conn.isTcp = false) → c' ≠ c := by
      rintro conn' hc' hs ht hj rfl
      rw [hc] at hc'; cases hc'; simp_all
    by_cases hj : j = conn.server
    · subst hj
      simp only [update_same] at htc
      split at htc
      · cases htc
      · obtain ⟨conn', hc', hs, ht⟩ := hw.tcp_conn htc
        exact ⟨conn', by rw [update_noteq (hne hc' hs ht (by simp_all))]; exact hc', hs, ht⟩
    · rw [update_noteq hj] at htc
      obtain ⟨conn', hc', hs, ht⟩ := hw.tcp_conn htc
      exact ⟨conn', by rw [update_noteq (hne hc' hs ht (absurd · hj))]; exact hc', hs, ht⟩
  · intro fd c'
    by_cases e : c' = c
    · subst e; by_cases hfd : fd = c' <;> simp [hfd, update_apply, hw.socket]
    · by_cases hfd : fd = c
      · subst hfd; simp [Ne.symm e, hw.socket]
      · simp [update_noteq hfd, update_noteq e, hw.socket]
  · intro c' hle
    rw [update_noteq (Nat.ne_of_gt (Nat.lt_of_lt_of_le (hw.lt_nextConn hc) hle))]
    exact hw.conn_fresh hle

/-- `ares__check_cleanup_conn` keeps the invariant. -/
theorem checkCleanupConn (hw : Wf cfg ch) (fd : Nat) : Wf cfg (ch.checkCleanupConn cfg fd) := by
  unfold Channel.checkCleanupConn
  split
  · exact hw
  · split
    · exact hw
    · split
      · exact hw.closeConnection ‹_›
      · exact hw

/-! ## The enqueue tail of `ares__send_query` -/

theorem countQuery_eq_some {f : ConnId → Option Conn} {c c' : ConnId} {conn' : Conn}
    (hc : update f c ((f c).map Conn.countQuery) c' = some conn') :
    ∃ conn, f c' = some conn ∧ conn'.server = conn.server ∧ conn'.fd = conn.fd ∧
      conn'.isTcp = conn.isTcp := by
  by_cases e : c' = c
  · subst e
    rw [update_same] at hc
    obtain ⟨conn, hfc, rfl⟩ := Option.map_eq_some'.mp hc
    exact ⟨conn, hfc, rfl, rfl, rfl⟩
  · rw [update_noteq e] at hc; exact ⟨conn', hc, rfl, rfl, rfl⟩

theorem isSome_countQuery {f : ConnId → Option Conn} {c c' : ConnId} :
    (update f c ((f c).map Conn.countQuery) c').isSome = (f c').isSome := by
  by_cases e : c' = c
  · subst e; simp
  · rw [update_noteq e]

theorem exists_countQuery {f : ConnId → Option Conn} {c c' : ConnId} {j : Nat} :
    (∃ conn, update f c ((f c).map Conn.countQuery) c' = some conn ∧ conn.server = j) ↔
      ∃ conn, f c' = some conn ∧ conn.server = j := by
  by_cases e : c' = c
  · subst e; cases f c' <;> simp [Conn.countQuery]
  · rw [update_noteq e]

theorem mem_connListErase_of_ne (hw : Wf cfg ch) {node : Option ConnId} {c h' : QueryId}
    (hne : h' ≠ h) : h' ∈ connListErase ch.connQueries node h c ↔ h' ∈ ch.connQueries c := by
  rw [hw.mem_connListErase]; simp [hne]

/-- The success tail of `ares__send_query` keeps the invariant, provided the connection is
open, belongs to the query's server, and (for UDP with a quota) is below its quota. -/
theorem enqueueQuery (hw : Wf cfg ch) (hh : Held cfg ch h q) {c conn} {linked : Bool}
    (hc : ch.conns c = some conn) (hs : conn.server = q.server)
    (hquota : conn.isTcp = false → 0 < cfg.udpMaxQueries → conn.totalQueries < cfg.udpMaxQueries) :
    Wf cfg (ch.enqueueQuery h q c linked) := by
  obtain ⟨q₀, hq₀, hqid, hnode⟩ := hh.stored
  have hnot := hw.not_mem_connListErase hh
  unfold Channel.enqueueQuery
  dsimp only
  refine
    { hw with
      conn_lt := fun hc' => ?_, mem_connections := ?_, tcp_conn := ?_,
      socket := ?_, conn_fresh := ?_, udp_quota := ?_, mem_all := ?_, slist_nodup := ?_,
      slist_live := ?_, qid := hw.qid_update_some hq₀ (by exact hqid), list_nodup := ?_,
      mem_list := ?_, node_conn := ?_, node_server := ?_,
      query_server := forall_update_some (by exact hh.server_lt) hw.query_server,
      query_status := forall_update_some (by exact hh.status) hw.query_status,
      query_fresh := hw.query_fresh_update_some hq₀,
      callback_ended := hw.callback_ended_update_some hq₀ } <;> dsimp only
  · obtain ⟨conn₀, hc₀, hs₀, hfd₀, -⟩ := countQuery_eq_some hc'
    rw [hs₀, hfd₀]; exact hw.conn_lt hc₀
  · intro j c'; rw [exists_countQuery, hw.mem_connections]
  · intro j c' htc
    obtain ⟨conn₀, hc₀, hs₀, ht₀⟩ := hw.tcp_conn htc
    by_cases e : c' = c
    · subst e; rw [hc₀] at hc; cases hc; simp [hc₀, Conn.countQuery, hs₀, ht₀]
    · exact ⟨conn₀, by rw [update_noteq e]; exact hc₀, hs₀, ht₀⟩
  · intro fd c'; rw [isSome_countQuery, hw.socket]
  · intro c' hle
    have e : c' ≠ c := Nat.ne_of_gt (Nat.lt_of_lt_of_le (hw.lt_nextConn hc) hle)
    refine ⟨by rw [update_noteq e]; exact (hw.conn_fresh hle).1, ?_⟩
    have hfresh := (hw.conn_fresh hle).2
    split
    · rw [update_noteq e, connListErase_apply, hfresh]; simp
    · rw [connListErase_apply, hfresh]; simp
  · intro c' conn' hc' htcp hpos
    by_cases e : c' = c
    · subst e
      rw [update_same, hc] at hc'
      cases hc'
      exact hquota htcp hpos
    · rw [update_noteq e] at hc'; exact hw.udp_quota hc' htcp hpos
  · intro h'; rw [isSome_update_some hq₀, hw.mem_all]
  · exact ((insertByTimeout_perm _ _ _ _).nodup_iff).mpr
      (List.nodup_cons.mpr ⟨hw.slist_nodup.not_mem_erase, hw.slist_nodup.erase h⟩)
  · intro h' hm
    rw [isSome_update_some hq₀]
    rcases (mem_insertByTimeout _ _ _ _ _).mp hm with rfl | hm
    · simp [hq₀]
    · exact hw.slist_live (List.mem_of_mem_erase hm)
  · intro c'
    have hl := hw.nodup_connListErase (h := h) q.nodeQueriesToConn c'
    split
    · by_cases e : c' = c
      · subst e; rw [update_same]
        exact hl.append (List.nodup_singleton _) (List.disjoint_singleton.mpr (hnot c'))
      · rw [update_noteq e]; exact hl
    · exact hl
  · intro c' h'
    by_cases e : h' = h
    · subst e
      simp only [update_same, Option.some.injEq, exists_eq_left']
      split
      · by_cases ec : c' = c
        · subst ec; simp
        · simp [update_noteq ec, hnot, Ne.symm ec]
      · simp [hnot]
    · have hm : ∀ c'', h' ∈ (if linked then update (connListErase ch.connQueries
            q.nodeQueriesToConn h) c (connListErase ch.connQueries q.nodeQueriesToConn h c ++ [h])
            else connListErase ch.connQueries q.nodeQueriesToConn h) c'' ↔
          h' ∈ ch.connQueries c'' := by
        intro c''
        split
        · by_cases ec : c'' = c
          · subst ec; simp [hw.mem_connListErase_of_ne e, e]
          · rw [update_noteq ec, hw.mem_connListErase_of_ne e]
        · exact hw.mem_connListErase_of_ne e
      rw [hm, hw.mem_list, update_noteq e]
  · intro h' q' c' hq' hn
    rcases update_some_eq_some.mp hq' with ⟨rfl, rfl⟩ | ⟨-, hq'⟩
    · dsimp only at hn ⊢; split at hn <;> simp_all
    · exact hw.node_conn hq' hn
  · intro h' q' c' conn' hq' hn hc'
    obtain ⟨conn₀, hc₀, hs₀, -⟩ := countQuery_eq_some hc'
    rcases update_some_eq_some.mp hq' with ⟨rfl, rfl⟩ | ⟨-, hq'⟩
    · dsimp only at hn ⊢
      split at hn
      · cases hn; rw [hc] at hc₀; cases hc₀; rw [hs₀, hs]
      · cases hn
    · rw [hs₀]; exact hw.node_server hq' hn hc₀

end Wf

end CAres
