import CAres.Proof.Inv

/-! # `handle_error`

`handle_error` closes the connection first and then requeues the queries of its stolen list
one by one. In between, those queries still name the closed connection, so `Inv` does not
hold; `Draining` is what holds instead. Each round takes the head of the list to another
connection or ends it, and so shortens the list by at least one: the fuel of
`handleErrorLoop`, the list's length at the start, is enough to empty it. The assertion
`query->server == server->idx` holds in every round, because a query on a connection's list
is of that connection's server (`Wf.node_server`) and the record does not change until the
query's own round. -/

namespace CAres

open Function

variable {cfg : Config} {env : Env} {ch ch' : Channel}

/-- The state of `handle_error`'s drain of the closed connection `c` of server `server`. -/
structure Draining (cfg : Config) (c : ConnId) (server : Nat) (ch : Channel) : Prop where
  wf : Wf cfg ch
  closed : ch.conns c = none
  lt : c < ch.nextConn
  settled : ∀ h, h ∉ ch.connQueries c → Settled h ch
  pending : ∀ {h q}, h ∈ ch.connQueries c → ch.queries h = some q →
    h ∈ ch.queriesByTimeout ∧ q.server = server
  trace : TraceOk ch.trace
  retry : Retry cfg ch
  streams : Streams ch

namespace Draining

variable {c : ConnId} {server : Nat}

/-- Closing a connection starts a drain of its list. -/
theorem start (hi : Inv cfg ch) {conn : Conn} (hc : ch.conns c = some conn) :
    Draining cfg c conn.server (ch.closeConnection c conn) := by
  have hclose : ∀ {c'}, c' ≠ c → (ch.closeConnection c conn).conns c' = ch.conns c' :=
    fun e => by simp [Channel.closeConnection, update_noteq e]
  refine ⟨hi.wf.closeConnection hc, by simp [Channel.closeConnection],
    hi.wf.lt_nextConn hc, fun h hm q hq => ?_, fun {h q} hm hq => ?_,
    hi.trace.emit (by simp) rfl nofun,
    hi.retry.quiet (.of_queries rfl rfl rfl ⟨[_], rfl, List.forall_mem_singleton.mpr trivial⟩),
    hi.streams.kept (.closeConnection _ _ _)⟩
  · obtain ⟨hs, hn⟩ := hi.settled h q hq
    refine ⟨hs, fun {c'} hnc => ?_⟩
    have e : c' ≠ c := by rintro rfl; exact hm (hi.wf.mem_list.mpr ⟨q, hq, hnc⟩)
    rw [hclose e]; exact hn hnc
  · obtain ⟨q', hq', hn⟩ := hi.wf.mem_list.mp hm
    have hq₀ : ch.queries h = some q := hq
    rw [hq₀] at hq'; cases hq'
    exact ⟨(hi.settled h q hq).1, hi.wf.node_server hq hn hc⟩

/-- With the list empty, the invariant is back. -/
theorem inv (hd : Draining cfg c server ch) (hl : ch.connQueries c = []) : Inv cfg ch :=
  ⟨hd.wf, fun h => hd.settled h (by simp [hl]), hd.trace, hd.retry, hd.streams⟩

/-- A query on the drained list is live. -/
theorem live (hd : Draining cfg c server ch) {h : QueryId} (hm : h ∈ ch.connQueries c) :
    ∃ q, ch.queries h = some q ∧ q.server = server := by
  obtain ⟨q, hq, -⟩ := hd.wf.mem_list.mp hm
  exact ⟨q, hq, (hd.pending hm hq).2⟩

/-- A dispatch of the head of the list continues the drain with a shorter list. -/
theorem dispatch (hd : Draining cfg c server ch) {h : QueryId} (hm : h ∈ ch.connQueries c)
    (hpost : Post cfg h ch ch') (hr : Retry cfg ch') :
    Draining cfg c server ch' ∧ (ch'.connQueries c).length < (ch.connQueries c).length := by
  obtain ⟨hw', f, hs⟩ := hpost
  have closed' : ch'.conns c = none := f.conns_closed hd.closed hd.lt
  have hnot : h ∉ ch'.connQueries c := fun hm' => by
    obtain ⟨q, hq, hn⟩ := hw'.mem_list.mp hm'
    simpa [closed'] using (hs q hq).2 hn
  have hsub : ∀ {h'}, h' ∈ ch'.connQueries c → h' ∈ ch.connQueries c ∧ h' ≠ h :=
    fun hm' => ⟨f.closed_lists closed' hm', fun e => hnot (e ▸ hm')⟩
  refine ⟨⟨hw', closed', Nat.lt_of_lt_of_le hd.lt f.nextConn_le, fun h' hm' => ?_,
    fun {h' q} hm' hq => ?_, hd.trace.dispatch f.trace, hr, f.streams hd.streams⟩, ?_⟩
  · by_cases e : h' = h
    · subst e; exact hs
    by_cases hmc : h' ∈ ch.connQueries c
    · obtain ⟨q, hq, hn⟩ := hd.wf.mem_list.mp hmc
      exact absurd (hw'.mem_list.mpr ⟨q, (f.others e).trans hq, hn⟩) hm'
    · exact (hd.settled h' hmc).frame f e
  · obtain ⟨hmc, e⟩ := hsub hm'
    rw [f.others e] at hq
    obtain ⟨hs', hsrv⟩ := hd.pending hmc hq
    exact ⟨f.slist hs' e, hsrv⟩
  · have hsp : (ch'.connQueries c).Subperm ((ch.connQueries c).erase h) :=
      List.subperm_of_subset (hw'.list_nodup c) fun h' hm' =>
        ((hd.wf.list_nodup c).mem_erase_iff).mpr ⟨(hsub hm').2, (hsub hm').1⟩
    have := hsp.length_le
    rw [List.length_erase_of_mem hm] at this
    have := List.length_pos_of_mem hm
    omega

end Draining

/-- The drain loop empties the list, ends in a drained state, and its assertion never fails;
it records dispatch events only, and leaves every query off the list as it was. -/
theorem handleErrorLoop_inv {c : ConnId} {server : Nat} {now : Timeval} :
    ∀ (fuel : Nat) {ch : Channel}, Draining cfg c server ch →
      (ch.connQueries c).length ≤ fuel →
      Draining cfg c server (handleErrorLoop cfg env c server now fuel ch) ∧
        (handleErrorLoop cfg env c server now fuel ch).connQueries c = [] ∧
        DispatchTrace ch (handleErrorLoop cfg env c server now fuel ch) ∧
        ∀ {h}, h ∉ ch.connQueries c →
          (handleErrorLoop cfg env c server now fuel ch).queries h = ch.queries h
  | 0, ch, hd, hl => by
    rw [handleErrorLoop]
    exact ⟨hd, List.eq_nil_of_length_eq_zero (Nat.le_zero.mp hl), .refl ch, fun _ => rfl⟩
  | fuel + 1, ch, hd, hl => by
    rw [handleErrorLoop]
    split
    · rename_i hnil; exact ⟨hd, hnil, .refl ch, fun _ => rfl⟩
    rename_i h tail hlist
    have hm : h ∈ ch.connQueries c := by simp [hlist]
    obtain ⟨q, hq, hsrv⟩ := hd.live hm
    simp only [hq, hsrv, hd.wf.servers_idx, if_true]
    have hh : Held cfg ch h (skipServer cfg q server) := (Held.of_stored hd.wf hq).skip server
    have hpost : Post cfg h ch (nextServer cfg env ch h (skipServer cfg q server) now) :=
      nextServer_post hd.wf hh
    obtain ⟨hd', hlt⟩ :=
      hd.dispatch hm hpost (hd.retry.nextServer hd.wf hh (Tracked.of_stored hq).skip)
    obtain ⟨hd'', hnil, ht, hkeep⟩ := handleErrorLoop_inv fuel hd' (by omega)
    refine ⟨hd'', hnil, hpost.2.1.trace.trans ht, fun {h'} hn => ?_⟩
    have hn' : h' ∉ (nextServer cfg env ch h (skipServer cfg q server) now).connQueries c :=
      fun hm' => hn (hpost.2.1.closed_lists hd'.closed hm')
    exact (hkeep hn').trans (hpost.2.1.others fun e => hn (e ▸ hm))

/-- `handle_error` on an open connection drains its list: the invariant holds again, the
connection stays closed, and every query off the list is as it was. -/
theorem handleError_drains (hi : Inv cfg ch) {c : ConnId} {conn : Conn}
    (hc : ch.conns c = some conn) {now : Timeval} :
    Inv cfg (CAres.handleError cfg env ch c now) ∧
      (CAres.handleError cfg env ch c now).conns c = none ∧
      DispatchTrace ch (CAres.handleError cfg env ch c now) ∧
      ∀ {h}, h ∉ ch.connQueries c →
        (CAres.handleError cfg env ch c now).queries h = ch.queries h := by
  unfold CAres.handleError
  simp only [hc]
  obtain ⟨hd, hnil, ht, hkeep⟩ := handleErrorLoop_inv _ (Draining.start hi hc) (Nat.le_refl _)
  exact ⟨hd.inv hnil, hd.closed,
    ((DispatchTrace.refl ch).cons (e := .sockState _ false false) trivial).trans ht, hkeep⟩

/-- `handle_error` on an open connection keeps the invariant, and records dispatch events
only. -/
theorem Inv.handleError (hi : Inv cfg ch) {c : ConnId} {conn : Conn}
    (hc : ch.conns c = some conn) {now : Timeval} :
    Inv cfg (CAres.handleError cfg env ch c now) ∧
      DispatchTrace ch (CAres.handleError cfg env ch c now) :=
  ⟨(handleError_drains hi hc).1, (handleError_drains hi hc).2.2.1⟩

end CAres
