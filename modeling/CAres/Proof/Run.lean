import CAres.Proof.Io

/-! # Every reachable state satisfies the invariant

The submission path registers a fresh query under a free id and dispatches it; a refused
submission only reports its callback. With `Inv.processfds`, this gives `Inv` over every
run of a channel (`Reachable.inv`). -/

namespace CAres

open Function

variable {cfg : Config} {env : Env} {ch : Channel}

namespace Wf

/-- A refused submission: a fresh handle whose callback fires at once. -/
theorem reject (hw : Wf cfg ch) {st : Status} (hst : st ≠ .success) (t : Nat) :
    Wf cfg ({ ch with nextQuery := ch.nextQuery + 1, tick := t }.emit
      (.callback ch.nextQuery st 0 none)) := by
  have hfresh : ch.queries ch.nextQuery = none := hw.query_fresh (Nat.le_refl _)
  have hnew : ∀ {st' t' a'}, Event.callback ch.nextQuery st' t' a' ∉ ch.trace :=
    fun hm => Nat.lt_irrefl _ (hw.callback_ended hm).2
  refine { hw with
    query_fresh := fun hle => hw.query_fresh (Nat.le_of_succ_le hle)
    callback_ended := ?_, callback_once := ?_, callback_status := ?_, no_query_fault := ?_ }
  · intro h st' t' a' hm
    rcases List.mem_cons.mp hm with heq | hm
    · cases heq; exact ⟨hfresh, Nat.lt_succ_self _⟩
    · exact ⟨(hw.callback_ended hm).1, Nat.lt_succ_of_lt (hw.callback_ended hm).2⟩
  · refine List.nodup_cons.mpr ⟨fun hmem => ?_, hw.callback_once⟩
    obtain ⟨e, he, hce⟩ := List.mem_filterMap.mp hmem
    cases e <;> simp only [Event.callbackOf, reduceCtorEq, Option.some.injEq] at hce
    subst hce
    exact hnew he
  · intro h st' t' a' hm
    rcases List.mem_cons.mp hm with heq | hm
    · cases heq; exact .inr ⟨hst, rfl⟩
    · exact hw.callback_status hm
  · intro h hm
    rcases List.mem_cons.mp hm with heq | hm
    · cases heq
    · exact hw.no_query_fault hm

/-- Registering a fresh query under a free id keeps the invariant. -/
theorem submit (hw : Wf cfg ch) {id : Nat} (hid : ch.queriesByQid id = none) {q : Query}
    (hqid : q.qid = id) (hnode : q.nodeQueriesToConn = none) (hsrv : q.server < cfg.nservers)
    (hst : q.errorStatus ≠ .success) (ls : Nat) (hls : ls < cfg.nservers) (t : Nat) (e : Event)
    (he : e.Benign) :
    Wf cfg { ch with
      nextQuery := ch.nextQuery + 1, lastServer := ls, allQueries := ch.allQueries ++ [ch.nextQuery]
      queriesByQid := update ch.queriesByQid id (some ch.nextQuery)
      queries := update ch.queries ch.nextQuery (some q), tick := t, trace := e :: ch.trace } := by
  have hfresh : ch.queries ch.nextQuery = none := hw.query_fresh (Nat.le_refl _)
  have hne : ∀ {h q'}, ch.queries h = some q' → h ≠ ch.nextQuery := fun hq e => by
    subst e; simp [hfresh] at hq
  have hw' := hw.emit he
  refine { hw' with
    last_server := hls, all_nodup := ?_, mem_all := ?_, slist_live := ?_, qid := ?_,
    mem_list := ?_, node_conn := ?_, node_server := ?_,
    query_server := forall_update_some hsrv hw.query_server,
    query_status := forall_update_some hst hw.query_status,
    query_fresh := ?_, callback_ended := ?_ } <;> dsimp only
  · exact hw.all_nodup.append (List.nodup_singleton _)
      (List.disjoint_singleton.mpr (by simp [hw.mem_all, hfresh]))
  · intro h
    by_cases e : h = ch.nextQuery
    · subst e; simp
    · simp [update_noteq e, e, hw.mem_all]
  · intro h hm
    have := hw.slist_live hm
    obtain ⟨q', hq'⟩ := Option.isSome_iff_exists.mp this
    rw [update_noteq (hne hq'), hq']; rfl
  · intro id' h
    by_cases eid : id' = id
    · subst eid
      rw [update_same, Option.some.injEq]
      constructor
      · rintro rfl; exact ⟨q, update_same _ _ _, hqid⟩
      · rintro ⟨q', hq', hq'id⟩
        by_contra e
        rw [update_noteq (Ne.symm e)] at hq'
        simp [hw.qid.mpr ⟨q', hq', hq'id⟩] at hid
    · rw [update_noteq eid, hw.qid]
      constructor
      · rintro ⟨q', hq', rfl⟩; exact ⟨q', by rw [update_noteq (hne hq')]; exact hq', rfl⟩
      · rintro ⟨q', hq', rfl⟩
        rcases Wf.update_some_eq_some.mp hq' with ⟨rfl, rfl⟩ | ⟨-, hq'⟩
        · exact absurd hqid eid
        · exact ⟨q', hq', rfl⟩
  · intro c h
    rw [hw.mem_list]
    by_cases e : h = ch.nextQuery
    · subst e; simp [hfresh, hnode]
    · simp [update_noteq e]
  · intro h q' c hq' hn
    rcases Wf.update_some_eq_some.mp hq' with ⟨rfl, rfl⟩ | ⟨-, hq'⟩
    · simp [hnode] at hn
    · exact hw.node_conn hq' hn
  · intro h q' c conn hq' hn hc
    rcases Wf.update_some_eq_some.mp hq' with ⟨rfl, rfl⟩ | ⟨-, hq'⟩
    · simp [hnode] at hn
    · exact hw.node_server hq' hn hc
  · intro h hle
    rw [update_noteq (Nat.ne_of_gt hle)]
    exact hw.query_fresh (Nat.le_of_succ_le hle)
  · intro h st t' a hm
    obtain ⟨hnone, hlt⟩ := hw'.callback_ended hm
    have hlt' : h < ch.nextQuery := hlt
    exact ⟨by rw [update_noteq (Nat.ne_of_lt hlt')]; exact hnone, Nat.lt_succ_of_lt hlt'⟩

end Wf

namespace Inv

theorem reject (hi : Inv cfg ch) {st : Status} (hst : st ≠ .success) (t : Nat) :
    Inv cfg ({ ch with nextQuery := ch.nextQuery + 1, tick := t }.emit
      (.callback ch.nextQuery st 0 none)) :=
  ⟨hi.wf.reject hst t, fun h q hq => hi.settled h q hq,
    hi.trace.cons (by simp) (fun he => by cases he; exact hst rfl) nofun,
    hi.retry.quiet ⟨⟨[_], rfl, List.forall_mem_singleton.mpr trivial⟩,
      fun hq => ⟨_, hq, rfl, rfl, rfl⟩, Nat.le_succ _, id⟩,
    hi.streams.kept (.of_cons (e := .callback _ _ _ _) trivial rfl rfl)⟩

/-- Dispatching a query just registered under a free id, at try count 0. -/
theorem submitSend (hi : Inv cfg ch) {id : Nat} (hid : ch.queriesByQid id = none) {q : Query}
    (hqid : q.qid = id) (hnode : q.nodeQueriesToConn = none) (hsrv : q.server < cfg.nservers)
    (hst : q.errorStatus ≠ .success) (htry : q.tryCount = 0) (ls : Nat) (hls : ls < cfg.nservers)
    (t : Nat) {now : Timeval} :
    Inv cfg (aresSendQuery cfg env { ch with
      nextQuery := ch.nextQuery + 1, lastServer := ls, allQueries := ch.allQueries ++ [ch.nextQuery]
      queriesByQid := update ch.queriesByQid id (some ch.nextQuery)
      queries := update ch.queries ch.nextQuery (some q), tick := t,
      trace := .submitted ch.nextQuery q.server :: ch.trace } ch.nextQuery q now .initial) := by
  have hw := hi.wf.submit hid hqid hnode hsrv hst ls hls t (.submitted ch.nextQuery q.server)
    (by simp [Event.Benign, Event.callbackOf])
  have hh := Held.of_stored hw (update_same _ _ _)
  refine Inv.of_post (fun h' hne q' hq' => ?_)
    (hi.trace.emit (e := .submitted _ _) (by simp) rfl (by exact nofun))
    (aresSendQuery_post hw hh) (hi.streams.kept (.of_cons (e := .submitted _ _) trivial rfl rfl))
    (hi.retry.submit hw hh rfl rfl rfl rfl htry)
  simp only [update_noteq hne] at hq'
  exact hi.settled h' q' hq'

/-- The submission path keeps the invariant, for an id not in use. -/
theorem aresSend (hi : Inv cfg ch) {id : Nat} (hid : ch.queriesByQid id = none) {qbuf : Bytes}
    {now : Timeval} : Inv cfg (CAres.aresSend cfg env ch id qbuf now) := by
  unfold CAres.aresSend
  dsimp only
  split
  · exact hi.reject (by decide) ch.tick
  split
  · exact hi.reject (by decide) (ch.tick + 2)
  exact hi.submitSend hid rfl rfl hi.wf.last_server
    (show Status.econnrefused ≠ .success by decide) rfl _
    (by split; exact Nat.mod_lt _ cfg.nservers_pos; exact hi.wf.last_server) _

end Inv

/-- The channel `ares_init_options` hands over satisfies the invariant. -/
theorem Inv.init (flags : Flags) (addrs : Nat → AresAddr) :
    Inv cfg (Channel.init cfg flags addrs) := by
  refine ⟨⟨?_, ?_, ?_, ?_, ?_, ?_, ?_, ?_, ?_, ?_, ?_, ?_, ?_, ?_, ?_, ?_, ?_, ?_, ?_, ?_, ?_, ?_,
    ?_, ?_, ?_⟩, fun _ _ hq => ?_, ⟨fun hm => ?_, ?_, ?_⟩, .init flags addrs,
    .init cfg flags addrs⟩ <;>
    simp [Channel.init, cfg.nservers_pos, Adjacent] at *

/-- Every state of every run satisfies the invariant. -/
theorem Reachable.inv (hr : Reachable cfg env ch) : Inv cfg ch := by
  induction hr with
  | init flags addrs => exact Inv.init flags addrs
  | send id qbuf now _ _ hid ih => exact ih.aresSend hid
  | process _ _ _ _ _ _ ih => exact ih.processfds

end CAres
