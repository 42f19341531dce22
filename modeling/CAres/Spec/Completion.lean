import CAres.Proof.Accounting
import CAres.Proof.Walk
import CAres.Spec.Deadline

/-! # Every query is reported exactly once

`Reachable.accounted` and the registry invariant count the callbacks of every handle in every
state of every run: one once its query is no longer live, none while it is live, and none
for a handle not yet given out (`handle_callback_count`). So no query is ever dropped without
its callback, and none is reported twice.

When the outside world stays silent, the queries end without it. A call of
`ares_process_fd` with no socket ready, at a time at or past every deadline, is a walk of
`process_timeouts` that steps every live query (`processTimeouts_walk`), so it raises the try
count of every query it leaves live, and that try count stays below `nservers * tries`. A run
of `max 1 (nservers * tries)` such calls therefore ends every query, and each has then been
reported once (`queries_end_within_tries`).

Every request `ares__send_query` puts on the wire is armed at the time of the call
(`ArmedAt`). So, with a channel timeout that is positive and below `2^63` milliseconds,
`process_timeouts` leaves no live query whose deadline is at or before `now`. The walk reaches
each such query, and each one it sends again gets a deadline after `now`
(`process_timeouts_clears_expired`). -/

namespace CAres

variable {cfg : Config} {env : Env} {ch ch' : Channel}

/-- In every state of every run, a handle has had one callback if it has been given out and
its query is no longer live, and none otherwise. -/
theorem handle_callback_count (hr : Reachable cfg env ch) (h : QueryId) :
    (ch.trace.filterMap Event.callbackOf).count h =
      if h < ch.nextQuery ∧ (ch.queries h).isNone then 1 else 0 := by
  have hw := hr.inv.wf
  split
  case isTrue hh =>
    have hc : Called h ch.trace :=
      (hr.accounted h hh.1).resolve_left (by simpa [Option.isNone_iff_eq_none] using hh.2)
    exact List.count_eq_one_of_mem hw.callback_once hc
  case isFalse hh =>
    refine List.count_eq_zero.mpr fun hc => hh ?_
    obtain ⟨st, t, a, hm⟩ := called_iff.mp hc
    exact ⟨(hw.callback_ended hm).2, by simp [(hw.callback_ended hm).1]⟩

/-! ## Runs without answers -/

/-- With no socket ready, `ares_process_fd` only processes the timeouts. -/
theorem aresProcessFd_idle (ch : Channel) (now : Timeval) :
    aresProcessFd cfg env ch none none now = processTimeouts cfg env ch now := rfl

/-- A run of `ares_process_fd` calls with no socket ready, each at a time at or past the
deadline of every query live in the state it is made in. -/
inductive ExpiredCalls (cfg : Config) (env : Env) : Channel → List Timeval → Channel → Prop
  | nil (ch : Channel) : ExpiredCalls cfg env ch [] ch
  | cons {ch ch' : Channel} {now : Timeval} {nows : List Timeval} :
      (∀ h q, ch.queries h = some q → timeoutCmp q.timeout now ≤ 0) →
      ExpiredCalls cfg env (aresProcessFd cfg env ch none none now) nows ch' →
      ExpiredCalls cfg env ch (now :: nows) ch'

/-- Over a run of timeout steps, a query live at the end was live at the start: unchanged if
the run never stepped it, and otherwise with a larger try count, below the loop's bound. -/
theorem TimeoutRun.tries {now : Timeval} {last : Option Timeval} {V : List (QueryId × Timeval)}
    (hrun : TimeoutRun cfg env now last ch V ch') : Inv cfg ch → ∀ {h q'},
      ch'.queries h = some q' → ∃ q, ch.queries h = some q ∧
        (h ∉ V.map Prod.fst → q' = q) ∧
        (h ∈ V.map Prod.fst → q.tryCount < q'.tryCount ∧ q'.tryCount < loopBound cfg) := by
  induction hrun with
  | done => exact fun _ _ _ hq' => ⟨_, hq', fun _ => rfl, nofun⟩
  | @step _ ch₀ _ h₀ q₀ V hq₀ _ _ _ ih =>
    intro hi h q' hq'
    obtain ⟨hi₁, ho, -, hend⟩ := timeoutStep_spec env now hi hq₀
    obtain ⟨q₁, hq₁, hnot, hin⟩ := ih hi₁ hq'
    simp only [List.map_cons, List.mem_cons]
    by_cases e : h = h₀
    · subst e
      obtain ⟨q₂, hq₂, hlt, hlb⟩ := hend.resolve_left (by simp [hq₁])
      rw [hq₂] at hq₁
      cases hq₁
      refine ⟨q₀, hq₀, fun hn => absurd (.inl rfl) hn, fun _ => ?_⟩
      by_cases hv : h ∈ V.map Prod.fst
      · exact ⟨Nat.lt_trans hlt (hin hv).1, (hin hv).2⟩
      · rw [hnot hv]; exact ⟨hlt, hlb⟩
    · rw [ho e] at hq₁
      exact ⟨q₁, hq₁, fun hn => hnot fun hv => hn (.inr hv),
        fun hv => hin (hv.resolve_left e)⟩

/-- One call at a time past every deadline: every query it leaves live was live before, with
a smaller try count, and its try count is below the loop's bound. -/
theorem processTimeouts_expired (hr : Reachable cfg env ch) {now : Timeval}
    (hexp : ∀ h q, ch.queries h = some q → timeoutCmp q.timeout now ≤ 0) {h : QueryId}
    {q' : Query} (hq' : (processTimeouts cfg env ch now).queries h = some q') :
    ∃ q, ch.queries h = some q ∧ q.tryCount < q'.tryCount ∧ q'.tryCount < loopBound cfg := by
  obtain ⟨V, hrun, -, hall⟩ := processTimeouts_walk env hr.inv hr.slistSorted now
  obtain ⟨q, hq, -, hin⟩ := hrun.tries hr.inv hq'
  exact ⟨q, hq, hin (List.mem_map.mpr ⟨_, hall h q hq (hexp h q hq), rfl⟩)⟩

/-- Over a run of such calls from a reachable state, every query live at the end was live at
the start, with its try count raised by at least the number of calls; after one call or more,
it is below the loop's bound. -/
theorem ExpiredCalls.tries {nows : List Timeval} (hrun : ExpiredCalls cfg env ch nows ch') :
    Reachable cfg env ch → Reachable cfg env ch' ∧ ∀ {h q'}, ch'.queries h = some q' →
      ∃ q, ch.queries h = some q ∧ q.tryCount + nows.length ≤ q'.tryCount ∧
        (nows = [] → q' = q) ∧ (nows ≠ [] → q'.tryCount < loopBound cfg) := by
  induction hrun with
  | nil ch => exact fun hr => ⟨hr, fun hq' => ⟨_, hq', by simp, fun _ => rfl, nofun⟩⟩
  | @cons ch₀ _ now nows hexp _ ih =>
    intro hr
    obtain ⟨hr', hlive⟩ := ih (.process _ _ _ _ _ hr)
    refine ⟨hr', fun hq' => ?_⟩
    obtain ⟨q₁, hq₁, hle, hnil, hne⟩ := hlive hq'
    obtain ⟨q, hq, hlt, hlb⟩ := processTimeouts_expired hr hexp hq₁
    refine ⟨q, hq, by simp only [List.length_cons]; omega, nofun, fun _ => ?_⟩
    rcases nows with _ | ⟨t, nows⟩
    · rw [hnil rfl]; exact hlb
    · exact hne (List.cons_ne_nil _ _)

/-- From every reachable state, a run of `max 1 (nservers * tries)` calls of
`ares_process_fd` with no socket ready, each at or past every deadline, ends every query;
every handle given out has then had exactly one callback. -/
theorem queries_end_within_tries (hr : Reachable cfg env ch) {nows : List Timeval}
    (hrun : ExpiredCalls cfg env ch nows ch') (hlen : max 1 (loopBound cfg) ≤ nows.length) :
    ∀ h, ch'.queries h = none ∧
      (h < ch'.nextQuery → (ch'.trace.filterMap Event.callbackOf).count h = 1) := by
  obtain ⟨hr', hlive⟩ := hrun.tries hr
  have hnone : ∀ h, ch'.queries h = none := fun h => by
    rcases hq : ch'.queries h with _ | q'
    · rfl
    · obtain ⟨q, -, hle, -, hlb⟩ := hlive hq
      have := hlb (List.ne_nil_of_length_pos (by omega))
      omega
  refine fun h => ⟨hnone h, fun hlt => ?_⟩
  exact List.count_eq_one_of_mem hr'.inv.wf.callback_once
    ((hr'.accounted h hlt).resolve_left (by simp [hnone h]))

/-- The one-query runs below: every live query is that of handle 0, whose deadline is
checked by evaluation. -/
theorem expired_of_first (hr : Reachable cfg env ch) (hn : ch.nextQuery = 1) {now : Timeval}
    (h0 : (ch.queries 0).all (fun q => decide (timeoutCmp q.timeout now ≤ 0)) = true) :
    ∀ h q, ch.queries h = some q → timeoutCmp q.timeout now ≤ 0 := by
  intro h q hq
  obtain rfl : h = 0 := Nat.lt_one_iff.mp (hn ▸ hr.inv.wf.lt_nextQuery hq)
  simpa [hq] using h0

/-- The request of `tcSent` left unanswered: `ares_process_fd` at 100 s, 200 s and 300 s. -/
def tcIdle : Channel :=
  aresProcessFd loopCfg tcEnv (aresProcessFd loopCfg tcEnv
    (aresProcessFd loopCfg tcEnv tcSent none none ⟨100, 0⟩) none none ⟨200, 0⟩) none none
    ⟨300, 0⟩

theorem queries_end_within_tries_tcIdle :
    ExpiredCalls loopCfg tcEnv tcSent [⟨100, 0⟩, ⟨200, 0⟩, ⟨300, 0⟩] tcIdle ∧
      max 1 (loopBound loopCfg) ≤ 3 ∧ ∀ h, tcIdle.queries h = none ∧
        (h < tcIdle.nextQuery → (tcIdle.trace.filterMap Event.callbackOf).count h = 1) := by
  have r₁ : Reachable loopCfg tcEnv (aresProcessFd loopCfg tcEnv tcSent none none ⟨100, 0⟩) :=
    .process _ _ _ _ _ tcSent_reachable
  have r₂ := @Reachable.process loopCfg tcEnv _ none none none none ⟨200, 0⟩ r₁
  have run : ExpiredCalls loopCfg tcEnv tcSent [⟨100, 0⟩, ⟨200, 0⟩, ⟨300, 0⟩] tcIdle :=
    .cons (expired_of_first tcSent_reachable (by decide) (by decide))
      (.cons (expired_of_first r₁ (by decide) (by decide))
        (.cons (expired_of_first r₂ (by decide) (by decide)) (.nil _)))
  exact ⟨run, by decide, queries_end_within_tries tcSent_reachable run (by decide)⟩

/-! ## Deadlines after a walk -/

/-- Query `h` of `ch` is gone, or armed at `now`: its deadline is `now` plus the timeout of
its try count. -/
def ArmedAt (cfg : Config) (now : Timeval) (ch : Channel) (h : QueryId) : Prop :=
  ∀ q, ch.queries h = some q →
    q.timeout = timeadd now (timeplus cfg.timeout q.tryCount cfg.nservers)

section Armed

variable {h : QueryId} {q : Query} {now : Timeval} {cause : Cause}

theorem armAndEnqueue_armedAt {c : ConnId}
    (hs : armAndEnqueue cfg env ch h q c now cause = .ok ch') :
    ArmedAt cfg now ch' h := by
  unfold armAndEnqueue at hs
  dsimp only at hs
  split at hs
  · cases hs
    intro q' hq'
    simp only [Channel.enqueueQuery, Function.update_same, Option.some.injEq] at hq'
    rw [← hq']
  · cases hs

/-- A request `ares__send_query` puts on the wire goes through its arming tail. -/
theorem sendAttempt_ok_arm (hs : sendAttempt cfg env ch h q now cause = .ok ch') :
    ∃ ch₁ q₁ c, armAndEnqueue cfg env ch₁ h q₁ c now cause = .ok ch' := by
  unfold sendAttempt at hs
  split at hs
  · unfold sendTcp at hs
    split at hs
    split at hs
    · split at hs
      · split at hs
        · exact ⟨_, _, _, hs⟩
        · cases hs
      · cases hs
    all_goals cases hs
  · unfold sendUdp at hs
    rcases hr : reusableUdp cfg ch q.server with _ | c₀ <;> simp only [hr] at hs
    · rcases ho : ch.openConnection env q.server false with ⟨st, ch₁⟩
      simp only [ho] at hs
      split at hs
      · split at hs
        · split at hs
          · exact ⟨_, _, _, hs⟩
          · cases hs
        · cases hs
      all_goals cases hs
    · split at hs
      · exact ⟨_, _, _, hs⟩
      · cases hs

theorem nextServerLoop_armedAt : ∀ (k : Nat) (ch : Channel) (q : Query),
    ArmedAt cfg now (nextServerLoop cfg env h now k ch q) h
  | k + 2, ch, q => by
    rw [nextServerLoop]
    dsimp only
    split
    · exact fun q' hq' => by simp at hq'
    split
    · split
      · obtain ⟨_, _, _, hs⟩ := sendAttempt_ok_arm ‹_›
        exact armAndEnqueue_armedAt hs
      · exact nextServerLoop_armedAt (k + 1) _ _
      · exact fun q' hq' => by simp at hq'
    · exact nextServerLoop_armedAt (k + 1) _ _
  | 0, ch, q | 1, ch, q => fun q' hq' => by simp [nextServerLoop] at hq'

theorem timeoutStep_armedAt : ArmedAt cfg now (timeoutStep cfg env ch h q now) h := by
  unfold timeoutStep nextServer
  dsimp only
  intro q' hq'
  rw [checkCleanupConn_queries] at hq'
  exact nextServerLoop_armedAt _ _ _ q' hq'

end Armed

/-- Over a run of timeout steps, a query live at the end was not stepped and is as it was, or
was armed at `now` by its last step. -/
theorem TimeoutRun.armed {now : Timeval} {last : Option Timeval} {V : List (QueryId × Timeval)}
    (hrun : TimeoutRun cfg env now last ch V ch') : Inv cfg ch → ∀ {h q'},
      ch'.queries h = some q' → (h ∉ V.map Prod.fst ∧ ch.queries h = some q') ∨
        q'.timeout = timeadd now (timeplus cfg.timeout q'.tryCount cfg.nservers) := by
  induction hrun with
  | done => exact fun _ _ _ hq' => .inl ⟨nofun, hq'⟩
  | @step _ ch₀ _ h₀ q₀ V hq₀ _ _ _ ih =>
    intro hi h q' hq'
    obtain ⟨hi₁, ho, -, -⟩ := timeoutStep_spec env now hi hq₀
    rcases ih hi₁ hq' with ⟨hnot, hq₁⟩ | harm
    · by_cases e : h = h₀
      · subst e
        exact .inr (timeoutStep_armedAt _ hq₁)
      · refine .inl ⟨?_, (ho e).symm.trans hq₁⟩
        simp only [List.map_cons, List.mem_cons, not_or]
        exact ⟨e, hnot⟩
    · exact .inr harm

/-- From every reachable state, with a time in range and a channel timeout that is positive
and below `2^63` milliseconds, `process_timeouts` leaves no live query whose deadline is at or
before `now`: the walk reaches every query that has timed out, and each one it sends again is
armed after `now`. -/
theorem process_timeouts_clears_expired (hr : Reachable cfg env ch) {now : Timeval}
    (hn : now.Normal) (hT : 0 < cfg.timeout) (hT' : cfg.timeout < 2 ^ 63) :
    ∀ h q', (processTimeouts cfg env ch now).queries h = some q' →
      aresTimedout now q'.timeout = false := by
  intro h q' hq'
  obtain ⟨V, hrun, -, hall⟩ := processTimeouts_walk env hr.inv hr.slistSorted now
  rw [Bool.eq_false_iff, Ne, aresTimedout_iff]
  rcases hrun.armed hr.inv hq' with ⟨hnot, hq⟩ | harm
  · exact fun hle => hnot (List.mem_map.mpr ⟨_, hall h q' hq hle, rfl⟩)
  · set tp := timeplus cfg.timeout q'.tryCount cfg.nservers
    have hpos : 0 < cfg.timeout * 2 ^ (q'.tryCount / cfg.nservers) :=
      Nat.mul_pos hT (Nat.two_pow_pos _)
    have htp : 0 < tp ∧ tp < 2 ^ 63 := by
      rw [show tp = _ from timeplus_eq _ _ _]
      split <;> omega
    have hmicros : (timeadd now tp).micros = now.micros + tp * 1000 := timeadd_micros_of_lt htp.2
    have hnorm : (timeadd now tp).Normal := timeadd_eq.2 hn
    rw [harm, timeoutCmp_nonpos_iff]
    simp only [Timeval.micros, Timeval.Normal] at hmicros hnorm hn
    omega

theorem process_timeouts_clears_expired_tcSent :
    Reachable loopCfg tcEnv tcSent ∧ (⟨100, 0⟩ : Timeval).Normal ∧ 0 < loopCfg.timeout ∧
      loopCfg.timeout < 2 ^ 63 ∧
      ∀ h q', (processTimeouts loopCfg tcEnv tcSent ⟨100, 0⟩).queries h = some q' →
        aresTimedout ⟨100, 0⟩ q'.timeout = false :=
  ⟨tcSent_reachable, by decide, by decide, by decide,
    process_timeouts_clears_expired tcSent_reachable (by decide) (by decide) (by decide)⟩

theorem handle_callback_count_tcIdle :
    (tcIdle.trace.filterMap Event.callbackOf).count 0 = 1 := by
  have r : Reachable loopCfg tcEnv tcIdle :=
    .process _ _ _ _ _ (.process _ _ _ _ _ (.process _ _ _ _ _ tcSent_reachable))
  rw [handle_callback_count r 0]
  decide

end CAres
