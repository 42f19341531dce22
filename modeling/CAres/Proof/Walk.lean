import CAres.Proof.Deadlines
import CAres.Spec.Registry

/-! # The walk of `process_timeouts`

`process_timeouts` walks `queries_by_timeout` from its head, applies the timeout step to each
query whose deadline has passed, and stops at the first one whose deadline has not. The step
drops the query's entry and, if the query is sent again, inserts it at its new deadline; the
walk goes on with the successor it cached before the step.

`TimeoutRun` says what the walk is for: a sequence of timeout steps, each applied to a live
query whose deadline has passed when the walk reaches it, in non-decreasing order of those
deadlines. `processTimeouts_walk` proves that the walk is such a run, and that the run takes
every query whose deadline had passed at entry, at that deadline. The cached successor is
enough because the list stays sorted and the step only moves the entry of its own query: the
part of the list from the cursor on still holds every query not yet stepped. The rounds are
bounded by `roundsLeft`, the tries `next_server` has left over the list, which every step
lowers; the walk's fuel is above it.

In every reachable state `queries_by_timeout` holds exactly the live queries, once each and in
the order of `ares_query_timeout_cmp_cb` (`Reachable.sorted`). The early break of the walk is
sound because `ares__timedout(now, d)` holds exactly when that comparator puts `d` at or before
`now` (`aresTimedout_iff`); so from every reachable state `process_timeouts` is a `TimeoutRun`
that takes every query whose deadline had passed at entry (`process_timeouts_in_order`). -/

namespace CAres

open Function

variable (cfg : Config) (env : Env)

/-- The timeout step `process_timeouts` applies to query `h` with record `q`: record the
timeout, call `next_server`, and try to clean up the query's former connection. Reading
`query->conn` of a query whose connection is gone is recorded as a fault. -/
def timeoutStep (ch : Channel) (h : QueryId) (q : Query) (now : Timeval) : Channel :=
  let q := { q with errorStatus := .etimeout, timeouts := q.timeouts + 1 }
  let c := q.conn.getD 0
  let ch := if q.conn.isSome && (ch.conns c).isSome then ch
    else ch.emit (.fault (.staleQueryConn h))
  let fd := ch.connFd c
  (nextServer cfg env ch h q now).checkCleanupConn cfg fd

/-- The tries `next_server` has left over the queries of `queries_by_timeout`, one more for
each: every timeout step lowers it. -/
def roundsLeft (ch : Channel) : Nat :=
  ch.queriesByTimeout.foldr
    (fun x n => loopBound cfg + 1 - ((ch.queries x).map Query.tryCount).getD 0 + n) 0

/-- A run of timeout steps from `ch` to `ch'` that steps the queries of `V` in turn, at the
deadlines listed: each is live when reached, its deadline is at or before `now`, and not
before the deadline `last` of the query stepped before it. -/
inductive TimeoutRun (now : Timeval) : Option Timeval → Channel → List (QueryId × Timeval) →
    Channel → Prop
  | done (last : Option Timeval) (ch : Channel) : TimeoutRun now last ch [] ch
  | step {last : Option Timeval} {ch ch' : Channel} {h : QueryId} {q : Query}
      {V : List (QueryId × Timeval)} :
      ch.queries h = some q → (∀ d, last = some d → timeoutCmp d q.timeout ≤ 0) →
      timeoutCmp q.timeout now ≤ 0 →
      TimeoutRun now (some q.timeout) (timeoutStep cfg env ch h q now) V ch' →
      TimeoutRun now last ch ((h, q.timeout) :: V) ch'

variable {cfg env} {ch ch' : Channel} {h : QueryId} {q : Query} {now : Timeval}

theorem processTimeoutsLoop_some (fuel : Nat) (ch : Channel) (h : QueryId) :
    processTimeoutsLoop cfg env now (fuel + 1) ch (some h) =
      match ch.queries h with
      | none => ch.emit (.fault (.queryAfterEnd h))
      | some q =>
        if aresTimedout now q.timeout then
          processTimeoutsLoop cfg env now fuel (timeoutStep cfg env ch h q now)
            (slistNext h ch.queriesByTimeout)
        else ch := rfl

/-! ## The step -/

/-- The try count of a live query is that of one of its primary sends: 0, or a round of
`next_server` below the loop's bound. -/
theorem Retry.tryCount_le (hr : Retry cfg ch) (hq : ch.queries h = some q) :
    q.tryCount ≤ loopBound cfg := by
  obtain ⟨s, c, hm⟩ := (hr.live hq).sent
  obtain ⟨s', c', hm', hp⟩ := hr.toHistory.primary_of_mem hm
  obtain ⟨s0, -, -, hinit, hnext⟩ := hr.sent (mem_sendsOf.mp hm')
  cases c' with
  | initial => rw [hinit rfl]; exact Nat.zero_le _
  | nextServer => exact (hnext rfl).2.le
  | tcpUpgrade | ednsFallback => cases hp

theorem Rearmed.cleanup (hr : Rearmed h ch ch') (fd : Nat) :
    Rearmed h ch (ch'.checkCleanupConn cfg fd) := by
  unfold Rearmed
  rwa [checkCleanupConn_queries, SlistSorted.checkCleanupConn_queriesByTimeout]

/-- What the timeout step does: it keeps the invariant, touches no other query, rearms the
query's entry, and either ends the query or sends it in a later round of `next_server`. -/
theorem timeoutStep_spec (env : Env) (now : Timeval) (hi : Inv cfg ch)
    (hq : ch.queries h = some q) :
    Inv cfg (timeoutStep cfg env ch h q now) ∧
      (∀ {x}, x ≠ h → (timeoutStep cfg env ch h q now).queries x = ch.queries x) ∧
      Rearmed h ch (timeoutStep cfg env ch h q now) ∧
      ((timeoutStep cfg env ch h q now).queries h = none ∨
        ∃ q', (timeoutStep cfg env ch h q now).queries h = some q' ∧
          q.tryCount < q'.tryCount ∧ q'.tryCount < loopBound cfg) := by
  have step : ∀ {ch₁ : Channel}, Inv cfg ch₁ → ch₁.queries = ch.queries →
      ch₁.queriesByTimeout = ch.queriesByTimeout → ∀ fd,
      let ch' := (nextServer cfg env ch₁ h
        { q with errorStatus := .etimeout, timeouts := q.timeouts + 1 } now).checkCleanupConn cfg fd
      Inv cfg ch' ∧ (∀ {x}, x ≠ h → ch'.queries x = ch.queries x) ∧ Rearmed h ch ch' ∧
        (ch'.queries h = none ∨ ∃ q', ch'.queries h = some q' ∧
          q.tryCount < q'.tryCount ∧ q'.tryCount < loopBound cfg) := by
    intro ch₁ hi₁ hq₁ hl₁ fd
    have hq' : ch₁.queries h = some q := hq₁ ▸ hq
    have hh₀ := Held.of_stored hi₁.wf hq'
    have hh : Held cfg ch₁ h { q with errorStatus := .etimeout, timeouts := q.timeouts + 1 } :=
      hh₀.congr rfl rfl hh₀.server_lt (show Status.etimeout ≠ .success by decide)
    have p : Post cfg h ch₁ (nextServer cfg env ch₁ h _ now) := nextServer_post hi₁.wf hh
    have hr : Retry cfg (nextServer cfg env ch₁ h _ now) :=
      hi₁.retry.nextServer hi₁.wf hh ⟨q, hq', rfl, rfl, id⟩
    obtain ⟨s0, -, hs⟩ := (hi₁.retry.live hq').origin
    refine ⟨((hi₁.dispatch p hr).checkCleanupConn fd).1, fun hx => ?_, ?_, ?_⟩
    · rw [checkCleanupConn_queries, p.2.1.others hx, hq₁]
    · have hre : Rearmed h ch₁ ((nextServer cfg env ch₁ h _ now).checkCleanupConn cfg fd) :=
        (nextServerLoop_rearmed _ hi₁.wf hh).cleanup fd
      unfold Rearmed at hre ⊢
      rwa [hq₁, hl₁] at hre
    · rw [checkCleanupConn_queries]
      rcases nextServer_outcome hi₁.wf hh hs with ⟨-, hn⟩ | ⟨q', -, -, hq'', -, -, -, -, hk⟩ |
        ⟨-, -, -, hn, -⟩
      · exact .inl hn
      · obtain ⟨⟨⟩, -⟩ | ⟨-, hlt, hlb⟩ := hk
        exact .inr ⟨q', by rw [hq'', update_same], hlt, hlb⟩
      · exact .inl hn
  unfold timeoutStep
  dsimp only
  split
  · exact step hi rfl rfl _
  · exact step (hi.emit (by simp [Event.Benign, Event.callbackOf]) (by trivial) (by trivial)
      (by exact nofun) (by rintro f ⟨⟩; trivial)) rfl rfl _

/-- Every timeout step lowers `roundsLeft`. -/
theorem roundsLeft_lt (hw : Wf cfg ch) (hm : h ∈ ch.queriesByTimeout)
    (hq : ch.queries h = some q) (hle : q.tryCount ≤ loopBound cfg)
    (ho : ∀ {x}, x ≠ h → ch'.queries x = ch.queries x) (hr : Rearmed h ch ch')
    (ht : ch'.queries h = none ∨ ∃ q', ch'.queries h = some q' ∧
      q.tryCount < q'.tryCount ∧ q'.tryCount < loopBound cfg) :
    roundsLeft cfg ch' < roundsLeft cfg ch := by
  let f (c : Channel) (x : QueryId) : Nat :=
    loopBound cfg + 1 - ((c.queries x).map Query.tryCount).getD 0
  have hfold : ∀ c : Channel, roundsLeft cfg c = (c.queriesByTimeout.map (f c)).foldr (· + ·) 0 :=
    fun c => (List.foldr_map ..).symm
  have hperm : ∀ {l l' : List Nat}, l.Perm l' → l.foldr (· + ·) 0 = l'.foldr (· + ·) 0 :=
    fun p => p.foldr_eq' (fun _ _ _ _ _ => by omega) 0
  have hrest : (ch.queriesByTimeout.erase h).map (f ch') =
      (ch.queriesByTimeout.erase h).map (f ch) := List.map_congr_left fun x hx => by
    have : x ≠ h := fun e => hw.slist_nodup.not_mem_erase (e ▸ hx)
    simp only [f, ho this]
  have hsum : roundsLeft cfg ch =
      f ch h + ((ch.queriesByTimeout.erase h).map (f ch)).foldr (· + ·) 0 := by
    rw [hfold, hperm ((List.perm_cons_erase hm).map (f ch))]; rfl
  have hfh : f ch h = loopBound cfg + 1 - q.tryCount := by simp [f, hq]
  rcases hr with ⟨-, hl⟩ | ⟨q', hq', hl⟩
  · have : roundsLeft cfg ch' = ((ch.queriesByTimeout.erase h).map (f ch)).foldr (· + ·) 0 := by
      rw [hfold, hl, hrest]
    omega
  · have hp := (insertByTimeout_perm ch.queries h q'.timeout (ch.queriesByTimeout.erase h)).map
      (f ch')
    have : roundsLeft cfg ch' =
        f ch' h + ((ch.queriesByTimeout.erase h).map (f ch)).foldr (· + ·) 0 := by
      rw [hfold, hl, hperm hp, List.map_cons, List.foldr_cons, hrest]
    have hf' : f ch' h = loopBound cfg + 1 - q'.tryCount := by simp [f, hq']
    rcases ht with hn | ⟨q'', hq'', hlt, hlb⟩
    · rw [hq'] at hn; cases hn
    · rw [hq'] at hq''; cases hq''; omega

/-! ## The cursor -/

theorem slistNext_split {A B : List QueryId} (hA : h ∉ A) :
    slistNext h (A ++ h :: B) = B.head? := by
  induction A with
  | nil => simp [slistNext]
  | cons a A ih =>
    have ha : a ≠ h := fun e => hA (e ▸ List.mem_cons_self _ _)
    rw [List.cons_append, slistNext, if_neg ha, ih fun hm => hA (List.mem_cons_of_mem _ hm)]

/-- `insertByTimeout` puts the new entry somewhere in the list. -/
theorem insertByTimeout_split (Q : QueryId → Option Query) (t : Timeval) :
    ∀ l : List QueryId, ∃ l₁ l₂, l = l₁ ++ l₂ ∧ insertByTimeout Q h t l = l₁ ++ h :: l₂
  | [] => ⟨[], [], rfl, rfl⟩
  | x :: rest => by
    obtain ⟨l₁, l₂, hl, hi⟩ := insertByTimeout_split Q t rest
    unfold insertByTimeout
    split
    · split
      · exact ⟨x :: l₁, l₂, by rw [hl]; rfl, by rw [hi]; rfl⟩
      · exact ⟨[], x :: rest, rfl, rfl⟩
    · exact ⟨x :: l₁, l₂, by rw [hl]; rfl, by rw [hi]; rfl⟩

/-- After the entry of `h` is dropped from `A ++ h :: B` and perhaps put back anywhere, the list
again splits at the entry that followed `h`, and the part from there holds what `B` held and
perhaps `h`. -/
theorem rearm_split {A B L' : List QueryId}
    (hL : L' = A ++ B ∨ ∃ l₁ l₂, A ++ B = l₁ ++ l₂ ∧ L' = l₁ ++ h :: l₂) :
    ∃ A' B', L' = A' ++ B' ∧ B'.head? = B.head? ∧ (∀ x ∈ B, x ∈ B') ∧
      ∀ x ∈ B', x ∈ B ∨ x = h := by
  rcases hL with rfl | ⟨l₁, l₂, hsplit, rfl⟩
  · exact ⟨A, B, rfl, rfl, fun _ => id, fun _ => .inl⟩
  rcases List.append_eq_append_iff.mp hsplit with ⟨a', rfl, rfl⟩ | ⟨c', rfl, rfl⟩
  · rcases a' with _ | ⟨n, a'⟩
    · exact ⟨A ++ [h], l₂, by simp, rfl, fun _ => id, fun _ => .inl⟩
    · refine ⟨A, n :: (a' ++ h :: l₂), by simp, rfl, fun x hx => ?_, fun x hx => ?_⟩ <;>
        simp only [List.mem_cons, List.mem_append] at hx ⊢ <;> tauto
  · exact ⟨l₁ ++ h :: c', B, by simp, rfl, fun _ => id, fun _ => .inl⟩

/-! ## The walk -/

/-- In a list sorted by deadline whose rest `B'` starts where `B` did, every deadline of `B'`
is at or after `d` when every deadline of `B` is: the head keeps its deadline, and the rest
follow it. -/
theorem deadline_after_head {D D' : QueryId → Option Timeval} {d : Timeval}
    {A' B B' : List QueryId} (hsorted : (A' ++ B').Pairwise (DeadlineLe D'))
    (hhead : B'.head? = B.head?) (hkeep : ∀ n ∈ B.head?, D' n = D n)
    (hlive : ∀ n ∈ B.head?, (D n).isSome)
    (hafter : ∀ x ∈ B, ∀ t, D x = some t → timeoutCmp d t ≤ 0) :
    ∀ x ∈ B', ∀ t, D' x = some t → timeoutCmp d t ≤ 0 := by
  intro x hx t ht
  obtain ⟨n, R, rfl⟩ := List.exists_cons_of_ne_nil (List.ne_nil_of_mem hx)
  have hn : n ∈ B.head? := hhead ▸ rfl
  obtain ⟨tn, htn⟩ := Option.isSome_iff_exists.mp (hlive n hn)
  have hdn : D' n = some tn := (hkeep n hn).trans htn
  have hd := hafter n (List.mem_of_mem_head? hn) tn htn
  rcases List.mem_cons.mp hx with rfl | hx
  · rw [hdn] at ht; cases ht; exact hd
  · exact timeoutCmp_trans hd
      (List.rel_of_pairwise_cons (List.pairwise_append.mp hsorted).2.1 hx _ _ hdn ht)

/-- The walk from the cursor at the head of `B`, where `queries_by_timeout` is `A ++ B`, with
fuel above `roundsLeft`, and `last` the deadline of the query stepped before, at or before
every deadline in `B`: it is a run of timeout steps that takes every query of `B` whose deadline
has passed, at that deadline, and it leaves the list sorted. -/
theorem processTimeoutsLoop_walk :
    ∀ (fuel : Nat) {ch : Channel} {A B : List QueryId} {last : Option Timeval},
      Inv cfg ch → SlistSorted ch → ch.queriesByTimeout = A ++ B → roundsLeft cfg ch < fuel →
      (∀ d, last = some d → ∀ x ∈ B, ∀ t, ch.deadline x = some t → timeoutCmp d t ≤ 0) →
      ∃ V, TimeoutRun cfg env now last ch V
          (processTimeoutsLoop cfg env now fuel ch B.head?) ∧
        SlistSorted (processTimeoutsLoop cfg env now fuel ch B.head?) ∧
        ∀ x q, x ∈ B → ch.queries x = some q → timeoutCmp q.timeout now ≤ 0 →
          (x, q.timeout) ∈ V
  | 0, _, _, _, _, _, _, _, hf, _ => absurd hf (Nat.not_lt_zero _)
  | fuel + 1, ch, A, [], last, _, hs, _, _, _ =>
    ⟨[], .done _ _, hs, fun _ _ hx => absurd hx (List.not_mem_nil _)⟩
  | fuel + 1, ch, A, h :: B, last, hi, hs, hl, hf, hlast => by
    have hm : h ∈ ch.queriesByTimeout := by simp [hl]
    obtain ⟨q, hq⟩ := Option.isSome_iff_exists.mp (hi.wf.slist_live hm)
    have hsorted : (A ++ h :: B).Pairwise (DeadlineLe ch.deadline) := by
      unfold SlistSorted at hs; rwa [hl] at hs
    have hdq : ch.deadline h = some q.timeout := by simp [Channel.deadline, hq]
    have hafter : ∀ x ∈ B, ∀ t, ch.deadline x = some t → timeoutCmp q.timeout t ≤ 0 :=
      fun x hx t ht => List.rel_of_pairwise_cons (List.pairwise_append.mp hsorted).2.1 hx _ _
        hdq ht
    rw [List.head?_cons, processTimeoutsLoop_some]
    simp only [hq]
    split
    case isFalse hnot =>
      refine ⟨[], .done _ _, hs, fun x q' hx hq' hle => absurd ?_ hnot⟩
      rcases List.mem_cons.mp hx with rfl | hx
      · rw [hq] at hq'; cases hq'; exact aresTimedout_iff.mpr hle
      · exact aresTimedout_iff.mpr (timeoutCmp_trans
          (hafter x hx _ (by simp [Channel.deadline, hq'])) hle)
    case isTrue hdue =>
      have hnodup : (A ++ h :: B).Nodup := hl ▸ hi.wf.slist_nodup
      have hA : h ∉ A := fun hA => (List.nodup_middle.mp hnodup |> List.nodup_cons.mp).1
        (List.mem_append_left _ hA)
      obtain ⟨hi', ho, hr, ht⟩ := timeoutStep_spec env now hi hq
      have hB : h ∉ B := (List.nodup_cons.mp (List.nodup_middle.mp hnodup)).1 ∘
        List.mem_append_right _
      have hL : (timeoutStep cfg env ch h q now).queriesByTimeout = A ++ B ∨
          ∃ l₁ l₂, A ++ B = l₁ ++ l₂ ∧
            (timeoutStep cfg env ch h q now).queriesByTimeout = l₁ ++ h :: l₂ := by
        have he : ch.queriesByTimeout.erase h = A ++ B := by
          rw [hl, List.erase_append_right _ hA, List.erase_cons_head]
        rcases hr with ⟨-, hl'⟩ | ⟨q', -, hl'⟩
        · exact .inl (hl'.trans he)
        · obtain ⟨l₁, l₂, hs₁, hs₂⟩ := insertByTimeout_split (h := h) ch.queries q'.timeout
            (ch.queriesByTimeout.erase h)
          exact .inr ⟨l₁, l₂, he ▸ hs₁, hl'.trans hs₂⟩
      obtain ⟨A', B', hl', hhead, hsub, hsup⟩ := rearm_split hL
      have hs' := hs.dispatch hi.wf ho hr
      have hlast' : ∀ d, some q.timeout = some d → ∀ x ∈ B', ∀ t,
          (timeoutStep cfg env ch h q now).deadline x = some t → timeoutCmp d t ≤ 0 := by
        rintro d ⟨⟩
        refine deadline_after_head (by unfold SlistSorted at hs'; rwa [hl'] at hs') hhead
          (fun n hn => ?_) (fun n hn => ?_) hafter
        · simp only [Channel.deadline, ho (fun e => hB (e ▸ List.mem_of_mem_head? hn))]
        · simpa [Channel.deadline] using
            hi.wf.slist_live (by simp [hl, List.mem_of_mem_head? hn] : n ∈ ch.queriesByTimeout)
      have hround := roundsLeft_lt hi.wf hm hq (hi.retry.tryCount_le hq) ho hr ht
      obtain ⟨V, hrun, hsort, hpend⟩ :=
        processTimeoutsLoop_walk fuel hi' hs' hl' (by omega) hlast'
      rw [hl, slistNext_split hA, ← hhead]
      refine ⟨(h, q.timeout) :: V, .step hq (fun d hd => hlast d hd h (List.mem_cons_self _ _)
        _ hdq) (aresTimedout_iff.mp hdue) hrun, hsort, fun x q' hx hq' hle => ?_⟩
      rcases List.mem_cons.mp hx with rfl | hx
      · rw [hq] at hq'; cases hq'; exact List.mem_cons_self _ _
      · have hne : x ≠ h := fun e => hB (e ▸ hx)
        exact List.mem_cons_of_mem _ (hpend x q' (hsub x hx) (by rw [ho hne]; exact hq') hle)

/-- The fuel `process_timeouts` gives its walk is above `roundsLeft`. -/
theorem roundsLeft_le (ch : Channel) :
    roundsLeft cfg ch ≤ ch.queriesByTimeout.length * (loopBound cfg + 1) := by
  unfold roundsLeft
  induction ch.queriesByTimeout with
  | nil => simp
  | cons x l ih => rw [List.foldr_cons, List.length_cons, Nat.succ_mul]; omega

/-- `process_timeouts` on a sorted state is a run of timeout steps that takes every query
whose deadline has passed, and it leaves the list sorted. -/
theorem processTimeouts_walk (env : Env) (hi : Inv cfg ch) (hs : SlistSorted ch) (now : Timeval) :
    ∃ V, TimeoutRun cfg env now none ch V (processTimeouts cfg env ch now) ∧
      SlistSorted (processTimeouts cfg env ch now) ∧
      ∀ h q, ch.queries h = some q → timeoutCmp q.timeout now ≤ 0 → (h, q.timeout) ∈ V := by
  have hle : roundsLeft cfg ch ≤ _ := roundsLeft_le ch
  obtain ⟨V, hrun, hsort, hpend⟩ := @processTimeoutsLoop_walk cfg env now
    (ch.queriesByTimeout.length * (loopBound cfg + 1) + 1) ch [] ch.queriesByTimeout none hi hs
    rfl (by omega) (fun _ h => by cases h)
  exact ⟨V, hrun, hsort, fun h q hq hle => hpend h q (hi.settled h q hq).1 hq hle⟩

/-- Registering a fresh query and dispatching it, or refusing it, keeps the order. -/
theorem SlistSorted.aresSend (hi : Inv cfg ch) (hs : SlistSorted ch) {id : Nat}
    (hid : ch.queriesByQid id = none) {qbuf : Bytes} :
    SlistSorted (CAres.aresSend cfg env ch id qbuf now) := by
  unfold CAres.aresSend
  dsimp only
  split
  · exact hs
  split
  · exact hs
  have hfresh : ∀ x ∈ ch.queriesByTimeout, x ≠ ch.nextQuery := fun x hx e => by
    simpa [e, hi.wf.query_fresh (Nat.le_refl _)] using hi.wf.slist_live hx
  refine SlistSorted.sendQuery (hi.wf.submit hid rfl rfl hi.wf.last_server
    (show Status.econnrefused ≠ .success by decide) _ ?_ _ (.submitted _ _)
    (by simp [Event.Benign, Event.callbackOf])) (DeadlineLe.congr hs fun x hx => ?_)
    (Held.of_stored ?_ (update_same _ _ _))
  · split
    · exact Nat.mod_lt _ cfg.nservers_pos
    · exact hi.wf.last_server
  · simp [Channel.deadline, update_noteq (hfresh x hx)]
  · exact hi.wf.submit hid rfl rfl hi.wf.last_server
      (show Status.econnrefused ≠ .success by decide) _
      (by split; exact Nat.mod_lt _ cfg.nservers_pos; exact hi.wf.last_server) _ (.submitted _ _)
      (by simp [Event.Benign, Event.callbackOf])

/-- Every state of every run has `queries_by_timeout` in deadline order. -/
theorem Reachable.slistSorted (hr : Reachable cfg env ch) : SlistSorted ch := by
  induction hr with
  | init flags addrs => exact List.Pairwise.nil
  | send id qbuf now hr _ hid ih => exact ih.aresSend hr.inv hid
  | @process ch₀ readFds readFd writeFds writeFd now hr ih =>
    have hi : Inv cfg (writeTcpData cfg env ch₀ writeFds writeFd now) := hr.inv.writeTcpData
    have hs : SlistSorted (readPackets cfg env (writeTcpData cfg env ch₀ writeFds writeFd now)
        readFds readFd now) :=
      (ih.writeTcpData hr.inv : SlistSorted (writeTcpData cfg env ch₀ writeFds writeFd now)
        ).readPackets hi
    obtain ⟨-, -, hsort, -⟩ := processTimeouts_walk env hi.readPackets hs now
    exact hsort

/-- In every reachable state `queries_by_timeout` holds every live query once and nothing
else, in the order of `ares_query_timeout_cmp_cb` on their deadlines. -/
theorem Reachable.sorted (hr : Reachable cfg env ch) :
    ch.queriesByTimeout.Nodup ∧ (∀ h, h ∈ ch.queriesByTimeout ↔ (ch.queries h).isSome) ∧
      SlistSorted ch :=
  ⟨hr.inv.wf.slist_nodup, fun _ => hr.inv.mem_slist, hr.slistSorted⟩

theorem sorted_tcSent :
    Reachable loopCfg tcEnv tcSent ∧ tcSent.queriesByTimeout.Nodup ∧
      (∀ h, h ∈ tcSent.queriesByTimeout ↔ (tcSent.queries h).isSome) ∧ SlistSorted tcSent :=
  ⟨tcSent_reachable, Reachable.sorted tcSent_reachable⟩

/-- From every reachable state and at every time, `process_timeouts` applies the timeout step
to every query whose deadline is at or before `now` at entry, and to no query whose deadline is
after `now` when the walk reaches it, in non-decreasing deadline order; the early break agrees
with the comparator on every pair of times. -/
theorem process_timeouts_in_order (hr : Reachable cfg env ch) (now : Timeval) :
    (∀ a d : Timeval, aresTimedout a d = true ↔ timeoutCmp d a ≤ 0) ∧
      ∃ V, TimeoutRun cfg env now none ch V (processTimeouts cfg env ch now) ∧
        ∀ h q, ch.queries h = some q → timeoutCmp q.timeout now ≤ 0 → (h, q.timeout) ∈ V :=
  let ⟨V, hrun, _, hall⟩ := processTimeouts_walk env hr.inv hr.slistSorted now
  ⟨fun _ _ => aresTimedout_iff, V, hrun, hall⟩

theorem process_timeouts_in_order_tcSent :
    Reachable loopCfg tcEnv tcSent ∧
      (∀ a d : Timeval, aresTimedout a d = true ↔ timeoutCmp d a ≤ 0) ∧
        ∃ V, TimeoutRun loopCfg tcEnv ⟨5, 0⟩ none tcSent V
            (processTimeouts loopCfg tcEnv tcSent ⟨5, 0⟩) ∧
          ∀ h q, tcSent.queries h = some q → timeoutCmp q.timeout ⟨5, 0⟩ ≤ 0 →
            (h, q.timeout) ∈ V :=
  ⟨tcSent_reachable, process_timeouts_in_order tcSent_reachable _⟩

end CAres
