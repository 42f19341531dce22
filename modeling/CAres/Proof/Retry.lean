import CAres.Proof.Dispatch

/-! # The tries of a query

Every send of a query is recorded with its server, its try count and its cause
(`Event.sent`). `History` is what the sends of all queries satisfy in every state: a send
goes to the query's initial server moved on by its try count; the try counts of a query's
sends never go down, and only its first send and the rounds of `next_server` make a new one;
the switch to TCP sends a query at most once, and the EDNS fallback sends at most once per
channel. The record of a live query is in step with its sends (`Record`).

A dispatch records at most one send (`Outcome`): the first attempt of `ares__send_query`
under the cause it was called with, or a round of `next_server`, which moves the try count
and the server on together. Every other step of the engine is `Quiet`: it records no send
and keeps the server, the try count and the transport of every query it keeps. -/

namespace CAres

open Function

variable {cfg : Config} {env : Env}

/-! ## Sends in a trace -/

/-- The send of query `h` an event records: its server, try count and cause. -/
def Event.sendOf (h : QueryId) : Event → Option (Nat × Nat × Cause)
  | .sent h' s k c => if h' = h then some (s, k, c) else none
  | _ => none

/-- The sends of query `h` recorded in a trace, newest first. -/
def sendsOf (h : QueryId) (tr : List Event) : List (Nat × Nat × Cause) :=
  tr.filterMap (Event.sendOf h)

/-- The query an event records the submission of. -/
def Event.submittedOf : Event → Option QueryId
  | .submitted h _ => some h
  | _ => none

/-- The sends under the EDNS fallback recorded in a trace. -/
def fallbacks (tr : List Event) : Nat :=
  tr.countP fun e => e matches .sent _ _ _ .ednsFallback

/-- The causes that make a new try: the submission and `next_server`. -/
def Cause.primary : Cause → Bool
  | .initial | .nextServer => true
  | .tcpUpgrade | .ednsFallback => false

/-- An event that is neither a send nor a submission. -/
def Event.Silent : Event → Prop
  | .sent .. | .submitted .. => False
  | _ => True

theorem mem_sendsOf {h s k : Nat} {c : Cause} {tr : List Event} :
    (s, k, c) ∈ sendsOf h tr ↔ Event.sent h s k c ∈ tr := by
  simp only [sendsOf, List.mem_filterMap]
  constructor
  · rintro ⟨e, he, hs⟩
    cases e <;> simp only [Event.sendOf, reduceCtorEq] at hs
    split at hs
    · cases hs; subst_vars; exact he
    · cases hs
  · exact fun he => ⟨_, he, by simp [Event.sendOf]⟩

@[simp] theorem sendsOf_sent {h h' s k : Nat} {c : Cause} {tr : List Event} :
    sendsOf h (.sent h' s k c :: tr) =
      if h' = h then (s, k, c) :: sendsOf h tr else sendsOf h tr := by
  by_cases e : h' = h <;> simp [sendsOf, Event.sendOf, e]

section Silent

variable {evs tr : List Event} (hs : ∀ e ∈ evs, e.Silent)
include hs

theorem sendsOf_silent (h : QueryId) : sendsOf h (evs ++ tr) = sendsOf h tr := by
  induction evs with
  | nil => rfl
  | cons e rest ih =>
    have he := hs e (List.mem_cons_self _ _)
    have ih := ih fun e' h' => hs e' (List.mem_cons_of_mem _ h')
    cases e <;> first | exact he.elim | exact ih

theorem submittedOf_silent :
    (evs ++ tr).filterMap Event.submittedOf = tr.filterMap Event.submittedOf := by
  induction evs with
  | nil => rfl
  | cons e rest ih =>
    have he := hs e (List.mem_cons_self _ _)
    have ih := ih fun e' h' => hs e' (List.mem_cons_of_mem _ h')
    cases e <;> first | exact he.elim | exact ih

theorem fallbacks_silent : fallbacks (evs ++ tr) = fallbacks tr := by
  rw [fallbacks, List.countP_append, List.countP_eq_zero.mpr fun e he => ?_, Nat.zero_add]
  · rfl
  · have := hs e he
    cases e <;> first | exact this.elim | exact Bool.false_ne_true

theorem mem_submitted_silent {h s0 : Nat} :
    Event.submitted h s0 ∈ evs ++ tr ↔ Event.submitted h s0 ∈ tr :=
  ⟨fun hm => (List.mem_append.mp hm).resolve_left fun he => hs _ he, List.mem_append_right _⟩

theorem mem_sent_silent {h s k : Nat} {c : Cause} :
    Event.sent h s k c ∈ evs ++ tr ↔ Event.sent h s k c ∈ tr :=
  ⟨fun hm => (List.mem_append.mp hm).resolve_left fun he => hs _ he, List.mem_append_right _⟩

end Silent

/-! ## The invariant -/

/-- What the trace says of the sends of every query. Traces are newest first, so a list
that is `Pairwise (· ≥ ·)` never goes down over time. -/
structure History (cfg : Config) (ch : Channel) : Prop where
  submitted : ∀ {h s0}, Event.submitted h s0 ∈ ch.trace → h < ch.nextQuery ∧ s0 < cfg.nservers
  submitted_once : (ch.trace.filterMap Event.submittedOf).Nodup
  sent : ∀ {h s k c}, Event.sent h s k c ∈ ch.trace → ∃ s0, Event.submitted h s0 ∈ ch.trace ∧
    s = (s0 + k) % cfg.nservers ∧ (c = .initial → k = 0) ∧
    (c = .nextServer → 0 < k ∧ k < loopBound cfg)
  tries_mono : ∀ h, ((sendsOf h ch.trace).map (·.2.1)).Pairwise (· ≥ ·)
  primary_lt : ∀ h, (((sendsOf h ch.trace).filter (·.2.2.primary)).map (·.2.1)).Pairwise (· > ·)
  repeats : ∀ {h s k c}, (s, k, c) ∈ sendsOf h ch.trace → c.primary = false →
    ∃ s' c', (s', k, c') ∈ sendsOf h ch.trace ∧ c'.primary = true
  upgrade_once : ∀ h, (sendsOf h ch.trace).countP (·.2.2 == .tcpUpgrade) ≤ 1
  fallback_once : fallbacks ch.trace ≤ 1
  fallback_edns : 0 < fallbacks ch.trace → ch.flags.edns = false

/-- What holds of the record `q` of query `h` before a dispatch: its server is its initial
server moved on by its try count, no send of it has a larger try count, and once the switch
to TCP has sent it, it is over TCP. -/
structure Pending (cfg : Config) (tr : List Event) (h : QueryId) (q : Query) : Prop where
  origin : ∃ s0, Event.submitted h s0 ∈ tr ∧ q.server = (s0 + q.tryCount) % cfg.nservers
  tries_le : ∀ {s k c}, (s, k, c) ∈ sendsOf h tr → k ≤ q.tryCount
  upgraded : ∀ {s k}, (s, k, Cause.tcpUpgrade) ∈ sendsOf h tr → q.usingTcp = true

/-- The record of a live query: pending, and its try count is that of one of its sends. -/
structure Record (cfg : Config) (tr : List Event) (h : QueryId) (q : Query)
    extends Pending cfg tr h q : Prop where
  sent : ∃ s c, (s, q.tryCount, c) ∈ sendsOf h tr

/-- The invariant of the sends: the history, and every live record in step with it. -/
structure Retry (cfg : Config) (ch : Channel) extends History cfg ch : Prop where
  live : ∀ {h q}, ch.queries h = some q → Record cfg ch.trace h q

/-- A record with the same server, try count and transport, over a trace with the same
submission of `h` and the same sends of `h`. -/
theorem Pending.congr {tr tr' : List Event} {h : QueryId} {q q' : Query}
    (hp : Pending cfg tr h q)
    (hsub : ∀ {s0}, Event.submitted h s0 ∈ tr → Event.submitted h s0 ∈ tr')
    (hsends : sendsOf h tr' = sendsOf h tr) (hsrv : q'.server = q.server)
    (htry : q'.tryCount = q.tryCount) (htcp : q'.usingTcp = q.usingTcp) : Pending cfg tr' h q' :=
  ⟨let ⟨s0, hm, he⟩ := hp.origin; ⟨s0, hsub hm, by rw [hsrv, htry, he]⟩,
    fun hm => htry ▸ hp.tries_le (hsends ▸ hm), fun hm => htcp ▸ hp.upgraded (hsends ▸ hm)⟩

theorem Record.congr {tr tr' : List Event} {h : QueryId} {q q' : Query}
    (hr : Record cfg tr h q) (hsub : ∀ {s0}, Event.submitted h s0 ∈ tr → Event.submitted h s0 ∈ tr')
    (hsends : sendsOf h tr' = sendsOf h tr) (hsrv : q'.server = q.server)
    (htry : q'.tryCount = q.tryCount) (htcp : q'.usingTcp = q.usingTcp) : Record cfg tr' h q' :=
  ⟨hr.toPending.congr hsub hsends hsrv htry htcp,
    let ⟨s, c, hm⟩ := hr.sent; ⟨s, c, by rw [hsends, htry]; exact hm⟩⟩

/-! ## Quiet steps -/

/-- A step that records neither a send nor a submission, keeps the server, the try count and
the transport of every query it keeps, gives out no handle twice, and only clears the EDNS
flag. -/
structure Quiet (ch ch' : Channel) : Prop where
  trace : ∃ evs, ch'.trace = evs ++ ch.trace ∧ ∀ e ∈ evs, e.Silent
  queries : ∀ {h q'}, ch'.queries h = some q' → ∃ q, ch.queries h = some q ∧
    q'.server = q.server ∧ q'.tryCount = q.tryCount ∧ q'.usingTcp = q.usingTcp
  nextQuery : ch.nextQuery ≤ ch'.nextQuery
  edns : ch'.flags.edns = true → ch.flags.edns = true

namespace Quiet

variable {ch ch' ch₁ : Channel}

theorem refl (ch : Channel) : Quiet ch ch :=
  ⟨⟨[], rfl, by simp⟩, fun hq => ⟨_, hq, rfl, rfl, rfl⟩, Nat.le_refl _, id⟩

theorem trans (q₁ : Quiet ch ch₁) (q₂ : Quiet ch₁ ch') : Quiet ch ch' where
  trace :=
    let ⟨e₁, h₁, s₁⟩ := q₁.trace
    let ⟨e₂, h₂, s₂⟩ := q₂.trace
    ⟨e₂ ++ e₁, by rw [h₂, h₁, List.append_assoc], fun e he =>
      (List.mem_append.mp he).elim (s₂ e) (s₁ e)⟩
  queries hq :=
    let ⟨_, h₁, a₁, b₁, c₁⟩ := q₂.queries hq
    let ⟨q, h₀, a₀, b₀, c₀⟩ := q₁.queries h₁
    ⟨q, h₀, a₁.trans a₀, b₁.trans b₀, c₁.trans c₀⟩
  nextQuery := Nat.le_trans q₁.nextQuery q₂.nextQuery
  edns he := q₁.edns (q₂.edns he)

/-- A step that keeps the registry and the flags and records silent events. -/
theorem of_queries (hq : ch'.queries = ch.queries) (hn : ch'.nextQuery = ch.nextQuery)
    (hf : ch'.flags = ch.flags) (ht : ∃ evs, ch'.trace = evs ++ ch.trace ∧ ∀ e ∈ evs, e.Silent) :
    Quiet ch ch' :=
  ⟨ht, fun h => ⟨_, hq ▸ h, rfl, rfl, rfl⟩, Nat.le_of_eq hn.symm, fun he => hf ▸ he⟩

theorem of_eq (hq : ch'.queries = ch.queries) (hn : ch'.nextQuery = ch.nextQuery)
    (hf : ch'.flags = ch.flags) (ht : ch'.trace = ch.trace) : Quiet ch ch' :=
  of_queries hq hn hf ⟨[], ht, by simp⟩

theorem emit {e : Event} (he : e.Silent) : Quiet ch (ch.emit e) :=
  of_queries rfl rfl rfl ⟨[e], rfl, by simpa using he⟩

theorem endQuery (ch : Channel) (h : QueryId) (q : Query) (st : Status) (a : Option Bytes) :
    Quiet ch (ch.endQuery h q st a) := by
  rw [Channel.endQuery_eq]
  refine ⟨⟨[.callback h st q.timeouts a], rfl, by simp [Event.Silent]⟩, fun {h' _} hq => ?_,
    Nat.le_refl _, id⟩
  by_cases e : h' = h
  · subst e; simp at hq
  · exact ⟨_, by simpa [update_noteq e] using hq, rfl, rfl, rfl⟩

/-- Rewriting a live record without moving its server, its try count or its transport. -/
theorem setQuery {h : QueryId} {q₀ q : Query} (hq : ch.queries h = some q₀)
    (hsrv : q.server = q₀.server) (htry : q.tryCount = q₀.tryCount)
    (htcp : q.usingTcp = q₀.usingTcp) : Quiet ch (ch.setQuery h q) := by
  refine ⟨⟨[], rfl, by simp⟩, fun {h' _} hq' => ?_, Nat.le_refl _, id⟩
  rcases Wf.update_some_eq_some.mp hq' with ⟨rfl, rfl⟩ | ⟨-, hq'⟩
  · exact ⟨q₀, hq, hsrv, htry, htcp⟩
  · exact ⟨_, hq', rfl, rfl, rfl⟩

end Quiet

theorem History.quiet {ch ch' : Channel} (hh : History cfg ch) (hq : Quiet ch ch') :
    History cfg ch' := by
  obtain ⟨evs, htr, hs⟩ := hq.trace
  have hsends : ∀ h, sendsOf h (evs ++ ch.trace) = sendsOf h ch.trace := fun h =>
    sendsOf_silent hs h
  refine ⟨fun hm => ?_, ?_, fun hm => ?_, fun h => ?_, fun h => ?_, fun hm hp => ?_,
    fun h => ?_, ?_, fun hpos => ?_⟩ <;> simp only [htr, hsends] at *
  · exact (hh.submitted ((mem_submitted_silent hs).mp hm)).imp_left
      (Nat.lt_of_lt_of_le · hq.nextQuery)
  · rw [submittedOf_silent hs]; exact hh.submitted_once
  · obtain ⟨s0, hm0, rest⟩ := hh.sent ((mem_sent_silent hs).mp hm)
    exact ⟨s0, List.mem_append_right _ hm0, rest⟩
  · exact hh.tries_mono h
  · exact hh.primary_lt h
  · exact hh.repeats hm hp
  · exact hh.upgrade_once h
  · rw [fallbacks_silent hs]; exact hh.fallback_once
  · rw [fallbacks_silent hs] at hpos
    cases he : ch'.flags.edns
    · rfl
    · exact absurd (hq.edns he) (by rw [hh.fallback_edns hpos]; decide)

theorem Retry.quiet {ch ch' : Channel} (hr : Retry cfg ch) (hq : Quiet ch ch') : Retry cfg ch' := by
  obtain ⟨evs, htr, hs⟩ := hq.trace
  refine ⟨hr.toHistory.quiet hq, fun {h q'} hq' => ?_⟩
  obtain ⟨q, hq₀, hsrv, htry, htcp⟩ := hq.queries hq'
  exact (hr.live hq₀).congr (fun hm => htr ▸ List.mem_append_right _ hm)
    (htr ▸ sendsOf_silent hs h) hsrv htry htcp

/-! ## One send -/

theorem fallbacks_sent {h s k : Nat} {c : Cause} {tr : List Event} :
    fallbacks (.sent h s k c :: tr) = fallbacks tr + if c = .ednsFallback then 1 else 0 := by
  rw [fallbacks, List.countP_cons]; cases c <;> rfl

/-- When one send of `h` at try count `k` under cause `c` may follow the trace of `ch`: it
lowers no try count, makes a new one only under a primary cause and then a larger one than
every earlier primary send, and repeats no switch to TCP and no EDNS fallback. -/
structure SendOk (cfg : Config) (ch : Channel) (h k : Nat) (c : Cause) : Prop where
  init : c = .initial → k = 0
  next : c = .nextServer → 0 < k ∧ k < loopBound cfg
  le : ∀ {s' k' c'}, (s', k', c') ∈ sendsOf h ch.trace → k' ≤ k
  lt : c.primary = true → ∀ {s' k' c'}, (s', k', c') ∈ sendsOf h ch.trace →
    c'.primary = true → k' < k
  rep : c.primary = false → ∃ s' c', (s', k, c') ∈ sendsOf h ch.trace ∧ c'.primary = true
  up : c = .tcpUpgrade → ∀ {s' k'}, (s', k', Cause.tcpUpgrade) ∉ sendsOf h ch.trace
  fb : c = .ednsFallback → fallbacks ch.trace = 0 ∧ ch.flags.edns = false

theorem SendOk.quiet {ch ch₁ : Channel} {h k : Nat} {c : Cause} (hok : SendOk cfg ch h k c)
    (hq : Quiet ch ch₁) : SendOk cfg ch₁ h k c := by
  obtain ⟨evs, htr, hs⟩ := hq.trace
  have hsends : sendsOf h ch₁.trace = sendsOf h ch.trace := htr ▸ sendsOf_silent hs h
  refine ⟨hok.init, hok.next, fun hm => hok.le (hsends ▸ hm),
    fun hp {_ _ _} hm hp' => hok.lt hp (hsends ▸ hm) hp', fun hp => hsends ▸ hok.rep hp,
    fun hc {_ _} hm => hok.up hc (hsends ▸ hm), fun hc => ?_⟩
  obtain ⟨h0, he⟩ := hok.fb hc
  refine ⟨by rw [htr, fallbacks_silent hs, h0], ?_⟩
  cases he' : ch₁.flags.edns
  · rfl
  · rw [hq.edns he'] at he; cases he

/-- Recording one send of `h` that `SendOk` allows, to the initial server moved on by its try
count, keeps the history. -/
theorem History.send {ch ch' : Channel} (hh : History cfg ch) {h s k : Nat} {c : Cause}
    (htr : ch'.trace = .sent h s k c :: ch.trace) (hn : ch'.nextQuery = ch.nextQuery)
    (hf : ch'.flags = ch.flags)
    (horigin : ∃ s0, Event.submitted h s0 ∈ ch.trace ∧ s = (s0 + k) % cfg.nservers)
    (hok : SendOk cfg ch h k c) : History cfg ch' := by
  obtain ⟨hinit, hnext, hle, hlt, hrep, hup, hfb⟩ := hok
  have hsub : ∀ {e}, e ∈ ch.trace → e ∈ ch'.trace := fun he => htr ▸ List.mem_cons_of_mem _ he
  have hmem : ∀ {e}, e ∈ ch'.trace → e = .sent h s k c ∨ e ∈ ch.trace := fun he =>
    List.mem_cons.mp (htr ▸ he)
  have hsends : ∀ h', sendsOf h' ch'.trace =
      if h = h' then (s, k, c) :: sendsOf h' ch.trace else sendsOf h' ch.trace := fun h' => by
    rw [htr, sendsOf_sent]
  refine ⟨fun hm => ?_, ?_, fun hm => ?_, fun h' => ?_, fun h' => ?_, fun {h' s' k' c'} hm hp => ?_,
    fun h' => ?_, ?_, fun hpos => ?_⟩
  · rcases hmem hm with he | hm
    · cases he
    · exact hn ▸ hh.submitted hm
  · rw [htr]; exact hh.submitted_once
  · rcases hmem hm with he | hm
    · cases he
      obtain ⟨s0, hm0, hs⟩ := horigin
      exact ⟨s0, hsub hm0, hs, hinit, hnext⟩
    · obtain ⟨s0, hm0, rest⟩ := hh.sent hm
      exact ⟨s0, hsub hm0, rest⟩
  · rw [hsends]; split
    · rename_i e; subst e
      exact List.pairwise_cons.mpr ⟨fun _ hm => by
        obtain ⟨⟨s', k', c'⟩, hm', rfl⟩ := List.mem_map.mp hm; exact hle hm', hh.tries_mono h⟩
    · exact hh.tries_mono h'
  · rw [hsends]; split
    · rename_i e; subst e
      rw [List.filter_cons]; split
      · exact List.pairwise_cons.mpr ⟨fun _ hm => by
          obtain ⟨⟨s', k', c'⟩, hm', rfl⟩ := List.mem_map.mp hm
          obtain ⟨hm', hp'⟩ := List.mem_filter.mp hm'
          exact hlt ‹_› hm' hp', hh.primary_lt h⟩
      · exact hh.primary_lt h
    · exact hh.primary_lt h'
  · rw [hsends] at hm ⊢; split at hm
    · rename_i e; subst e
      rw [if_pos rfl]
      rcases List.mem_cons.mp hm with he | hm
      · cases he
        obtain ⟨s', c', hm', hp'⟩ := hrep hp
        exact ⟨s', c', List.mem_cons_of_mem _ hm', hp'⟩
      · obtain ⟨s', c', hm', hp'⟩ := hh.repeats hm hp
        exact ⟨s', c', List.mem_cons_of_mem _ hm', hp'⟩
    · rw [if_neg ‹_›]; exact hh.repeats hm hp
  · rw [hsends]; split
    · rename_i e; subst e
      rw [List.countP_cons]
      by_cases hc : c = .tcpUpgrade
      · have h0 : (sendsOf h ch.trace).countP (·.2.2 == .tcpUpgrade) = 0 :=
          List.countP_eq_zero.mpr fun ⟨s', k', c'⟩ hm he => by
            rw [beq_iff_eq] at he; subst he; exact hup hc hm
        rw [h0, if_pos (beq_iff_eq.mpr hc)]
      · rw [if_neg (mt beq_iff_eq.mp hc)]; exact hh.upgrade_once h
    · exact hh.upgrade_once h'
  · rw [htr, fallbacks_sent]; split
    · have := (hfb ‹_›).1; omega
    · exact hh.fallback_once
  · rw [hf]
    by_cases hc : c = .ednsFallback
    · exact (hfb hc).2
    · rw [htr, fallbacks_sent, if_neg hc] at hpos
      exact hh.fallback_edns hpos

/-! ## Dispatches -/

@[simp] theorem skipServer_server (q : Query) (s : Nat) :
    (skipServer cfg q s).server = q.server := by
  unfold skipServer; split <;> rfl

@[simp] theorem skipServer_tryCount (q : Query) (s : Nat) :
    (skipServer cfg q s).tryCount = q.tryCount := by
  unfold skipServer; split <;> rfl

@[simp] theorem skipServer_usingTcp (q : Query) (s : Nat) :
    (skipServer cfg q s).usingTcp = q.usingTcp := by
  unfold skipServer; split <;> rfl

@[simp] theorem endQuery_queries_self (ch : Channel) (h : QueryId) (q : Query) (st : Status)
    (a : Option Bytes) : (ch.endQuery h q st a).queries h = none := by
  simp [Channel.endQuery_eq]

theorem Prep.quiet {ch ch' : Channel} (hp : Prep cfg env ch ch') : Quiet ch ch' := by
  induction hp with
  | refl => exact .refl _
  | openConnection _ _ _ ih =>
    unfold Channel.openConnection; dsimp only
    split
    · exact ih.trans (.of_queries rfl rfl rfl ⟨[_], rfl, List.forall_mem_singleton.mpr trivial⟩)
    · exact ih.trans (.of_eq rfl rfl rfl rfl)
  | advance _ ih => exact ih.trans (.of_eq rfl rfl rfl rfl)
  | queue _ _ _ ih =>
    exact ih.trans (.of_queries rfl rfl rfl ⟨[_], rfl, List.forall_mem_singleton.mpr trivial⟩)
  | sockState _ _ _ _ ih => exact ih.trans (.emit trivial)

/-- What a dispatch of query `h` records, from a record whose server is the initial server
`s0` moved on by its try count `t`: after quiet steps, either the query is ended, or one send
is recorded and the query is stored as sent, or one send is recorded and quiet steps end the
query (the skiplist insertion after the write failed). The send is the first attempt, under
its cause `first` and at try count `t`, or a later round of `next_server`, below the loop's
bound. -/
inductive Outcome (cfg : Config) (h : QueryId) (s0 t : Nat) (tcp : Bool) (first : Option Cause)
    (ch : Channel) : Channel → Prop
  | ended {ch' : Channel} : Quiet ch ch' → ch'.queries h = none →
      Outcome cfg h s0 t tcp first ch ch'
  | sent {ch₁ ch' : Channel} {c : Cause} (q' : Query) : Quiet ch ch₁ →
      ch'.trace = .sent h q'.server q'.tryCount c :: ch₁.trace →
      ch'.queries = update ch₁.queries h (some q') → ch'.nextQuery = ch₁.nextQuery →
      ch'.flags = ch₁.flags → q'.server = (s0 + q'.tryCount) % cfg.nservers →
      q'.usingTcp = tcp →
      (first = some c ∧ q'.tryCount = t ∨
        c = .nextServer ∧ t < q'.tryCount ∧ q'.tryCount < loopBound cfg) →
      Outcome cfg h s0 t tcp first ch ch'
  | sentEnded {ch₁ ch' : Channel} {c : Cause} (q' : Query) : Quiet ch ch₁ →
      Quiet (ch₁.emit (.sent h q'.server q'.tryCount c)) ch' → ch'.queries h = none →
      q'.server = (s0 + q'.tryCount) % cfg.nservers →
      (first = some c ∧ q'.tryCount = t ∨
        c = .nextServer ∧ t < q'.tryCount ∧ q'.tryCount < loopBound cfg) →
      Outcome cfg h s0 t tcp first ch ch'

namespace Outcome

variable {h : QueryId} {s0 t : Nat} {tcp : Bool} {first : Option Cause} {ch ch₁ ch' : Channel}

theorem after (hq : Quiet ch ch₁) : Outcome cfg h s0 t tcp first ch₁ ch' →
    Outcome cfg h s0 t tcp first ch ch'
  | ended hq' hn => ended (hq.trans hq') hn
  | sent q' hq' a b c d e f g => sent q' (hq.trans hq') a b c d e f g
  | sentEnded q' hq' a b c d => sentEnded q' (hq.trans hq') a b c d

/-- A round of `next_server` from a try count `t₁ ≥ t` is one from `t`. -/
theorem round_le {t₁ k : Nat} {c : Cause} (ht : t ≤ t₁)
    (hk : none = some c ∧ k = t₁ ∨ c = .nextServer ∧ t₁ < k ∧ k < loopBound cfg) :
    first = some c ∧ k = t ∨ c = .nextServer ∧ t < k ∧ k < loopBound cfg :=
  hk.elim (fun ⟨hc, _⟩ => by cases hc) fun ⟨hc, hlt, hlb⟩ =>
    .inr ⟨hc, Nat.lt_of_le_of_lt ht hlt, hlb⟩

/-- A call of `next_server` from a try count at least `t`. -/
theorem later {t₁ : Nat} {tcp₁ : Bool} (ht : t ≤ t₁) (hc : tcp₁ = tcp) :
    Outcome cfg h s0 t₁ tcp₁ none ch ch' → Outcome cfg h s0 t tcp first ch ch'
  | ended hq hn => ended hq hn
  | sent q' hq a b c d e f g => sent q' hq a b c d e (f.trans hc) (round_le ht g)
  | sentEnded q' hq a b c d => sentEnded q' hq a b c (round_le ht d)

end Outcome

variable {ch ch' : Channel} {h : QueryId} {q : Query} {now : Timeval} {s0 t : Nat}
  {first : Option Cause}

theorem Enqueued.outcome {c : Cause} (he : Enqueued cfg env ch h q c ch')
    (hs : q.server = (s0 + q.tryCount) % cfg.nservers)
    (hk : first = some c ∧ q.tryCount = t ∨
      c = .nextServer ∧ t < q.tryCount ∧ q.tryCount < loopBound cfg) :
    Outcome cfg h s0 t q.usingTcp first ch ch' := by
  cases he with
  | @mk ch₁ c₁ _ si t₁ linked hp _ _ _ _ =>
    let q₁ : Query := { q with serverInfo := si, timeout := t₁ }
    exact .sent { q₁ with nodeQueriesToConn := if linked then some c₁ else none, conn := some c₁ }
      hp.quiet rfl rfl rfl rfl hs rfl hk

/-- The `fail` exit ends the query, after its send when the skiplist insertion failed. -/
theorem Failed.outcome {c : Cause} {ch₁ : Channel} {q' : Query} {st : Status}
    (hf : Failed cfg env ch h q c ch₁ q' st) (hs : q.server = (s0 + q.tryCount) % cfg.nservers)
    (hk : first = some c ∧ q.tryCount = t ∨
      c = .nextServer ∧ t < q.tryCount ∧ q.tryCount < loopBound cfg) :
    Outcome cfg h s0 t q.usingTcp first ch (ch₁.endQuery h q' st none) := by
  cases hf with
  | prep hp _ => exact .ended (hp.quiet.trans (.endQuery ..)) (endQuery_queries_self ..)
  | arm _ _ hp =>
    refine .sentEnded q hp.quiet (Quiet.trans ?_ (.endQuery ..)) (endQuery_queries_self ..) hs hk
    exact .of_eq rfl rfl rfl rfl

/-- A round of `next_server` moves the server on with the try count. -/
theorem round_server {q : Query} (hs : q.server = (s0 + q.tryCount) % cfg.nservers) :
    (q.server + 1) % cfg.nservers = (s0 + (q.tryCount + 1)) % cfg.nservers := by
  rw [hs, Nat.mod_add_mod, Nat.add_assoc]

theorem skip_server {q : Query} {s : Nat} (hs : q.server = (s0 + q.tryCount) % cfg.nservers) :
    (skipServer cfg q s).server = (s0 + (skipServer cfg q s).tryCount) % cfg.nservers := by
  rw [skipServer_server, skipServer_tryCount]; exact hs

/-- `next_server`'s loop sends at most once, in a round below the loop's bound. -/
theorem nextServerLoop_outcome : ∀ (m : Nat) {ch : Channel} {q : Query}, Wf cfg ch →
    Held cfg ch h q → m ≤ loopBound cfg - q.tryCount →
    q.server = (s0 + q.tryCount) % cfg.nservers →
    Outcome cfg h s0 q.tryCount q.usingTcp none ch (nextServerLoop cfg env h now m ch q)
  | m + 2, ch, q, hw, hh, hm, hs => by
    rw [nextServerLoop]; dsimp only
    split
    · exact .ended (.endQuery _ _ _ _ _) (endQuery_queries_self ..)
    split
    · split
      · exact (sendAttempt_ok hw hh.round ‹_›).outcome (round_server hs)
          (.inr ⟨rfl, Nat.lt_succ_self _, show q.tryCount + 1 < loopBound cfg by omega⟩)
      · obtain ⟨hp, rfl⟩ := sendAttempt_retry hw hh.round ‹_›
        exact ((nextServerLoop_outcome (m + 1) (hp.wf hw) ((hp.held hh.round).skip _)
          (by rw [skipServer_tryCount]; show m + 1 ≤ loopBound cfg - (q.tryCount + 1); omega)
          (skip_server (round_server hs))).later
            (by rw [skipServer_tryCount]; exact Nat.le_succ _) (skipServer_usingTcp _ _)).after
              hp.quiet
      · exact (sendAttempt_fail hw hh.round ‹_›).outcome (round_server hs)
          (.inr ⟨rfl, Nat.lt_succ_self _, show q.tryCount + 1 < loopBound cfg by omega⟩)
    · exact (nextServerLoop_outcome (m + 1) hw hh.round
        (show m + 1 ≤ loopBound cfg - (q.tryCount + 1) by omega)
        (round_server hs)).later (Nat.le_succ _) rfl
  | 0, _, _, _, _, _, _ | 1, _, _, _, _, _, _ =>
    .ended (.endQuery _ _ _ _ _) (endQuery_queries_self ..)

theorem nextServer_outcome (hw : Wf cfg ch) (hh : Held cfg ch h q)
    (hs : q.server = (s0 + q.tryCount) % cfg.nservers) :
    Outcome cfg h s0 q.tryCount q.usingTcp none ch (nextServer cfg env ch h q now) :=
  nextServerLoop_outcome _ hw hh (Nat.le_refl _) hs

theorem aresSendQuery_outcome {cause : Cause} (hw : Wf cfg ch) (hh : Held cfg ch h q)
    (hs : q.server = (s0 + q.tryCount) % cfg.nservers) :
    Outcome cfg h s0 q.tryCount q.usingTcp (some cause) ch
      (aresSendQuery cfg env ch h q now cause) := by
  unfold aresSendQuery
  split
  · exact (sendAttempt_ok hw hh ‹_›).outcome hs (.inl ⟨rfl, rfl⟩)
  · obtain ⟨hp, rfl⟩ := sendAttempt_retry hw hh ‹_›
    exact ((nextServer_outcome (hp.wf hw) ((hp.held hh).skip q.server) (skip_server hs)).later
      (Nat.le_of_eq (skipServer_tryCount _ _).symm) (skipServer_usingTcp _ _)).after hp.quiet
  · exact (sendAttempt_fail hw hh ‹_›).outcome hs (.inl ⟨rfl, rfl⟩)

/-! ## A dispatch keeps the invariant -/

/-- What a dispatch needs of the query it sends, by the cause of its first attempt (`none`:
the dispatch is a call of `next_server`). The submission sends a query that has no send yet;
the two re-sends of `process_answer` repeat the try count of an earlier send, the switch to
TCP for a query over TCP that it never sent, the EDNS fallback once the flag is cleared and
if it never sent. `next_server` makes its attempts itself, so no dispatch starts under its
cause. -/
def Ready (ch : Channel) (h : QueryId) (q : Query) : Option Cause → Prop
  | none => True
  | some .initial => sendsOf h ch.trace = [] ∧ q.tryCount = 0
  | some .nextServer => False
  | some .tcpUpgrade => (∃ s c, (s, q.tryCount, c) ∈ sendsOf h ch.trace) ∧
      (∀ {s k}, (s, k, Cause.tcpUpgrade) ∉ sendsOf h ch.trace) ∧ q.usingTcp = true
  | some .ednsFallback => (∃ s c, (s, q.tryCount, c) ∈ sendsOf h ch.trace) ∧
      fallbacks ch.trace = 0 ∧ ch.flags.edns = false

/-- A repeated try count is that of an earlier primary send. -/
theorem History.primary_of_mem (hh : History cfg ch) {s k : Nat} {c : Cause}
    (hm : (s, k, c) ∈ sendsOf h ch.trace) :
    ∃ s' c', (s', k, c') ∈ sendsOf h ch.trace ∧ c'.primary = true := by
  cases hc : c.primary
  · exact hh.repeats hm hc
  · exact ⟨s, c, hm, hc⟩

/-- The send of a dispatch from a pending, ready query is one `SendOk` allows. -/
theorem SendOk.of_ready (hh : History cfg ch) (hp : Pending cfg ch.trace h q)
    (hr : Ready ch h q first) {k : Nat} {c : Cause}
    (hk : first = some c ∧ k = q.tryCount ∨
      c = .nextServer ∧ q.tryCount < k ∧ k < loopBound cfg) : SendOk cfg ch h k c := by
  rcases hk with ⟨rfl, rfl⟩ | ⟨rfl, hlt, hlb⟩
  · cases c with
    | initial =>
      obtain ⟨hnil, h0⟩ := hr
      exact ⟨fun _ => h0, nofun, fun hm => by simp [hnil] at hm,
        fun _ {_ _ _} hm => by simp [hnil] at hm, nofun, nofun, nofun⟩
    | nextServer => exact hr.elim
    | tcpUpgrade =>
      obtain ⟨⟨s, c, hm⟩, hnone, -⟩ := hr
      exact ⟨nofun, nofun, hp.tries_le, nofun, fun _ => hh.primary_of_mem hm,
        fun _ {_ _} => hnone, nofun⟩
    | ednsFallback =>
      obtain ⟨⟨s, c, hm⟩, h0, he⟩ := hr
      exact ⟨nofun, nofun, hp.tries_le, nofun, fun _ => hh.primary_of_mem hm, nofun,
        fun _ => ⟨h0, he⟩⟩
  · exact ⟨nofun, fun _ => ⟨Nat.lt_of_le_of_lt (Nat.zero_le _) hlt, hlb⟩,
      fun hm => Nat.le_of_lt (Nat.lt_of_le_of_lt (hp.tries_le hm) hlt),
      fun _ {_ _ _} hm _ => Nat.lt_of_le_of_lt (hp.tries_le hm) hlt, nofun, nofun, nofun⟩

/-- The switch to TCP sends a query that is over TCP. -/
theorem Ready.upgrade {first : Option Cause} (hr : Ready ch h q first) {k : Nat}
    (hk : first = some .tcpUpgrade ∧ k = q.tryCount ∨
      Cause.tcpUpgrade = .nextServer ∧ q.tryCount < k ∧ k < loopBound cfg) :
    q.usingTcp = true := by
  rcases hk with ⟨rfl, -⟩ | ⟨hc, -⟩
  · exact hr.2.2
  · cases hc

section Others

variable {ch₁ : Channel}
  (hrec : ∀ {h' q'}, h' ≠ h → ch.queries h' = some q' → Record cfg ch.trace h' q')
include hrec

/-- The records of the other queries survive quiet steps. -/
theorem records_quiet (hq : Quiet ch ch₁) :
    ∀ {h' q'}, h' ≠ h → ch₁.queries h' = some q' → Record cfg ch₁.trace h' q' := by
  intro h' q' hne hq'
  obtain ⟨evs, htr, hs⟩ := hq.trace
  obtain ⟨q₀, hq₀, a, b, c⟩ := hq.queries hq'
  exact (hrec hne hq₀).congr (fun hm => htr ▸ List.mem_append_right _ hm)
    (htr ▸ sendsOf_silent hs h') a b c

/-- The records of the other queries survive a send of `h`. -/
theorem records_send {ch' : Channel} {s k : Nat} {c : Cause}
    (htr : ch'.trace = .sent h s k c :: ch.trace)
    (hqs : ∀ {h'}, h' ≠ h → ch'.queries h' = ch.queries h') :
    ∀ {h' q'}, h' ≠ h → ch'.queries h' = some q' → Record cfg ch'.trace h' q' :=
  fun hne hq' => (hrec hne ((hqs hne).symm.trans hq')).congr
    (fun hm => htr ▸ List.mem_cons_of_mem _ hm)
    (by rw [htr, sendsOf_sent, if_neg (Ne.symm hne)]) rfl rfl rfl

end Others

/-- Quiet steps that end `h` keep `Retry`. -/
theorem Retry.of_ended {ch₁ : Channel} (hh : History cfg ch)
    (hrec : ∀ {h' q'}, h' ≠ h → ch.queries h' = some q' → Record cfg ch.trace h' q')
    (hq : Quiet ch ch₁) (hnone : ch₁.queries h = none) : Retry cfg ch₁ :=
  ⟨hh.quiet hq, fun {h' _} hq' =>
    records_quiet hrec hq (fun e => by subst e; rw [hnone] at hq'; cases hq') hq'⟩

/-- A dispatch keeps `Retry`, from a state where the history holds, every other live record
is in step, and the query is pending and ready. -/
theorem Retry.of_outcome (hh : History cfg ch)
    (hrec : ∀ {h' q'}, h' ≠ h → ch.queries h' = some q' → Record cfg ch.trace h' q')
    (hp : Pending cfg ch.trace h q) (hs0 : Event.submitted h s0 ∈ ch.trace)
    (hr : Ready ch h q first) (ho : Outcome cfg h s0 q.tryCount q.usingTcp first ch ch') :
    Retry cfg ch' := by
  cases ho with
  | ended hq hnone => exact Retry.of_ended hh hrec hq hnone
  | @sentEnded ch₁ _ c q' hq hq₂ hnone hsrv hk =>
    obtain ⟨evs, htr₁, -⟩ := hq.trace
    have hok := (SendOk.of_ready hh hp hr hk).quiet hq
    have hh₂ : History cfg (ch₁.emit (.sent h q'.server q'.tryCount c)) :=
      (hh.quiet hq).send rfl rfl rfl ⟨s0, htr₁ ▸ List.mem_append_right _ hs0, hsrv⟩ hok
    exact Retry.of_ended hh₂ (records_send (records_quiet hrec hq) (by rfl) fun _ => by rfl) hq₂
      hnone
  | @sent ch₁ _ c q' hq htr hqs hn hf hsrv htcp hk =>
    obtain ⟨evs, htr₁, hs⟩ := hq.trace
    have hsub : ∀ {e}, e ∈ ch.trace → e ∈ ch'.trace := fun he =>
      htr ▸ List.mem_cons_of_mem _ (htr₁ ▸ List.mem_append_right _ he)
    have hok := (SendOk.of_ready hh hp hr hk).quiet hq
    refine ⟨(hh.quiet hq).send htr hn hf ⟨s0, htr₁ ▸ List.mem_append_right _ hs0, hsrv⟩ hok,
      fun {h' q''} hq'' => ?_⟩
    by_cases e : h' = h
    · subst e
      rw [hqs, update_same] at hq''; cases hq''
      have hsends : sendsOf h' ch'.trace = (q'.server, q'.tryCount, c) :: sendsOf h' ch.trace := by
        rw [htr, sendsOf_sent, if_pos rfl, htr₁, sendsOf_silent hs]
      refine ⟨⟨⟨s0, hsub hs0, hsrv⟩, fun hm => ?_, fun {s k} hm => ?_⟩,
        ⟨_, c, hsends ▸ List.mem_cons_self _ _⟩⟩
      · rcases List.mem_cons.mp (hsends ▸ hm) with he | hm
        · cases he; exact Nat.le_refl _
        · exact (SendOk.of_ready hh hp hr hk).le hm
      · rw [htcp]
        rcases List.mem_cons.mp (hsends ▸ hm) with he | hm
        · cases he; exact hr.upgrade hk
        · exact hp.upgraded hm
    · exact records_send (records_quiet hrec hq) htr (fun hne => by rw [hqs, update_noteq hne])
        e hq''

/-- A query held by a dispatch, with the server, the try count and the transport of its
stored record (or over TCP where its record is not). -/
def Tracked (ch : Channel) (h : QueryId) (q : Query) : Prop :=
  ∃ q₀, ch.queries h = some q₀ ∧ q.server = q₀.server ∧ q.tryCount = q₀.tryCount ∧
    (q₀.usingTcp = true → q.usingTcp = true)

theorem Tracked.of_stored (hq : ch.queries h = some q) : Tracked ch h q :=
  ⟨q, hq, rfl, rfl, id⟩

/-- `skip_server` touches only `server_info`. -/
theorem Tracked.skip (ht : Tracked ch h q) {s : Nat} : Tracked ch h (skipServer cfg q s) :=
  let ⟨q₀, hq₀, hsrv, htry, htcp⟩ := ht
  ⟨q₀, hq₀, (skipServer_server q s).trans hsrv, (skipServer_tryCount q s).trans htry,
    fun h => (skipServer_usingTcp q s).trans (htcp h)⟩

namespace Retry

theorem record (hr : Retry cfg ch) (ht : Tracked ch h q) :
    Pending cfg ch.trace h q ∧ ∃ s c, (s, q.tryCount, c) ∈ sendsOf h ch.trace := by
  obtain ⟨q₀, hq₀, hsrv, htry, htcp⟩ := ht
  have hrec := hr.live hq₀
  obtain ⟨s0, hm, hs⟩ := hrec.origin
  exact ⟨⟨⟨s0, hm, by rw [hsrv, htry, hs]⟩, fun hm => htry ▸ hrec.tries_le hm,
    fun hm => htcp (hrec.upgraded hm)⟩, htry ▸ hrec.sent⟩

theorem dispatch (hr : Retry cfg ch) (hp : Pending cfg ch.trace h q) (hready : Ready ch h q first)
    (ho : ∀ {s0}, q.server = (s0 + q.tryCount) % cfg.nservers →
      Outcome cfg h s0 q.tryCount q.usingTcp first ch ch') : Retry cfg ch' :=
  let ⟨_, hs0, hsrv⟩ := hp.origin
  of_outcome hr.toHistory (fun _ hq => hr.live hq) hp hs0 hready (ho hsrv)

/-- `next_server` keeps the invariant. -/
theorem nextServer (hr : Retry cfg ch) (hw : Wf cfg ch) (hh : Held cfg ch h q)
    (ht : Tracked ch h q) : Retry cfg (CAres.nextServer cfg env ch h q now) :=
  hr.dispatch (hr.record ht).1 (show Ready ch h q none from trivial) fun hs =>
    nextServer_outcome hw hh hs

/-- `ares__send_query` keeps the invariant for a query ready for its cause. -/
theorem sendQuery {cause : Cause} (hr : Retry cfg ch) (hw : Wf cfg ch) (hh : Held cfg ch h q)
    (ht : Tracked ch h q) (hready : Ready ch h q (some cause)) :
    Retry cfg (aresSendQuery cfg env ch h q now cause) :=
  hr.dispatch (hr.record ht).1 hready fun hs => aresSendQuery_outcome hw hh hs

end Retry

/-! ## Submission and initialisation -/

/-- A handle not yet given out has no send. -/
theorem History.sends_fresh (hh : History cfg ch) : sendsOf ch.nextQuery ch.trace = [] :=
  List.eq_nil_iff_forall_not_mem.mpr fun ⟨_, _, _⟩ hm =>
    let ⟨_, hm0, _⟩ := hh.sent (mem_sendsOf.mp hm)
    Nat.lt_irrefl _ (hh.submitted hm0).1

/-- The submission of a query under the fresh handle, at try count 0 and recorded with its
first server, then its dispatch. -/
theorem Retry.submit (hr : Retry cfg ch) {ch₁ : Channel} (hw₁ : Wf cfg ch₁)
    (hh : Held cfg ch₁ ch.nextQuery q)
    (htr : ch₁.trace = .submitted ch.nextQuery q.server :: ch.trace)
    (hn : ch₁.nextQuery = ch.nextQuery + 1)
    (hq : ch₁.queries = update ch.queries ch.nextQuery (some q)) (hf : ch₁.flags = ch.flags)
    (htry : q.tryCount = 0) :
    Retry cfg (aresSendQuery cfg env ch₁ ch.nextQuery q now .initial) := by
  have hsends : ∀ h, sendsOf h ch₁.trace = sendsOf h ch.trace := fun h => by rw [htr]; rfl
  have hsub : ∀ {e}, e ∈ ch.trace → e ∈ ch₁.trace := fun he => htr ▸ List.mem_cons_of_mem _ he
  have hhead : Event.submitted ch.nextQuery q.server ∈ ch₁.trace := htr ▸ List.mem_cons_self _ _
  have hnone : ∀ {x}, x ∉ sendsOf ch.nextQuery ch₁.trace := fun hm => by
    rw [hsends, hr.sends_fresh] at hm; cases hm
  have hh₁ : History cfg ch₁ := by
    refine ⟨fun hm => ?_, ?_, fun hm => ?_, fun h => ?_, fun h => ?_, fun hm hp => ?_,
      fun h => ?_, ?_, fun hpos => ?_⟩
    · rw [htr] at hm; rw [hn]
      rcases List.mem_cons.mp hm with he | hm
      · cases he; exact ⟨Nat.lt_succ_self _, hh.server_lt⟩
      · exact (hr.submitted hm).imp_left Nat.lt_succ_of_lt
    · rw [htr, List.filterMap_cons]
      refine List.nodup_cons.mpr ⟨fun hm => ?_, hr.submitted_once⟩
      obtain ⟨e, he, hs⟩ := List.mem_filterMap.mp hm
      cases e <;> simp only [Event.submittedOf, reduceCtorEq, Option.some.injEq] at hs
      subst hs
      exact Nat.lt_irrefl _ (hr.submitted he).1
    · rw [htr] at hm
      obtain ⟨s0, hm0, rest⟩ := hr.sent (List.mem_of_ne_of_mem (by simp) hm)
      exact ⟨s0, hsub hm0, rest⟩
    · rw [hsends]; exact hr.tries_mono h
    · rw [hsends]; exact hr.primary_lt h
    · rw [hsends] at hm ⊢; exact hr.repeats hm hp
    · rw [hsends]; exact hr.upgrade_once h
    · rw [htr]; exact hr.fallback_once
    · rw [hf]; exact hr.fallback_edns (by rw [htr] at hpos; exact hpos)
  refine Retry.of_outcome hh₁ (fun {h' _} hne hq' => ?_)
    ⟨⟨q.server, hhead, by rw [htry, Nat.add_zero, Nat.mod_eq_of_lt hh.server_lt]⟩,
      fun hm => (hnone hm).elim, fun hm => (hnone hm).elim⟩ hhead
    (show Ready ch₁ ch.nextQuery q (some .initial) from ⟨by rw [hsends, hr.sends_fresh], htry⟩)
    (aresSendQuery_outcome hw₁ hh (by rw [htry, Nat.add_zero, Nat.mod_eq_of_lt hh.server_lt]))
  rw [hq, update_noteq hne] at hq'
  exact (hr.live hq').congr hsub (hsends h') rfl rfl rfl

theorem Retry.init (flags : Flags) (addrs : Nat → AresAddr) :
    Retry cfg (Channel.init cfg flags addrs) := by
  refine ⟨⟨?_, ?_, ?_, ?_, ?_, ?_, ?_, ?_, ?_⟩, ?_⟩ <;> simp [Channel.init, sendsOf, fallbacks]

end CAres
