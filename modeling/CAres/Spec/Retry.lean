import CAres.Spec.Registry
import Mathlib.Data.Nat.ModEq

/-! # How often a query is sent

What `Reachable.inv` gives about the sends of every query, in every state of every run
(`tries_bounded`): the server of a live query is its initial server moved on by its try
count; the try counts of its sends never go down, and a send that is neither the first nor
one of `next_server` repeats an earlier try count; the switch to TCP sends a query at most
once and leaves it over TCP, and the EDNS fallback sends at most once per channel, with the
flag cleared.

So the try counts of the first send and of `next_server`'s sends are distinct and below
`nservers * tries`, and those that go to one server are distinct modulo `nservers`: a query
is sent at most `nservers * tries + 2` times in all, and at most `tries` times to one server
by the first send and `next_server`. Both need `tries ≥ 1`, which `ares_init_options`
ensures (`aresInitOptions_ok`). -/

namespace CAres

variable {cfg : Config} {env : Env} {ch : Channel}

/-- A list without duplicates, with every element below `B`, is no longer than `B`. -/
theorem length_le_of_nodup {l : List Nat} {B : Nat} (hl : l.Nodup) (hb : ∀ x ∈ l, x < B) :
    l.length ≤ B := by
  have := (List.subperm_of_subset hl fun x hx => List.mem_range.mpr (hb x hx)).length_le
  rwa [List.length_range] at this

/-- The sends of a query by cause: the first send and `next_server`'s, the switch to TCP,
and the EDNS fallback. -/
theorem length_by_cause : ∀ l : List (Nat × Nat × Cause),
    l.length = (l.filter (·.2.2.primary)).length + l.countP (·.2.2 == .tcpUpgrade) +
      l.countP (·.2.2 == .ednsFallback)
  | [] => rfl
  | ⟨s, k, c⟩ :: l => by
    rw [List.filter_cons, List.countP_cons, List.countP_cons, List.length_cons, length_by_cause l]
    cases c <;> simp [Cause.primary] <;> omega

/-- The EDNS fallback sends of one query are among those of the channel. -/
theorem countP_fallback_le (h : QueryId) :
    ∀ tr : List Event, (sendsOf h tr).countP (·.2.2 == .ednsFallback) ≤ fallbacks tr
  | [] => Nat.le_refl _
  | e :: tr => by
    have ih := countP_fallback_le h tr
    rw [fallbacks, List.countP_cons]
    cases e with
    | sent h' s k c =>
      rw [sendsOf_sent]
      split
      · rw [List.countP_cons]; cases c <;> simp only [fallbacks] at ih <;> simpa using ih
      · exact Nat.le_add_right_of_le ih
    | _ => exact Nat.le_add_right_of_le ih

/-- A trace whose submissions are of distinct queries records one initial server per query. -/
theorem submitted_unique {h a b : Nat} :
    ∀ {tr : List Event}, (tr.filterMap Event.submittedOf).Nodup →
      Event.submitted h a ∈ tr → Event.submitted h b ∈ tr → a = b
  | e :: tr, hn, ha, hb => by
    rw [List.filterMap_cons] at hn
    have hn' : (tr.filterMap Event.submittedOf).Nodup := by
      cases e <;> first | exact (List.nodup_cons.mp hn).2 | exact hn
    have hnot : ∀ {c}, e = .submitted h c → Event.submitted h b ∈ tr ∨ Event.submitted h a ∈ tr →
        False := by
      rintro c rfl hm
      refine (List.nodup_cons.mp hn).1 (List.mem_filterMap.mpr ?_)
      rcases hm with hm | hm <;> exact ⟨_, hm, rfl⟩
    rcases List.mem_cons.mp ha with ha | ha <;> rcases List.mem_cons.mp hb with hb | hb
    · rw [← ha] at hb; cases hb; rfl
    · exact (hnot ha.symm (.inl hb)).elim
    · exact (hnot hb.symm (.inr ha)).elim
    · exact submitted_unique hn' ha hb

namespace History

variable (hh : History cfg ch)
include hh

/-- The first send and the sends of `next_server` are below `nservers * tries`. -/
theorem primary_lt_bound (htries : 0 < cfg.tries) {h s k : Nat} {c : Cause}
    (hm : (s, k, c) ∈ sendsOf h ch.trace) (hc : c.primary = true) :
    k < cfg.nservers * cfg.tries := by
  obtain ⟨-, -, -, hinit, hnext⟩ := hh.sent (mem_sendsOf.mp hm)
  have hpos : 0 < cfg.nservers * cfg.tries := Nat.mul_pos cfg.nservers_pos htries
  cases c with
  | initial => rw [hinit rfl]; exact hpos
  | nextServer => exact Nat.lt_of_lt_of_le (hnext rfl).2 (Nat.mod_le _ _)
  | tcpUpgrade | ednsFallback => cases hc

/-- A query is sent at most `nservers * tries + 2` times. -/
theorem sends_le (htries : 0 < cfg.tries) (h : QueryId) :
    (sendsOf h ch.trace).length ≤ cfg.nservers * cfg.tries + 2 := by
  have hprimary : ((sendsOf h ch.trace).filter (·.2.2.primary)).length ≤
      cfg.nservers * cfg.tries := by
    rw [← List.length_map _ (·.2.1)]
    refine length_le_of_nodup ((hh.primary_lt h).imp Nat.ne_of_gt) fun k hk => ?_
    obtain ⟨⟨s, k, c⟩, hm, rfl⟩ := List.mem_map.mp hk
    obtain ⟨hm, hc⟩ := List.mem_filter.mp hm
    exact hh.primary_lt_bound htries hm hc
  have := hh.upgrade_once h
  have := countP_fallback_le h ch.trace
  have := hh.fallback_once
  rw [length_by_cause]
  omega

/-- The first send and `next_server` send a query at most `tries` times to one server. -/
theorem primary_per_server_le (htries : 0 < cfg.tries) (h s : Nat) :
    ((sendsOf h ch.trace).filter fun x => x.1 == s && x.2.2.primary).length ≤ cfg.tries := by
  set L := (sendsOf h ch.trace).filter fun x => x.1 == s && x.2.2.primary
  have hmem : ∀ {x}, x ∈ L → x ∈ sendsOf h ch.trace ∧ x.1 = s ∧ x.2.2.primary = true :=
    fun hx => by
      obtain ⟨hx, hp⟩ := List.mem_filter.mp hx
      simp only [Bool.and_eq_true, beq_iff_eq] at hp
      exact ⟨hx, hp⟩
  have hsorted : (L.map (·.2.1)).Pairwise (· > ·) :=
    (hh.primary_lt h).sublist ((List.monotone_filter_right _ fun x hx => by
      simp only [Bool.and_eq_true] at hx; exact hx.2).map _)
  -- every send of `L` goes to `s`, the initial server moved on by its try count
  have horigin : ∀ {s' k c}, (s', k, c) ∈ L → ∃ s0, Event.submitted h s0 ∈ ch.trace ∧
      s = (s0 + k) % cfg.nservers := fun hx => by
    obtain ⟨hx, hsx, -⟩ := hmem hx
    obtain ⟨s0, hm0, hs, -⟩ := hh.sent (mem_sendsOf.mp hx)
    exact ⟨s0, hm0, hsx.symm.trans hs⟩
  have hinj : ∀ x ∈ L.map (·.2.1), ∀ y ∈ L.map (·.2.1), x / cfg.nservers = y / cfg.nservers →
      x = y := by
    intro x hx y hy hdiv
    obtain ⟨⟨_, k₁, _⟩, hx₁, rfl⟩ := List.mem_map.mp hx
    obtain ⟨⟨_, k₂, _⟩, hy₁, rfl⟩ := List.mem_map.mp hy
    obtain ⟨a, ha, hsa⟩ := horigin hx₁
    obtain ⟨b, hb, hsb⟩ := horigin hy₁
    rw [submitted_unique hh.submitted_once hb ha] at hsb
    have hmod : k₁ % cfg.nservers = k₂ % cfg.nservers :=
      Nat.ModEq.add_left_cancel' a (hsa.symm.trans hsb)
    calc k₁ = cfg.nservers * (k₁ / cfg.nservers) + k₁ % cfg.nservers := (Nat.div_add_mod _ _).symm
      _ = cfg.nservers * (k₂ / cfg.nservers) + k₂ % cfg.nservers := by
        rw [← hmod]; exact congrArg (cfg.nservers * · + _) hdiv
      _ = k₂ := Nat.div_add_mod _ _
  rw [← List.length_map L (·.2.1), ← List.length_map _ (· / cfg.nservers)]
  refine length_le_of_nodup (List.Nodup.map_on hinj (hsorted.imp Nat.ne_of_gt)) fun d hd => ?_
  obtain ⟨k, hk, rfl⟩ := List.mem_map.mp hd
  obtain ⟨⟨s', k, c⟩, hx, rfl⟩ := List.mem_map.mp hk
  obtain ⟨hx, -, hp⟩ := hmem hx
  exact (Nat.div_lt_iff_lt_mul cfg.nservers_pos).mpr
    (Nat.mul_comm cfg.nservers _ ▸ hh.primary_lt_bound htries hx hp)

end History

/-- In every state of every run, with `tries ≥ 1`: the server of a live query is its initial
server moved on by its try count, which is that of one of its sends and at least that of
each; every send goes to the initial server moved on by the send's try count; the try counts
of a query's sends never go down, and a send under neither the first send's nor
`next_server`'s cause repeats the try count of one that was; the switch to TCP sends a query
at most once and leaves it over TCP, and the EDNS fallback sends at most once per channel and
leaves the flag cleared. So a query is sent at most `nservers * tries + 2` times, and at most
`tries` times to one server by the first send and `next_server`. -/
theorem tries_bounded (htries : 0 < cfg.tries) (hr : Reachable cfg env ch) :
    (∀ {h q}, ch.queries h = some q → ∃ s0, Event.submitted h s0 ∈ ch.trace ∧
      q.server = (s0 + q.tryCount) % cfg.nservers ∧
      (∃ s c, (s, q.tryCount, c) ∈ sendsOf h ch.trace) ∧
      ∀ {s k c}, (s, k, c) ∈ sendsOf h ch.trace → k ≤ q.tryCount) ∧
    (∀ {h s k c}, Event.sent h s k c ∈ ch.trace → ∃ s0, Event.submitted h s0 ∈ ch.trace ∧
      s = (s0 + k) % cfg.nservers) ∧
    (∀ h, ((sendsOf h ch.trace).map (·.2.1)).Pairwise (· ≥ ·)) ∧
    (∀ {h s k c}, (s, k, c) ∈ sendsOf h ch.trace → c.primary = false →
      ∃ s' c', (s', k, c') ∈ sendsOf h ch.trace ∧ c'.primary = true) ∧
    (∀ h, (sendsOf h ch.trace).countP (·.2.2 == .tcpUpgrade) ≤ 1) ∧
    (∀ {h q s k}, ch.queries h = some q → (s, k, Cause.tcpUpgrade) ∈ sendsOf h ch.trace →
      q.usingTcp = true) ∧
    fallbacks ch.trace ≤ 1 ∧ (0 < fallbacks ch.trace → ch.flags.edns = false) ∧
    (∀ h, (sendsOf h ch.trace).length ≤ cfg.nservers * cfg.tries + 2) ∧
    ∀ h s, ((sendsOf h ch.trace).filter fun x => x.1 == s && x.2.2.primary).length ≤
      cfg.tries := by
  have hi := hr.inv.retry
  refine ⟨fun hq => ?_, fun hm => ?_, hi.tries_mono, hi.repeats, hi.upgrade_once,
    fun hq hm => (hi.live hq).upgraded hm, hi.fallback_once, hi.fallback_edns,
    hi.sends_le htries, hi.primary_per_server_le htries⟩
  · obtain ⟨s0, hm, hs⟩ := (hi.live hq).origin
    exact ⟨s0, hm, hs, (hi.live hq).sent, (hi.live hq).tries_le⟩
  · obtain ⟨s0, hm0, hs, -⟩ := hi.sent hm
    exact ⟨s0, hm0, hs⟩

theorem tries_bounded_tcTwice :
    0 < loopCfg.tries ∧ Reachable loopCfg tcEnv tcTwice ∧
      ∀ h, (sendsOf h tcTwice.trace).length ≤ loopCfg.nservers * loopCfg.tries + 2 :=
  ⟨by decide, tcTwice_reachable, (tries_bounded (by decide) tcTwice_reachable).2.2.2.2.2.2.2.2.1⟩

/-- The query of `tcTwice` was sent twice: first, then by the switch to TCP. -/
example : (sendsOf 0 tcTwice.trace).map (·.2.2) = [.tcpUpgrade, .initial] := by decide

end CAres
