import CAres.Spec.Registry

/-! # The deadline of an attempt

The arming tail of `ares__send_query` stores `timeadd(now, timeplus)` as the query's deadline,
where `timeplus` is the channel timeout doubled once per full pass over the servers, unless the
doubled value would reach `2^31` (`timeplus_eq`). `timeadd` adds `(time_t)millisecs / 1000`
seconds and `(millisecs % 1000) * 1000` microseconds. Below `2^63` milliseconds the deadline is
exactly `now + timeplus`, with `tv_usec` in range (`stored_deadline`). From `2^63` on, the cast
to `time_t` turns the seconds negative while the microseconds stay those of the unsigned value:
the deadline is less than one second after `now`, and for `2^63` itself it lies far in the past
(`huge_timeout_deadline_past`). -/

namespace CAres

/-- A time as a count of microseconds. -/
def Timeval.micros (tv : Timeval) : Int := tv.sec * 1000000 + tv.usec

/-- `tv_usec` is in `[0, 10^6)`. -/
def Timeval.Normal (tv : Timeval) : Prop := 0 ≤ tv.usec ∧ tv.usec < 1000000

instance (tv : Timeval) : Decidable tv.Normal := inferInstanceAs (Decidable (_ ∧ _))

theorem toTimeT_of_lt {n : Nat} (h : n < 2 ^ 63) : toTimeT n = n := by
  unfold toTimeT; rw [Nat.mod_eq_of_lt (by omega), if_pos h]

theorem toTimeT_of_ge {n : Nat} (h₁ : 2 ^ 63 ≤ n) (h₂ : n < 2 ^ 64) :
    toTimeT n = -((2 ^ 64 - n : Nat) : Int) := by
  unfold toTimeT; rw [Nat.mod_eq_of_lt h₂, if_neg (by omega)]; omega

/-- The carry of `timeadd` keeps the sum in microseconds, and brings `tv_usec` back in range
when it was in range before. -/
theorem timeadd_eq {now : Timeval} {ms : Nat} :
    (timeadd now ms).micros =
        now.micros + (toTimeT ms).tdiv 1000 * 1000000 + (ms % 1000 * 1000 : Nat) ∧
      (now.Normal → (timeadd now ms).Normal) := by
  have hu : toTimeT (ms % 1000 * 1000) = (ms % 1000 * 1000 : Nat) :=
    toTimeT_of_lt (by omega)
  unfold timeadd
  dsimp only
  rw [hu]
  split <;> simp only [Timeval.micros, Timeval.Normal] <;> omega

/-- Below `2^63` milliseconds, `timeadd` adds exactly that many. -/
theorem timeadd_micros_of_lt {now : Timeval} {ms : Nat} (h : ms < 2 ^ 63) :
    (timeadd now ms).micros = now.micros + ms * 1000 := by
  rw [timeadd_eq.1, toTimeT_of_lt h, Int.tdiv_eq_ediv (by omega) (by decide)]
  omega

/-- From `2^63` milliseconds on, `timeadd` lands less than one second after `now`. -/
theorem timeadd_micros_of_ge {now : Timeval} {ms : Nat} (h₁ : 2 ^ 63 ≤ ms) (h₂ : ms < 2 ^ 64) :
    (timeadd now ms).micros < now.micros + 1000000 := by
  rw [timeadd_eq.1, toTimeT_of_ge h₁ h₂, Int.neg_tdiv, Int.tdiv_eq_ediv (by omega) (by decide)]
  omega

/-- `timeplus` is the channel timeout times `2^(try_count / nservers)` when that is below
`2^31`, and the timeout unchanged otherwise. -/
theorem timeplus_eq (T t n : Nat) :
    timeplus T t n = if T * 2 ^ (t / n) < 2 ^ 31 then T * 2 ^ (t / n) else T := by
  unfold timeplus
  dsimp only
  by_cases hs : t / n ≤ 31
  · have key : T >>> (31 - t / n) = 0 ↔ T * 2 ^ (t / n) < 2 ^ 31 := by
      have h31 : 2 ^ 31 = 2 ^ (31 - t / n) * 2 ^ (t / n) := by
        rw [← Nat.pow_add, Nat.sub_add_cancel hs]
      rw [Nat.shiftRight_eq_div_pow, Nat.div_eq_zero_iff (Nat.two_pow_pos _), h31,
        Nat.mul_lt_mul_right (Nat.two_pow_pos _)]
    simp only [hs, true_and, key, Nat.shiftLeft_eq]
  · rw [if_neg fun h => hs h.1]
    split
    · rename_i hlt
      obtain rfl : T = 0 := by
        by_contra hT
        have : 2 ^ 31 < T * 2 ^ (t / n) := calc
          2 ^ 31 < 2 ^ (t / n) := Nat.pow_lt_pow_right (by decide) (by omega)
          _ ≤ T * 2 ^ (t / n) := Nat.le_mul_of_pos_left _ (Nat.pos_of_ne_zero hT)
        omega
      simp
    · rfl

variable {cfg : Config} {env : Env} {ch ch' : Channel} {h : QueryId} {q : Query} {c : ConnId}
  {now : Timeval} {cause : Cause}

/-- The arming tail stores `timeadd now timeplus` as the deadline. -/
theorem armAndEnqueue_timeout (hs : armAndEnqueue cfg env ch h q c now cause = .ok ch') :
    (ch'.queries h).map Query.timeout =
      some (timeadd now (timeplus cfg.timeout q.tryCount cfg.nservers)) := by
  unfold armAndEnqueue at hs
  dsimp only at hs
  split at hs
  · cases hs; simp [Channel.enqueueQuery]
  · cases hs

/-- Every deadline the arming tail of `ares__send_query` stores, for a time `now` in range and
a timeout that fits `size_t`: `timeplus` is the doubled timeout below `2^31` and the timeout
otherwise, `tv_usec` is in range, and the deadline is `now + timeplus` below `2^63`
milliseconds and less than a second after `now` from `2^63` on. -/
theorem stored_deadline (hn : now.Normal) (hT : cfg.timeout < 2 ^ 64)
    (hs : armAndEnqueue cfg env ch h q c now cause = .ok ch') :
    ∃ q', ch'.queries h = some q' ∧
      timeplus cfg.timeout q.tryCount cfg.nservers =
        (if cfg.timeout * 2 ^ (q.tryCount / cfg.nservers) < 2 ^ 31 then
          cfg.timeout * 2 ^ (q.tryCount / cfg.nservers) else cfg.timeout) ∧
      q'.timeout.Normal ∧
      (timeplus cfg.timeout q.tryCount cfg.nservers < 2 ^ 63 →
        q'.timeout.micros = now.micros + timeplus cfg.timeout q.tryCount cfg.nservers * 1000) ∧
      (2 ^ 63 ≤ timeplus cfg.timeout q.tryCount cfg.nservers →
        q'.timeout.micros < now.micros + 1000000) := by
  obtain ⟨q', hq', ht⟩ := Option.map_eq_some'.mp (armAndEnqueue_timeout hs)
  have hlt : timeplus cfg.timeout q.tryCount cfg.nservers < 2 ^ 64 := by
    rw [timeplus_eq]; split <;> omega
  refine ⟨q', hq', timeplus_eq _ _ _, ht ▸ timeadd_eq.2 hn, fun h₁ => ?_, fun h₁ => ?_⟩
  · rw [ht]; exact timeadd_micros_of_lt h₁
  · rw [ht]; exact timeadd_micros_of_ge h₁ hlt

theorem stored_deadline_tcSent :
    ∃ q ch', tcSent.queries 0 = some q ∧ Timeval.Normal ⟨0, 0⟩ ∧ loopCfg.timeout < 2 ^ 64 ∧
      armAndEnqueue loopCfg tcEnv tcSent 0 q 0 ⟨0, 0⟩ .nextServer = .ok ch' ∧
      ∃ q', ch'.queries 0 = some q' ∧
        timeplus loopCfg.timeout q.tryCount loopCfg.nservers =
          (if loopCfg.timeout * 2 ^ (q.tryCount / loopCfg.nservers) < 2 ^ 31 then
            loopCfg.timeout * 2 ^ (q.tryCount / loopCfg.nservers) else loopCfg.timeout) ∧
        q'.timeout.Normal ∧
        (timeplus loopCfg.timeout q.tryCount loopCfg.nservers < 2 ^ 63 →
          q'.timeout.micros =
            Timeval.micros ⟨0, 0⟩ + timeplus loopCfg.timeout q.tryCount loopCfg.nservers * 1000) ∧
        (2 ^ 63 ≤ timeplus loopCfg.timeout q.tryCount loopCfg.nservers →
          q'.timeout.micros < Timeval.micros ⟨0, 0⟩ + 1000000) := by
  obtain ⟨q, hq⟩ : ∃ q, tcSent.queries 0 = some q := Option.isSome_iff_exists.mp (by decide)
  have hs : armAndEnqueue loopCfg tcEnv tcSent 0 q 0 ⟨0, 0⟩ .nextServer = .ok _ := rfl
  exact ⟨q, _, hq, by decide, by decide, hs, stored_deadline (by decide) (by decide) hs⟩

/-- One server, three tries, and a timeout of `2^63` milliseconds, a value `set_options` stores
from `RES_OPTIONS` `retrans:` unchecked. -/
def hugeCfg : Config := { loopCfg with timeout := 2 ^ 63 }

/-- A request with id 7 sent over UDP at time 0. -/
def hugeSent : Channel :=
  aresSend hugeCfg tcEnv (Channel.init hugeCfg {} fun _ => loopAddr) 7 (List.replicate 12 0)
    ⟨0, 0⟩

/-- `ares_process` at the same instant, with nothing to read. -/
def hugeRetimed : Channel := processfds hugeCfg tcEnv hugeSent none none none none ⟨0, 0⟩

/-- With a timeout of `2^63` milliseconds, the deadline stored at time 0 is about `2^63`
milliseconds before it, not after; `ares_process` at the same instant times the query out and
sends it again. -/
theorem huge_timeout_deadline_past :
    Reachable hugeCfg tcEnv hugeRetimed ∧
      (hugeSent.queries 0).map Query.timeout = some ⟨-9223372036854775, 808000⟩ ∧
      Event.sent 0 0 1 .nextServer ∈ hugeRetimed.trace :=
  ⟨.process _ _ _ _ _ (.send _ _ _ (.init _ _) (by decide) rfl), by decide, by decide⟩

end CAres
