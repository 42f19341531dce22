import CAres.Proof.Walk
import CAres.Spec.Registry

/-! # Termination of the retry recursion and of the timeout walk

`next_server` (`ares_process.c`, lines 676-717) and `ares__send_query` (719-861) call each
other: a refused open or a failed write in `ares__send_query` falls back to `next_server`, which
calls `ares__send_query` on the next eligible server. The model runs the loop of `next_server`
with the rounds left, `loopBound - try_count`, as its structural measure. `NextServerRun` is the
C loop itself, with no measure: a round raises `try_count` and tests it against
`nservers * tries`. `nextServerLoop_run` shows the two agree, because a send that asks for the
next server hands the query back with its try count kept (`sendAttempt_retry_eq`). So the run
is finite, and the try counts of its sends rise strictly below the bound (`TriesAfter`).

`process_timeouts` (487-515) walks `queries_by_timeout` from a cached successor. A query
re-armed at a deadline not after `now` may be met again further down the list. `WalkRun` is the
C walk with no bound. Every timeout step lowers `roundsLeft` (`CAres.Proof.Walk`), so the walk
ends within it (`processTimeoutsLoop_run`), below the fuel `process_timeouts` gives. -/

namespace CAres

variable {cfg : Config} {env : Env} {ch ch' : Channel} {h : QueryId} {q q' : Query} {now : Timeval}
  {cause : Cause}

theorem sendUdp_retry_eq (hs : sendUdp cfg env ch h q now cause = .retry ch' q') :
    q' = skipServer cfg q q.server := by
  unfold sendUdp at hs
  generalize reusableUdp cfg ch q.server = reuse at hs
  generalize ch.openConnection env q.server false = p at hs
  obtain ⟨st, ch₁⟩ := p
  rcases reuse with _ | c <;> dsimp only at hs <;> (repeat' split at hs) <;>
    first | exact absurd hs armAndEnqueue_ne_retry | (cases hs; rfl) | cases hs

theorem sendTcp_retry_eq (hs : sendTcp cfg env ch h q now cause = .retry ch' q') :
    q' = skipServer cfg q q.server := by
  unfold sendTcp at hs
  generalize (ch.servers q.server).tcpConn = c at hs
  generalize ch.openConnection env q.server true = p at hs
  obtain ⟨st, ch₁⟩ := p
  rcases c with _ | c <;> dsimp only at hs <;> (repeat' split at hs) <;>
    first | exact absurd hs armAndEnqueue_ne_retry | (cases hs; rfl) | cases hs

/-- A send that asks for the next server hands back the query it was given, with the server
marked skipped: its try count is kept. -/
theorem sendAttempt_retry_eq (hs : sendAttempt cfg env ch h q now cause = .retry ch' q') :
    q' = skipServer cfg q q.server := by
  unfold sendAttempt at hs
  split at hs
  · exact sendTcp_retry_eq hs
  · exact sendUdp_retry_eq hs

variable (cfg env)

/-- The query after one step of the loop of `next_server`: one more try, on the next server. -/
def nextTry (q : Query) : Query :=
  { q with tryCount := q.tryCount + 1, server := (q.server + 1) % cfg.nservers }

/-- `next_server` on query `h` with record `q`, run to its end as the C loop runs it, with no
bound but its own test: `ts` lists the try counts of the `ares__send_query` calls it makes, and
`ch'` is the channel it ends with. A round raises `try_count` and ends the query once that
reaches `nservers * tries`, as computed in `size_t`, or the query is not to be retried;
otherwise it moves to the next server, passes it over if it is not eligible, and else sends,
going on only after a send that asks for the next server. -/
inductive NextServerRun (h : QueryId) (now : Timeval) :
    Channel → Query → List Nat → Channel → Prop
  | exhausted {ch : Channel} {q : Query} :
      ¬(q.tryCount + 1 < loopBound cfg ∧ q.noRetries = false) →
      NextServerRun h now ch q []
        (ch.endQuery h { q with tryCount := q.tryCount + 1 } q.errorStatus none)
  | skip {ch ch' : Channel} {q : Query} {ts : List Nat} :
      q.tryCount + 1 < loopBound cfg → q.noRetries = false →
      eligible ch (nextTry cfg q) = false →
      NextServerRun h now ch (nextTry cfg q) ts ch' → NextServerRun h now ch q ts ch'
  | sent {ch ch' : Channel} {q : Query} :
      q.tryCount + 1 < loopBound cfg → q.noRetries = false →
      eligible ch (nextTry cfg q) = true →
      sendAttempt cfg env ch h (nextTry cfg q) now .nextServer = .ok ch' →
      NextServerRun h now ch q [q.tryCount + 1] ch'
  | failed {ch ch' : Channel} {q q' : Query} {st : Status} :
      q.tryCount + 1 < loopBound cfg → q.noRetries = false →
      eligible ch (nextTry cfg q) = true →
      sendAttempt cfg env ch h (nextTry cfg q) now .nextServer = .fail ch' q' st →
      NextServerRun h now ch q [q.tryCount + 1] (ch'.endQuery h q' st none)
  | retried {ch ch' ch'' : Channel} {q q' : Query} {ts : List Nat} :
      q.tryCount + 1 < loopBound cfg → q.noRetries = false →
      eligible ch (nextTry cfg q) = true →
      sendAttempt cfg env ch h (nextTry cfg q) now .nextServer = .retry ch' q' →
      NextServerRun h now ch' q' ts ch'' → NextServerRun h now ch q ((q.tryCount + 1) :: ts) ch''

/-- The try counts of a run rise strictly from the one it starts after, and stay below the
loop's bound. -/
def TriesAfter (t : Nat) (ts : List Nat) : Prop :=
  ts.Pairwise (· < ·) ∧ ∀ x ∈ ts, t < x ∧ x < loopBound cfg

variable {cfg env}

namespace TriesAfter

theorem nil (t : Nat) : TriesAfter cfg t [] := ⟨.nil, nofun⟩

theorem cons {t x : Nat} {ts : List Nat} (hx : t < x) (hb : x < loopBound cfg)
    (hts : TriesAfter cfg x ts) : TriesAfter cfg t (x :: ts) := by
  refine ⟨.cons (fun y hy => (hts.2 y hy).1) hts.1, ?_⟩
  rintro y (_ | ⟨_, hy⟩)
  · exact ⟨hx, hb⟩
  · exact ⟨Nat.lt_trans hx (hts.2 y hy).1, (hts.2 y hy).2⟩

theorem mono {t t' : Nat} {ts : List Nat} (ht : t' ≤ t) (hts : TriesAfter cfg t ts) :
    TriesAfter cfg t' ts :=
  ⟨hts.1, fun y hy => ⟨Nat.lt_of_le_of_lt ht (hts.2 y hy).1, (hts.2 y hy).2⟩⟩

end TriesAfter

variable (cfg env)

/-- The loop of `next_server`, with its rounds left counted down from `loopBound - try_count`,
is the run of the C loop: that run ends, within the loop's bound. -/
theorem nextServerLoop_run :
    ∀ (k : Nat) (ch : Channel) (q : Query), k = loopBound cfg - q.tryCount →
      ∃ ts, NextServerRun cfg env h now ch q ts (nextServerLoop cfg env h now k ch q) ∧
        TriesAfter cfg q.tryCount ts
  | k + 2, ch, q, hk => by
    rw [nextServerLoop]; dsimp only
    have hlt : q.tryCount + 1 < loopBound cfg := by omega
    split
    · next hn => exact ⟨[], .exhausted (by simp [hn]), .nil _⟩
    next hn =>
    have hn : q.noRetries = false := by simpa using hn
    have hnext : k + 1 = loopBound cfg - (nextTry cfg q).tryCount := by simp only [nextTry]; omega
    have hone := TriesAfter.cons (Nat.lt_succ_self _) hlt (.nil (q.tryCount + 1))
    split
    · next he =>
      split
      · next ch' hs => exact ⟨_, .sent hlt hn he hs, hone⟩
      · next ch' q' hs =>
        have hq' : q'.tryCount = q.tryCount + 1 := by
          rw [sendAttempt_retry_eq hs, skipServer_tryCount]
        obtain ⟨ts, hrun, hts⟩ := nextServerLoop_run (k + 1) ch' q' (by omega)
        exact ⟨_, .retried hlt hn he hs hrun, .cons (Nat.lt_succ_self _) hlt (hq' ▸ hts)⟩
      · next ch' q' st hs => exact ⟨_, .failed hlt hn he hs, hone⟩
    · next he =>
      obtain ⟨ts, hrun, hts⟩ := nextServerLoop_run (k + 1) ch (nextTry cfg q) hnext
      exact ⟨ts, .skip hlt hn (by simpa using he) hrun, hts.mono (Nat.le_succ _)⟩
  | 0, ch, q, hk | 1, ch, q, hk => ⟨[], .exhausted (by omega), .nil _⟩

/-- The walk of `process_timeouts` from the cursor `c`, as the C loop runs it, with no bound:
it ends at the end of the list, at a cursor whose query is gone (a fault), or at a query whose
deadline has not passed; otherwise it applies the timeout step and goes on with the successor
cached before it. `n` counts the timeout steps. -/
inductive WalkRun (now : Timeval) : Channel → Option QueryId → Nat → Channel → Prop
  | finished {ch : Channel} : WalkRun now ch none 0 ch
  | fault {ch : Channel} {h : QueryId} :
      ch.queries h = none → WalkRun now ch (some h) 0 (ch.emit (.fault (.queryAfterEnd h)))
  | pending {ch : Channel} {h : QueryId} {q : Query} :
      ch.queries h = some q → aresTimedout now q.timeout = false → WalkRun now ch (some h) 0 ch
  | step {ch ch' : Channel} {h : QueryId} {q : Query} {n : Nat} :
      ch.queries h = some q → aresTimedout now q.timeout = true →
      WalkRun now (timeoutStep cfg env ch h q now) (slistNext h ch.queriesByTimeout) n ch' →
      WalkRun now ch (some h) (n + 1) ch'

variable {cfg env}

/-- After a timeout step the cached successor is still in the list: the step only moves the
entry of its own query. -/
theorem slistNext_mem_timeoutStep (hi : Inv cfg ch) (hq : ch.queries h = some q)
    {x : QueryId} (hx : slistNext h ch.queriesByTimeout = some x) :
    x ∈ (timeoutStep cfg env ch h q now).queriesByTimeout := by
  have hne : x ≠ h := slistNext_ne hi.wf.slist_nodup hx
  have hm : x ∈ ch.queriesByTimeout.erase h := (List.mem_erase_of_ne hne).mpr (slistNext_mem hx)
  rcases (timeoutStep_spec env now hi hq).2.2.1 with ⟨-, hl⟩ | ⟨q', -, hl⟩
  · rw [hl]; exact hm
  · rw [hl]; exact (mem_insertByTimeout _ _ _ _ _).mpr (.inr hm)

/-- With fuel above `roundsLeft`, the walk from a cursor in the list is the run of the C loop,
and it makes at most `roundsLeft` timeout steps. -/
theorem processTimeoutsLoop_run :
    ∀ (fuel : Nat) (ch : Channel) (c : Option QueryId), Inv cfg ch →
      (∀ x ∈ c, x ∈ ch.queriesByTimeout) → roundsLeft cfg ch < fuel →
      ∃ n ≤ roundsLeft cfg ch,
        WalkRun cfg env now ch c n (processTimeoutsLoop cfg env now fuel ch c)
  | 0, _, _, _, _, hf => absurd hf (Nat.not_lt_zero _)
  | fuel + 1, ch, none, _, _, _ => ⟨0, Nat.zero_le _, .finished⟩
  | fuel + 1, ch, some h, hi, hc, hf => by
    rw [processTimeoutsLoop_some]
    rcases hq : ch.queries h with _ | q
    · exact ⟨0, Nat.zero_le _, .fault hq⟩
    dsimp only
    split
    · next hdue =>
      obtain ⟨hi', ho, hr, ht⟩ := timeoutStep_spec env now hi hq
      have hround := roundsLeft_lt hi.wf (hc h rfl) hq (hi.retry.tryCount_le hq) ho hr ht
      obtain ⟨n, hn, hrun⟩ := processTimeoutsLoop_run fuel _ _ hi'
        (fun x hx => slistNext_mem_timeoutStep hi hq hx) (by omega)
      exact ⟨n + 1, by omega, .step hq hdue hrun⟩
    · next hnot => exact ⟨0, Nat.zero_le _, .pending hq (by simpa using hnot)⟩

/-- From every reachable state the recursion between `next_server` and `ares__send_query`
ends. `next_server` is a finite run of the C loop: its calls of `ares__send_query` come at
strictly rising try counts, each above the one it starts from and below `nservers * tries` as
the code computes it. The same holds of the `next_server` that `ares__send_query` falls back
to. The walk of `process_timeouts` ends as well, after at most `roundsLeft` timeout steps, even
when a query re-armed at a deadline not after `now` is met again further down the list. -/
theorem send_query_terminates (hr : Reachable cfg env ch) (h : QueryId) (q : Query)
    (now : Timeval) :
    (∃ ts, NextServerRun cfg env h now ch q ts (nextServer cfg env ch h q now) ∧
      TriesAfter cfg q.tryCount ts) ∧
    (∀ cause ch' q', sendAttempt cfg env ch h q now cause = .retry ch' q' →
      ∃ ts, NextServerRun cfg env h now ch' q' ts (aresSendQuery cfg env ch h q now cause) ∧
        TriesAfter cfg q.tryCount ts) ∧
    ∃ n ≤ roundsLeft cfg ch,
      WalkRun cfg env now ch ch.queriesByTimeout.head? n (processTimeouts cfg env ch now) := by
  refine ⟨nextServerLoop_run cfg env _ ch q rfl, fun cause ch' q' hs => ?_, ?_⟩
  · have hq' : q'.tryCount = q.tryCount := by rw [sendAttempt_retry_eq hs, skipServer_tryCount]
    rw [aresSendQuery, hs]
    exact hq' ▸ nextServerLoop_run cfg env _ ch' q' rfl
  · exact processTimeoutsLoop_run _ ch _ hr.inv (fun x hx => List.mem_of_mem_head? hx)
      (Nat.lt_succ_of_le (roundsLeft_le ch))

theorem send_query_terminates_tcSent :
    ∃ q, tcSent.queries 0 = some q ∧ Reachable loopCfg tcEnv tcSent ∧
      (∃ ts, NextServerRun loopCfg tcEnv 0 ⟨5, 0⟩ tcSent q ts
          (nextServer loopCfg tcEnv tcSent 0 q ⟨5, 0⟩) ∧ TriesAfter loopCfg q.tryCount ts) ∧
      (∀ cause ch' q', sendAttempt loopCfg tcEnv tcSent 0 q ⟨5, 0⟩ cause = .retry ch' q' →
        ∃ ts, NextServerRun loopCfg tcEnv 0 ⟨5, 0⟩ ch' q' ts
            (aresSendQuery loopCfg tcEnv tcSent 0 q ⟨5, 0⟩ cause) ∧
          TriesAfter loopCfg q.tryCount ts) ∧
      ∃ n ≤ roundsLeft loopCfg tcSent, WalkRun loopCfg tcEnv ⟨5, 0⟩ tcSent
        tcSent.queriesByTimeout.head? n (processTimeouts loopCfg tcEnv tcSent ⟨5, 0⟩) := by
  obtain ⟨q, hq⟩ : ∃ q, tcSent.queries 0 = some q := Option.isSome_iff_exists.mp (by decide)
  exact ⟨q, hq, tcSent_reachable, send_query_terminates tcSent_reachable 0 q ⟨5, 0⟩⟩

end CAres
