import CAres.Spec.Registry

/-! # `next_server` against its reference

`next_server` walks the servers after the query's current one, raising `try_count` at each
step, until an eligible server comes up or `try_count` reaches `nservers * tries`. The
reference `nextServerRef` states the outcome in one step: with `t0` and `s0` the try count
and server on entry, the least offset `i ≥ 1` with `t0 + i < N` whose server
`(s0 + i) % nservers` is eligible is sent to with try count `t0 + i`; if there is none, or the
query is not to be retried, it ends with its `error_status`.

`nextServer_spec` proves the loop equal to the reference with `N = loopBound cfg`, the product
as the code computes it, in `size_t`. Over unbounded integers the two differ once the product
wraps: with two servers and `2^63` tries the bound is 0, and a query that times out ends after
one send although the next server is eligible (`wrapped_bound_ends_query`). -/

namespace CAres

/-- The eligibility test of the reference for server `s`: the query does not skip it, and it
is not the TCP connection the query was already sent on. -/
def eligibleAt (ch : Channel) (q : Query) (s : Nat) : Bool :=
  !(q.serverInfo s).skipServer &&
    !(q.usingTcp && (q.serverInfo s).tcpConnectionGeneration ==
      (ch.servers s).tcpConnectionGeneration)

/-- Offset `i` is a candidate of the reference with loop bound `N`: `i ≥ 1`, `t0 + i < N`,
and the server `i` places after the query's is eligible. -/
def candidate (cfg : Config) (ch : Channel) (q : Query) (N i : Nat) : Bool :=
  1 ≤ i && q.tryCount + i < N && eligibleAt ch q ((q.server + i) % cfg.nservers)

/-- The reference of `next_server`, as the spec states it, for the loop bound `N`. -/
def nextServerRef (cfg : Config) (env : Env) (N : Nat) (ch : Channel) (h : QueryId) (q : Query)
    (now : Timeval) : Channel :=
  if q.noRetries then ch.endQuery h q q.errorStatus none
  else
    match (List.range N).find? (candidate cfg ch q N) with
    | some i => aresSendQuery cfg env ch h
        { q with tryCount := q.tryCount + i, server := (q.server + i) % cfg.nservers } now
        .nextServer
    | none => ch.endQuery h q q.errorStatus none

variable {cfg : Config} {env : Env} {ch : Channel} {h : QueryId} {q : Query} {now : Timeval}

/-- Ending a query reads only its id, its list node and its timeout count. -/
theorem endQuery_congr {q' : Query} (hqid : q'.qid = q.qid)
    (hnode : q'.nodeQueriesToConn = q.nodeQueriesToConn) (ht : q'.timeouts = q.timeouts)
    (st : Status) (a : Option Bytes) : ch.endQuery h q' st a = ch.endQuery h q st a := by
  simp only [Channel.endQuery_eq, hqid, hnode, ht]

theorem candidate_eq_true {N i : Nat} :
    candidate cfg ch q N i = true ↔
      1 ≤ i ∧ q.tryCount + i < N ∧ eligibleAt ch q ((q.server + i) % cfg.nservers) = true := by
  simp only [candidate, Bool.and_eq_true, decide_eq_true_eq, and_assoc]

/-- One round of the loop moves the query one server on: the candidates of the moved query
are those of the query, one offset earlier. -/
theorem candidate_round {N i : Nat} :
    candidate cfg ch
        { q with tryCount := q.tryCount + 1, server := (q.server + 1) % cfg.nservers } N i =
        true ↔
      1 ≤ i ∧ candidate cfg ch q N (i + 1) = true := by
  have hs : ((q.server + 1) % cfg.nservers + i) % cfg.nservers =
      (q.server + (i + 1)) % cfg.nservers := by
    rw [Nat.mod_add_mod, Nat.add_assoc, Nat.add_comm 1 i]
  rw [candidate_eq_true, candidate_eq_true]
  dsimp only
  rw [hs]
  constructor
  · rintro ⟨hi, hlt, he⟩; exact ⟨hi, by omega, by omega, he⟩
  · rintro ⟨hi, -, hlt, he⟩; exact ⟨hi, by omega, he⟩

/-- A query not to be retried ends, whatever the rounds left. -/
theorem nextServerLoop_noRetries (hn : q.noRetries = true) :
    ∀ k, nextServerLoop cfg env h now k ch q = ch.endQuery h q q.errorStatus none
  | k + 2 => by
    rw [nextServerLoop]; dsimp only
    rw [if_pos hn]; exact endQuery_congr rfl rfl rfl _ _
  | 0 | 1 => endQuery_congr rfl rfl rfl _ _

/-- The loop of `next_server`, from a query that may be retried, sends to the least candidate,
and ends the query when there is none. -/
theorem nextServerLoop_ref : ∀ (k : Nat) {ch : Channel} {q : Query}, Wf cfg ch →
    Held cfg ch h q → loopBound cfg - q.tryCount = k → q.noRetries = false →
    (∀ i, candidate cfg ch q (loopBound cfg) i = true →
      (∀ j, j < i → candidate cfg ch q (loopBound cfg) j = false) →
      nextServerLoop cfg env h now k ch q = aresSendQuery cfg env ch h
        { q with tryCount := q.tryCount + i, server := (q.server + i) % cfg.nservers } now
        .nextServer) ∧
    ((∀ i, candidate cfg ch q (loopBound cfg) i = false) →
      nextServerLoop cfg env h now k ch q = ch.endQuery h q q.errorStatus none)
  | k + 2, ch, q, hw, hh, hk, hnr => by
    rw [nextServerLoop]; dsimp only
    rw [if_neg (by simp only [hnr, Bool.false_eq_true, not_false_eq_true])]
    split
    · rename_i he
      have h1 : candidate cfg ch q (loopBound cfg) 1 = true :=
        candidate_eq_true.mpr ⟨le_rfl, by omega, he⟩
      refine ⟨fun i hi hleast => ?_, fun hnone => absurd h1 (by rw [hnone]; decide)⟩
      obtain rfl : i = 1 := by
        have := (candidate_eq_true.mp hi).1
        by_contra hne
        exact absurd h1 (by rw [hleast 1 (by omega)]; decide)
      rw [aresSendQuery]
      split
      · rfl
      · rename_i ch' q' hs
        obtain ⟨-, rfl⟩ := sendAttempt_retry hw hh.round hs
        rw [nextServer, skipServer_tryCount]
        congr 1
        dsimp only
        omega
      · rfl
    · rename_i he
      have ih := nextServerLoop_ref (k + 1) hw hh.round (by dsimp only; omega) hnr
      refine ⟨fun i hi hleast => ?_, fun hnone => ?_⟩
      · obtain ⟨i, rfl⟩ : ∃ i', i = i' + 1 :=
          ⟨i - 1, by have := (candidate_eq_true.mp hi).1; omega⟩
        have hi0 : 1 ≤ i := by
          rcases Nat.eq_zero_or_pos i with rfl | hpos
          · exact absurd (candidate_eq_true.mp hi).2.2 he
          · exact hpos
        have h2 := ih.1 i (candidate_round.mpr ⟨hi0, hi⟩) fun j hj =>
          Bool.eq_false_iff.mpr fun hc => by
            have := (candidate_round.mp hc).2
            rw [hleast (j + 1) (by omega)] at this
            exact Bool.false_ne_true this
        rw [h2]
        congr 2
        · dsimp only; omega
        · rw [Nat.mod_add_mod, Nat.add_assoc, Nat.add_comm 1 i]
      · refine (ih.2 fun i => Bool.eq_false_iff.mpr fun hc => ?_).trans
          (endQuery_congr rfl rfl rfl _ _)
        have := (candidate_round.mp hc).2
        rw [hnone] at this
        exact Bool.false_ne_true this
  | 0, ch, q, _, _, hk, _ | 1, ch, q, _, _, hk, _ =>
    have hnone : ∀ i, candidate cfg ch q (loopBound cfg) i = false := fun i =>
      Bool.eq_false_iff.mpr fun hc => by have := candidate_eq_true.mp hc; omega
    ⟨fun i hi _ => absurd hi (by rw [hnone]; decide), fun _ => endQuery_congr rfl rfl rfl _ _⟩

/-- Over every held query of a well-formed channel, `next_server` is its reference with the
loop bound `nservers * tries` computed in `size_t`. -/
theorem nextServer_spec (hw : Wf cfg ch) (hh : Held cfg ch h q) :
    nextServer cfg env ch h q now = nextServerRef cfg env (loopBound cfg) ch h q now := by
  unfold nextServer nextServerRef
  split
  · exact nextServerLoop_noRetries ‹_› _
  · rename_i hn
    have hl := @nextServerLoop_ref _ env _ now _ _ _ hw hh rfl (Bool.eq_false_iff.mpr hn)
    split
    · rename_i i hi
      obtain ⟨hc, -, hleast⟩ := List.find?_range_eq_some.mp hi
      exact hl.1 i hc fun j hj => by simpa using hleast j hj
    · rename_i hnone
      refine hl.2 fun i => Bool.eq_false_iff.mpr fun hc => ?_
      have hlt : i < loopBound cfg := by have := candidate_eq_true.mp hc; omega
      simpa [hc] using List.find?_range_eq_none.mp hnone i hlt

theorem nextServer_spec_tcSent :
    ∃ q, tcSent.queries 0 = some q ∧ Wf loopCfg tcSent ∧ Held loopCfg tcSent 0 q ∧
      nextServer loopCfg tcEnv tcSent 0 q ⟨0, 0⟩ =
        nextServerRef loopCfg tcEnv (loopBound loopCfg) tcSent 0 q ⟨0, 0⟩ := by
  obtain ⟨q, hq⟩ : ∃ q, tcSent.queries 0 = some q := Option.isSome_iff_exists.mp (by decide)
  have hw := tcSent_reachable.inv.wf
  exact ⟨q, hq, hw, Held.of_stored hw hq, nextServer_spec hw (Held.of_stored hw hq)⟩

/-- Two servers and `2^63` tries, a value `set_options` stores from `RES_OPTIONS` `retry:`
unchecked: `nservers * tries` is `2^64`, which is 0 in `size_t`. -/
def wideCfg : Config where
  nservers := 2
  nservers_pos := Nat.two_pos
  tries := 2 ^ 63
  timeout := 1000
  rotate := false
  udpMaxQueries := 0
  ednspsz := 1232

/-- A request with id 7 sent over UDP to server 0, with its deadline one second on. -/
def wideSent : Channel :=
  aresSend wideCfg tcEnv (Channel.init wideCfg {} fun _ => loopAddr) 7 (List.replicate 12 0)
    ⟨0, 0⟩

/-- Five seconds on, with nothing to read: `process_timeouts` times the query out. -/
def wideTimedOut : Channel := processfds wideCfg tcEnv wideSent none none none none ⟨5, 0⟩

/-- With `nservers * tries = 2^64`, server 1 is a candidate of the reference for the query
after its first send, yet the timeout ends the query with `ARES_ETIMEOUT` after one send. -/
theorem wrapped_bound_ends_query :
    Reachable wideCfg tcEnv wideTimedOut ∧ loopBound wideCfg = 0 ∧
      (∃ q, wideSent.queries 0 = some q ∧ q.noRetries = false ∧
        candidate wideCfg wideSent q (wideCfg.nservers * wideCfg.tries) 1 = true) ∧
      Event.callback 0 .etimeout 1 none ∈ wideTimedOut.trace ∧
      wideTimedOut.trace.countP (· matches .sent ..) = 1 := by
  have hc : (wideSent.queries 0).map (fun q =>
      (q.noRetries, candidate wideCfg wideSent q (wideCfg.nservers * wideCfg.tries) 1)) =
      some (false, true) := by decide
  obtain ⟨q, hq, hc⟩ := Option.map_eq_some'.mp hc
  simp only [Prod.mk.injEq] at hc
  exact ⟨.process _ _ _ _ _ (.send _ _ _ (.init _ _) (by decide) rfl), by decide,
    ⟨q, hq, hc⟩, by decide, by decide⟩

end CAres
