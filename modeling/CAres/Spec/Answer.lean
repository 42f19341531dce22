import CAres.Spec.Registry
import Mathlib.Data.List.Forall2

/-! # Accepting an answer

The spec's acceptance rule in its own words (`AcceptsAnswer`): the response parses, its id
is the query's, its question section is the request's, and none of the three retry
conditions (`Retries`) holds. `answer_accepted_iff` checks `process_answer` against it: on
an open connection of a reachable state, a call ends a live query with `ARES_SUCCESS` and
hands its callback the payload exactly when the rule accepts the payload for that query. The
loop of `same_questions` is compared with the rule's position-by-position reading in
`sameQuestions_iff`. Over UDP, `read_udp_packets_fd` enters `process_answer` only with a
datagram from the server's address.

`callback_failure_unless_accepted` is the other side: every callback of a run that is not
this acceptance reports a failure and no answer. -/

namespace CAres

variable {cfg : Config} {env : Env} {ch : Channel} {h : QueryId} {q : Query}

/-! ## The acceptance rule -/

/-- Two question entries are the same question: names equal ignoring case, equal type and
class. -/
def SameQuestion (q a : Question) : Prop :=
  q.name.toList.map Char.toLower = a.name.toList.map Char.toLower ∧ q.qtype = a.qtype ∧
    q.qclass = a.qclass

/-- Equal question sections: the same count and, position by position, the same question. -/
def QuestionsEqual (qs as : List Question) : Prop :=
  qs.length = as.length ∧
    ∀ i (hq : i < qs.length) (ha : i < as.length), SameQuestion (qs.get ⟨i, hq⟩) (as.get ⟨i, ha⟩)

/-- The retry conditions, under which an answer is not accepted: EDNS enabled and `FORMERR`
without an OPT record; over UDP, the TC bit or a payload longer than `packetsz`, with
`IGNTC` unset; `SERVFAIL`, `NOTIMP` or `REFUSED` with `NOCHECKRESP` unset. -/
def Retries (cfg : Config) (flags : Flags) (rec : DnsRecord) (P : Bytes) (tcp : Bool) : Prop :=
  (flags.edns = true ∧ rec.rcode = rcodeFormatError ∧ recTypeOpt ∉ rec.additional) ∨
  (tcp = false ∧ (rec.flags &&& dnsFlagTc ≠ 0 ∨ udpPacketSize cfg flags < P.length) ∧
    flags.igntc = false) ∨
  (flags.nocheckresp = false ∧ rec.rcode ∈ [rcodeServerFailure, rcodeNotImplemented, rcodeRefused])

instance (cfg : Config) (flags : Flags) (rec : DnsRecord) (P : Bytes) (tcp : Bool) :
    Decidable (Retries cfg flags rec P tcp) :=
  inferInstanceAs (Decidable (_ ∨ _ ∨ _))

/-- The acceptance rule for payload `P` received over `tcp` and the live query `q`. -/
def AcceptsAnswer (cfg : Config) (env : Env) (ch : Channel) (P : Bytes) (tcp : Bool) (q : Query) :
    Prop :=
  ∃ rec, env.parse P = some rec ∧ q.qid = rec.id ∧
    (∃ qrec, env.parse q.qbuf = some qrec ∧ QuestionsEqual qrec.questions rec.questions) ∧
    ¬ Retries cfg ch.flags rec P tcp

/-! ## The code's tests against the rule -/

theorem questionsMatch_iff : ∀ {qs as : List Question}, qs.length = as.length →
    (questionsMatch qs as = true ↔ List.Forall₂ SameQuestion qs as)
  | [], [], _ => by simp [questionsMatch]
  | [], _ :: _, hl | _ :: _, [], hl => by simp at hl
  | q :: qs, a :: as, hl => by
    simp only [questionsMatch, Bool.and_eq_true, List.forall₂_cons,
      questionsMatch_iff (Nat.succ.inj hl)]
    simp [SameQuestion, strcasecmpEq, and_assoc]

theorem sameQuestions_iff {parse : Bytes → Option DnsRecord} {qbuf : Bytes} {rec : DnsRecord} :
    sameQuestions parse qbuf rec = true ↔
      ∃ qrec, parse qbuf = some qrec ∧ QuestionsEqual qrec.questions rec.questions := by
  unfold sameQuestions
  split
  · simp [*]
  · rename_i qrec hp
    simp only [hp, Option.some.injEq, exists_eq_left', Bool.and_eq_true, beq_iff_eq]
    exact ⟨fun ⟨hl, hm⟩ => List.forall₂_iff_get.mp ((questionsMatch_iff hl).mp hm),
      fun h => ⟨h.1, (questionsMatch_iff h.1).mpr (List.forall₂_iff_get.mpr h)⟩⟩

theorem hasOptRr_eq_false {rec : DnsRecord} :
    hasOptRr rec = false ↔ recTypeOpt ∉ rec.additional := by
  simp only [hasOptRr, List.any_eq_false, beq_iff_eq]
  exact ⟨fun h hm => h _ hm rfl, fun h x hx e => h (e ▸ hx)⟩

theorem retries_iff {cfg : Config} {flags : Flags} {rec : DnsRecord} {P : Bytes} {tcp : Bool} :
    Retries cfg flags rec P tcp ↔
      (flags.edns = true ∧ rec.rcode = rcodeFormatError ∧ hasOptRr rec = false) ∨
      ((rec.flags &&& dnsFlagTc ≠ 0 ∨ udpPacketSize cfg flags < P.length) ∧ tcp = false ∧
        flags.igntc = false) ∨
      (flags.nocheckresp = false ∧ filteredRcode rec.rcode = true) := by
  simp [Retries, hasOptRr_eq_false, filteredRcode, and_left_comm, or_assoc]

/-! ## What `process_answer` records -/

/-- The events of `process_answer`'s branches: dispatch events only when a retry condition
holds, and otherwise the success callback, then dispatch events. -/
theorem answerBranches_trace (env : Env) (hw : Wf cfg ch) (hq : ch.queries h = some q)
    (abuf : Bytes) (rec : DnsRecord) (server fd : Nat) (tcp : Bool) (now : Timeval) :
    if Retries cfg ch.flags rec abuf tcp then
      DispatchTrace ch (answerBranches cfg env ch abuf rec server fd tcp h q now)
    else ∃ t, DispatchTrace (ch.emit (.callback h .success t (some abuf)))
      (answerBranches cfg env ch abuf rec server fd tcp h q now) := by
  have hh := Held.of_stored hw hq
  have clean : ∀ {ch₀ ch₁ : Channel}, DispatchTrace ch₀ ch₁ →
      DispatchTrace ch₀ (ch₁.checkCleanupConn cfg fd) :=
    fun d => d.trans (Inv.checkCleanupConn_trace _ fd)
  split_ifs with hr
  · unfold CAres.answerBranches; dsimp only
    split_ifs with h1 halloc h2 h3 h4 h5
    · have hw' : Wf cfg { ch with flags := { ch.flags with edns := !ch.flags.edns } }.advance :=
        { hw with }
      exact clean (aresSendQuery_post hw' ⟨hh.stored, hh.server_lt, hh.status⟩ :
        Post cfg h _ (aresSendQuery cfg env _ h (ednsStrip q) now .ednsFallback)).2.1.trace
    · exact (DispatchTrace.of_trace rfl).cons trivial
    · exact clean (.refl ch)
    · exact clean (aresSendQuery_post hw (hh.congr rfl rfl hh.server_lt hh.status :
        Held cfg ch h { q with usingTcp := true })).2.1.trace
    · have hh' : Held cfg ch h { q with errorStatus := rcodeStatus rec.rcode } :=
        hh.congr rfl rfl hh.server_lt (Inv.rcodeStatus_ne _)
      exact clean (nextServer_post hw (hh'.skip server)).2.1.trace
    · exact clean (.of_trace rfl)
    · rcases retries_iff.mp hr with h | h | h <;> contradiction
  · simp only [retries_iff, not_or] at hr
    obtain ⟨h1, h2, h3⟩ := hr
    unfold CAres.answerBranches; dsimp only
    rw [if_neg h1, if_neg h2, if_neg h3]
    exact ⟨q.timeouts, clean (.of_trace (by rw [Channel.endQuery_eq]; rfl))⟩
/-- The events of a `process_answer` call on an open connection: its entry event, then
dispatch events and success callbacks carrying `P` for live queries the rule accepts. -/
theorem processAnswer_trace (env : Env) (hw : Wf cfg ch) {c : ConnId} {conn : Conn}
    (hc : ch.conns c = some conn) (P : Bytes) (tcp : Bool) (now : Timeval) :
    ∃ evs, (processAnswer cfg env ch P c tcp now).trace = evs ++ .answered c P tcp :: ch.trace ∧
      ∀ e ∈ evs, e.Dispatchable ∨ ∃ h q t, e = .callback h .success t (some P) ∧
        ch.queries h = some q ∧ AcceptsAnswer cfg env ch P tcp q := by
  have base : ∃ evs, (ch.emit (.answered c P tcp)).trace = evs ++ .answered c P tcp :: ch.trace ∧
      ∀ e ∈ evs, e.Dispatchable ∨ ∃ h q t, e = .callback h .success t (some P) ∧
        ch.queries h = some q ∧ AcceptsAnswer cfg env ch P tcp q := ⟨[], rfl, by simp⟩
  unfold processAnswer
  simp only [Channel.emit_conns, hc]
  split
  · exact base
  rename_i rec hp
  split
  · exact base
  rename_i h hqid
  obtain ⟨q, hq, hqq⟩ := hw.qid.mp hqid
  simp only [Channel.emit_queries, hq]
  split
  · rename_i hsame
    have hw₂ := (hw.emit (e := .answered c P tcp) Inv.benign_answered).detachConn hq
    have hb := answerBranches_trace env hw₂ (h := h) (q := { q with nodeQueriesToConn := none })
      (by simp) P rec conn.server conn.fd tcp now
    split_ifs at hb with hr
    · obtain ⟨evs, he, hd⟩ := hb
      exact ⟨evs, he, fun e he' => .inl (hd e he')⟩
    · obtain ⟨t, evs, he, hd⟩ := hb
      refine ⟨evs ++ [.callback h .success t (some P)], by rw [he]; simp, fun e he' => ?_⟩
      rcases List.mem_append.mp he' with he' | he'
      · exact .inl (hd e he')
      · rw [List.mem_singleton] at he'; subst he'
        exact .inr ⟨h, q, t, rfl, hq, rec, hp, hqq, sameQuestions_iff.mp hsame, hr⟩
  · exact base
/-- A payload the rule accepts for a live query ends it with `ARES_SUCCESS`. -/
theorem processAnswer_accepts (env : Env) (hw : Wf cfg ch) {c : ConnId} {conn : Conn}
    (hc : ch.conns c = some conn) (hq : ch.queries h = some q) {P : Bytes} {tcp : Bool}
    (ha : AcceptsAnswer cfg env ch P tcp q) (now : Timeval) :
    ∃ t, Event.callback h .success t (some P) ∈ (processAnswer cfg env ch P c tcp now).trace := by
  obtain ⟨rec, hp, hqid, hqs, hr⟩ := ha
  have hid : ch.queriesByQid rec.id = some h := hw.qid.mpr ⟨q, hq, hqid⟩
  have hw₂ := (hw.emit (e := .answered c P tcp) Inv.benign_answered).detachConn hq
  have hb := answerBranches_trace env hw₂ (h := h) (q := { q with nodeQueriesToConn := none })
    (by simp) P rec conn.server conn.fd tcp now
  split_ifs at hb with hr'
  · exact absurd hr' hr
  obtain ⟨t, evs, he, -⟩ := hb
  unfold processAnswer
  simp only [Channel.emit_conns, hc, hp, Channel.emit_queriesByQid, hid, Channel.emit_queries, hq,
    sameQuestions_iff.mpr hqs, if_true]
  exact ⟨t, by rw [he]; simp⟩

/-- The UDP read loop enters `process_answer` only with a datagram, cut to
`MAXENDSSZ + 1` bytes, from the address of the connection's server. -/
theorem readUdpLoop_answered {c : ConnId} {now : Timeval} :
    ∀ (rs : List UdpRead) {ch : Channel} {conn : Conn}, Inv cfg ch → ch.conns c = some conn →
      ∀ {c' P tcp}, Event.answered c' P tcp ∈ (readUdpLoop cfg env c c now rs ch).trace →
        Event.answered c' P tcp ∈ ch.trace ∨ c' = c ∧ tcp = false ∧
          ∃ src bytes, UdpRead.datagram src bytes ∈ rs ∧
            sameAddress src (ch.servers conn.server).addr = true ∧ P = bytes.take (maxEndsSz + 1)
  | [], _, _, _, _, _, _, _, hm => by rw [readUdpLoop] at hm; exact .inl hm
  | r :: rest, ch, conn, hi, hc, c', P, tcp, hm => by
    rw [readUdpLoop] at hm
    simp only [hc] at hm
    split at hm
    · exact .inl hm
    · exact .inl ((hi.handleError hc).2.answered hm)
    · rename_i src bytes
      have next : ∀ {ch₁ : Channel}, Inv cfg ch₁ ∧ AnswerKeeps ch ch₁ ∧
          (∀ {c' P tcp}, Event.answered c' P tcp ∈ ch₁.trace → Event.answered c' P tcp ∈ ch.trace ∨
            c' = c ∧ tcp = false ∧ sameAddress src (ch.servers conn.server).addr = true ∧
              P = bytes.take (maxEndsSz + 1)) →
          Event.answered c' P tcp ∈ (if (ch₁.connnodeBySocket c).isSome then
            readUdpLoop cfg env c c now rest ch₁ else ch₁).trace →
          Event.answered c' P tcp ∈ ch.trace ∨ c' = c ∧ tcp = false ∧
            ∃ s b, UdpRead.datagram s b ∈ UdpRead.datagram src bytes :: rest ∧
              sameAddress s (ch.servers conn.server).addr = true ∧ P = b.take (maxEndsSz + 1) := by
        intro ch₁ ⟨hi₁, k₁, h₁⟩ hm
        split at hm
        · rename_i hs
          obtain ⟨c₁, hc₁⟩ := Option.isSome_iff_exists.mp hs
          obtain ⟨rfl, hopen⟩ := hi₁.wf.socket.mp hc₁
          obtain ⟨conn₁, hconn₁⟩ := Option.isSome_iff_exists.mp hopen
          rcases readUdpLoop_answered rest hi₁ hconn₁ hm with
            hm | ⟨e₁, e₂, src', bytes', hmem, hs', hP⟩
          · exact (h₁ hm).imp_right fun ⟨e₁, e₂, hs, hP⟩ =>
              ⟨e₁, e₂, src, bytes, List.mem_cons_self _ _, hs, hP⟩
          · refine .inr ⟨e₁, e₂, src', bytes', List.mem_cons_of_mem _ hmem, ?_, hP⟩
            rwa [k₁.server hc hconn₁, k₁.addr] at hs'
        · exact (h₁ hm).imp_right fun ⟨e₁, e₂, hs, hP⟩ =>
            ⟨e₁, e₂, src, bytes, List.mem_cons_self _ _, hs, hP⟩
      refine next ?_ hm
      split_ifs with h0 hsa
      · exact ⟨hi, .refl ch, .inl⟩
      · refine ⟨(hi.processAnswer env hc (by exact nofun)).1,
          (hi.processAnswer env hc (by exact nofun)).2, fun hm => ?_⟩
        obtain ⟨evs, he, hev⟩ :=
          processAnswer_trace env hi.wf hc (bytes.take (maxEndsSz + 1)) false now
        rw [he] at hm
        rcases List.mem_append.mp hm with hm | hm
        · rcases hev _ hm with hd | ⟨_, _, _, heq, -⟩
          · exact absurd rfl hd.ne_answered
          · cases heq
        rcases List.mem_cons.mp hm with heq | hm
        · cases heq; exact .inr ⟨rfl, rfl, hsa, rfl⟩
        · exact .inl hm
      · exact ⟨hi, .refl ch, .inl⟩
/-! ## Acceptance and the callbacks of a run -/

/-- `process_answer`, entered on an open connection of a reachable state, ends the live
query `q` with `ARES_SUCCESS` and hands its callback `P` exactly when the acceptance rule
holds, and every success callback it records carries `P`. Over UDP, `read_udp_packets_fd`
enters `process_answer` only with a datagram whose source is the server's address. -/
theorem answer_accepted_iff (hr : Reachable cfg env ch) {c : ConnId} {conn : Conn}
    (hc : ch.conns c = some conn) (hq : ch.queries h = some q) (P : Bytes) (tcp : Bool)
    (now : Timeval) :
    ((∃ t, Event.callback h .success t (some P) ∈ (processAnswer cfg env ch P c tcp now).trace) ↔
        AcceptsAnswer cfg env ch P tcp q) ∧
      (∀ {h' t a}, Event.callback h' .success t a ∈ (processAnswer cfg env ch P c tcp now).trace →
        Event.callback h' .success t a ∈ ch.trace ∨ a = some P) ∧
      ∀ {c' P' tcp'}, Event.answered c' P' tcp' ∈ (readUdpPacketsFd cfg env ch c now).trace →
        Event.answered c' P' tcp' ∈ ch.trace ∨ c' = c ∧ tcp' = false ∧
          ∃ src bytes, UdpRead.datagram src bytes ∈ env.udpRecv ch.tick ∧
            sameAddress src (ch.servers conn.server).addr = true ∧
              P' = bytes.take (maxEndsSz + 1) := by
  have hi := hr.inv
  obtain ⟨evs, he, hev⟩ := processAnswer_trace env hi.wf hc P tcp now
  refine ⟨⟨fun ⟨t, hm⟩ => ?_, fun ha => processAnswer_accepts env hi.wf hc hq ha now⟩,
    fun {h' t a} hm => ?_, fun hm => ?_⟩
  · rw [he] at hm
    rcases List.mem_append.mp hm with hm | hm
    · rcases hev _ hm with hd | ⟨h', q', t', heq, hq', ha⟩
      · exact absurd rfl hd.1
      · cases heq; rw [hq] at hq'; cases hq'; exact ha
    · rcases List.mem_cons.mp hm with heq | hm
      · cases heq
      · simp [(hi.wf.callback_ended hm).1] at hq
  · rw [he] at hm
    rcases List.mem_append.mp hm with hm | hm
    · rcases hev _ hm with hd | ⟨_, _, _, heq, -⟩
      · exact absurd rfl hd.1
      · cases heq; exact .inr rfl
    · rcases List.mem_cons.mp hm with heq | hm
      · cases heq
      · exact .inl hm
  · unfold readUdpPacketsFd at hm
    rw [hi.wf.connFd_eq] at hm
    exact readUdpLoop_answered _ hi.advance hc hm

theorem answer_accepted_iff_tcSent :
    ∃ conn q, tcSent.conns 0 = some conn ∧ tcSent.queries 0 = some q ∧
      ((∃ t, Event.callback 0 .success t (some [1]) ∈
        (processAnswer loopCfg tcEnv tcSent [1] 0 false ⟨0, 0⟩).trace) ↔
        AcceptsAnswer loopCfg tcEnv tcSent [1] false q) := by
  obtain ⟨conn, hc⟩ : ∃ conn, tcSent.conns 0 = some conn := Option.isSome_iff_exists.mp (by decide)
  obtain ⟨q, hq⟩ : ∃ q, tcSent.queries 0 = some q := Option.isSome_iff_exists.mp (by decide)
  exact ⟨conn, q, hc, hq, (answer_accepted_iff tcSent_reachable hc hq [1] false ⟨0, 0⟩).1⟩

/-- Every callback of a run reports a failure and no answer, or is a success whose answer is
the payload of the `process_answer` call entered just before; `next_server` and
`ares__send_query` record failure callbacks only. -/
theorem callback_failure_unless_accepted (hr : Reachable cfg env ch) :
    (∀ {l₁ l₂ : List Event} {h st t a}, ch.trace = l₁ ++ .callback h st t a :: l₂ →
      (st ≠ .success ∧ a = none) ∨
        ∃ c P tcp l₃, st = .success ∧ a = some P ∧ l₂ = .answered c P tcp :: l₃) ∧
    ∀ {h q}, Held cfg ch h q → ∀ now cause,
      DispatchTrace ch (nextServer cfg env ch h q now) ∧
        DispatchTrace ch (aresSendQuery cfg env ch h q now cause) := by
  have hi := hr.inv
  refine ⟨fun {l₁ l₂ h st t a} he => ?_, fun hh now cause =>
    ⟨(nextServer_post hi.wf hh).2.1.trace, (aresSendQuery_post hi.wf hh).2.1.trace⟩⟩
  rcases hi.wf.callback_status (he ▸ List.mem_append_right l₁ (List.mem_cons_self _ _)) with
    ⟨rfl, -⟩ | hf
  · have hp : Adjacent Event.AnsweredAfter (l₁ ++ .callback h .success t a :: l₂) :=
      he ▸ hi.trace.paired
    obtain ⟨c, P, tcp, rfl, hprev⟩ := hp.of_append rfl
    cases l₂ with
    | nil => cases hprev
    | cons e l₃ => cases hprev; exact .inr ⟨c, P, tcp, l₃, rfl, rfl, rfl⟩
  · exact .inl hf

theorem callback_failure_unless_accepted_tcTwice :
    Reachable loopCfg tcEnv tcTwice ∧
      ∀ {l₁ l₂ : List Event} {h st t a}, tcTwice.trace = l₁ ++ .callback h st t a :: l₂ →
        (st ≠ .success ∧ a = none) ∨
          ∃ c P tcp l₃, st = .success ∧ a = some P ∧ l₂ = .answered c P tcp :: l₃ :=
  ⟨tcTwice_reachable, (callback_failure_unless_accepted tcTwice_reachable).1⟩

end CAres
