import CAres.Proof.Retry

/-! # The invariant at the engine's call boundaries

`Inv cfg ch` is `Wf` together with three facts that hold only between operations: every
live query is `Settled` (it has a deadline entry, and the list its node names is an open
connection's); the trace is `TraceOk`: the faults it records are only the two the code can
run into (`Fault.Tolerated`), and every success callback directly follows the entry of the
`process_answer` call that carried its answer, and every entry over TCP directly follows the
frame it carries; the sends are in step with the live records (`Retry`); and each server's
TCP buffers are what its streams leave (`Streams`). `handle_error` breaks the first fact
while it drains a closed connection's list, and restores it once the list is empty
(`CAres.Proof.Drain`).

This file proves that `process_answer` keeps `Inv`, and that it closes no TCP
connection. -/

namespace CAres

open Function

/-- The faults a run may record: `process_timeouts` reading `query->conn` of a query whose
connection is gone, the undefined growth of the socket list, and the EDNS fallback going on
with a `NULL` `tcpbuf`. -/
def Fault.Tolerated : Fault → Prop
  | .staleQueryConn _ | .socketListRealloc | .tcpbufRealloc _ => True
  | _ => False

/-- `e`, if it is a success callback, directly follows the entry of the `process_answer`
call that carried its answer; `prev` is the event recorded just before `e`. -/
def Event.AnsweredAfter (e : Event) (prev : Option Event) : Prop :=
  ∀ {h t a}, e = .callback h .success t a →
    ∃ c P tcp, a = some P ∧ prev = some (.answered c P tcp)

/-- `e`, if it is the entry of a `process_answer` call over TCP, directly follows the frame
whose payload it carries: the tagged bytes after their two length bytes. -/
def Event.FramedAfter (e : Event) (prev : Option Event) : Prop :=
  ∀ {c P}, e = .answered c P true → ∃ i F, P = F.drop 2 ∧ prev = some (.tcpFramed i c F)

/-- Every event of a trace (newest first) stands in `R` to the event recorded just before
it. -/
def Adjacent (R : Event → Option Event → Prop) : List Event → Prop
  | [] => True
  | e :: rest => R e rest.head? ∧ Adjacent R rest

theorem Adjacent.of_append {R : Event → Option Event → Prop} :
    ∀ {l₁ : List Event} {e : Event} {l₂ : List Event}, Adjacent R (l₁ ++ e :: l₂) →
      R e l₂.head?
  | [], _, _, hp => hp.1
  | _ :: _, _, _, hp => of_append hp.2

/-- What the trace satisfies at every call boundary. -/
structure TraceOk (tr : List Event) : Prop where
  faults : ∀ {f}, Event.fault f ∈ tr → f.Tolerated
  paired : Adjacent Event.AnsweredAfter tr
  framed : Adjacent Event.FramedAfter tr

namespace TraceOk

variable {tr : List Event} {e : Event}

theorem cons (ht : TraceOk tr) (hf : ∀ f, e = .fault f → f.Tolerated)
    (hs : ∀ {h t a}, e ≠ .callback h .success t a) (hfr : e.FramedAfter tr.head?) :
    TraceOk (e :: tr) := by
  refine ⟨fun hm => ?_, ⟨fun he => absurd he hs, ht.paired⟩, ⟨hfr, ht.framed⟩⟩
  rcases List.mem_cons.mp hm with heq | hm
  · exact hf _ heq.symm
  · exact ht.faults hm

/-- An event that is not a callback. -/
theorem emit (ht : TraceOk tr) (hf : ∀ f, e = .fault f → f.Tolerated)
    (hb : e.callbackOf = none) (hfr : e.FramedAfter tr.head?) : TraceOk (e :: tr) :=
  ht.cons hf (fun he => by simp [he, Event.callbackOf] at hb) hfr

theorem append (ht : TraceOk tr) :
    ∀ {evs : List Event}, (∀ e ∈ evs, e.Dispatchable) → TraceOk (evs ++ tr)
  | [], _ => ht
  | e :: evs, hevs => by
    have hd := hevs e (List.mem_cons_self _ _)
    refine (ht.append fun e' he' => hevs e' (List.mem_cons_of_mem _ he')).cons (fun f hf => ?_)
      (fun hs => ?_) fun ha => ?_
    · subst hf; cases f <;> trivial
    · subst hs; exact hd.1 rfl
    · subst ha; exact hd.elim

/-- The events of a dispatch. -/
theorem dispatch {ch ch' : Channel} (ht : TraceOk ch.trace) (d : DispatchTrace ch ch') :
    TraceOk ch'.trace := by
  obtain ⟨evs, heq, hevs⟩ := d
  rw [heq]; exact ht.append hevs

/-- The callback of `process_answer`'s acceptance. -/
theorem success (ht : TraceOk tr) {c : ConnId} {P : Bytes} {tcp : Bool}
    (hprev : tr.head? = some (.answered c P tcp)) (h : QueryId) (t : Nat) :
    TraceOk (.callback h .success t (some P) :: tr) :=
  ⟨fun hm => ht.faults (List.mem_of_ne_of_mem (by simp) hm),
    ⟨fun he => by cases he; exact ⟨c, P, tcp, rfl, hprev⟩, ht.paired⟩, ⟨nofun, ht.framed⟩⟩

end TraceOk

/-- The invariant at every call boundary of the engine. -/
structure Inv (cfg : Config) (ch : Channel) : Prop where
  wf : Wf cfg ch
  settled : ∀ h, Settled h ch
  trace : TraceOk ch.trace
  retry : Retry cfg ch
  streams : Streams ch

/-- Every open connection of `ch` is still open in `ch'`, with its server and transport, and
every server keeps its address. -/
structure KeepsOpen (ch ch' : Channel) : Prop where
  conns : ∀ {c conn}, ch.conns c = some conn →
    ∃ conn', ch'.conns c = some conn' ∧ conn'.server = conn.server ∧ conn'.isTcp = conn.isTcp
  addr : ∀ i, (ch'.servers i).addr = (ch.servers i).addr

/-- What `process_answer` keeps: no TCP connection is closed, a connection that is still
open has its server, and every server keeps its address. -/
structure AnswerKeeps (ch ch' : Channel) : Prop where
  tcp : ∀ {c conn}, ch.conns c = some conn → conn.isTcp = true →
    ∃ conn', ch'.conns c = some conn' ∧ conn'.isTcp = true
  server : ∀ {c conn conn'}, ch.conns c = some conn → ch'.conns c = some conn' →
    conn'.server = conn.server
  addr : ∀ i, (ch'.servers i).addr = (ch.servers i).addr

variable {cfg : Config} {env : Env} {ch ch' : Channel} {h : QueryId} {q : Query}

theorem KeepsOpen.refl (ch : Channel) : KeepsOpen ch ch :=
  ⟨fun hc => ⟨_, hc, rfl, rfl⟩, fun _ => rfl⟩

theorem KeepsOpen.of_eq (hc : ch'.conns = ch.conns) (hs : ch'.servers = ch.servers) :
    KeepsOpen ch ch' := ⟨fun h => ⟨_, hc ▸ h, rfl, rfl⟩, fun _ => by rw [hs]⟩

theorem KeepsOpen.trans {ch₁ : Channel} (k₁ : KeepsOpen ch ch₁) (k₂ : KeepsOpen ch₁ ch') :
    KeepsOpen ch ch' :=
  ⟨fun hc =>
    let ⟨_, h₁, s₁, t₁⟩ := k₁.conns hc
    let ⟨conn₂, h₂, s₂, t₂⟩ := k₂.conns h₁
    ⟨conn₂, h₂, s₂.trans s₁, t₂.trans t₁⟩, fun i => (k₂.addr i).trans (k₁.addr i)⟩

theorem Frame.keepsOpen (f : Frame h ch ch') : KeepsOpen ch ch' := ⟨f.conns_open, f.addr⟩

theorem AnswerKeeps.refl (ch : Channel) : AnswerKeeps ch ch :=
  ⟨fun hc ht => ⟨_, hc, ht⟩, fun hc hc' => by rw [hc] at hc'; cases hc'; rfl, fun _ => rfl⟩

/-- Steps that keep every connection open, then steps of `process_answer`. -/
theorem KeepsOpen.answer {ch₁ : Channel} (k₁ : KeepsOpen ch ch₁) (k₂ : AnswerKeeps ch₁ ch') :
    AnswerKeeps ch ch' where
  tcp hc ht :=
    let ⟨_, h₁, _, t₁⟩ := k₁.conns hc
    k₂.tcp h₁ (t₁.trans ht)
  server hc hc' :=
    let ⟨_, h₁, s₁, _⟩ := k₁.conns hc
    (k₂.server h₁ hc').trans s₁
  addr i := (k₂.addr i).trans (k₁.addr i)

theorem Held.of_stored (hw : Wf cfg ch) (hq : ch.queries h = some q) : Held cfg ch h q :=
  ⟨⟨q, hq, rfl, rfl⟩, hw.query_server hq, hw.query_status hq⟩

theorem Settled.frame {h' : QueryId} (hs : Settled h' ch) (f : Frame h ch ch') (hne : h' ≠ h) :
    Settled h' ch' := fun q hq => by
  rw [f.others hne] at hq
  obtain ⟨hm, hn⟩ := hs q hq
  exact ⟨f.slist hm hne, fun hc => f.isSome (hn hc)⟩

namespace Inv

theorem faults (hi : Inv cfg ch) {f : Fault} (hf : Event.fault f ∈ ch.trace) : f.Tolerated :=
  hi.trace.faults hf

/-- A dispatch of `h` from a state where every other query is settled. -/
theorem of_post (hset : ∀ h', h' ≠ h → Settled h' ch) (ht : TraceOk ch.trace)
    (hpost : Post cfg h ch ch') (hst : Streams ch) (hr : Retry cfg ch') : Inv cfg ch' := by
  obtain ⟨hw', f, hs⟩ := hpost
  refine ⟨hw', fun h' => ?_, ht.dispatch f.trace, hr, f.streams hst⟩
  by_cases e : h' = h
  · subst e; exact hs
  · exact (hset h' e).frame f e

theorem dispatch (hi : Inv cfg ch) (hpost : Post cfg h ch ch') (hr : Retry cfg ch') : Inv cfg ch' :=
  of_post (fun h' _ => hi.settled h') hi.trace hpost hi.streams hr

theorem emit (hi : Inv cfg ch) {e : Event} (he : e.Benign) (hs : e.Silent) (hb : e.OffStream)
    (hfr : e.FramedAfter ch.trace.head?) (ht : ∀ f, e = .fault f → f.Tolerated) :
    Inv cfg (ch.emit e) :=
  ⟨hi.wf.emit he, fun h' q hq => hi.settled h' q hq, hi.trace.emit ht he.1 hfr,
    hi.retry.quiet (.emit hs), hi.streams.kept (.emit hb)⟩

theorem advance (hi : Inv cfg ch) : Inv cfg ch.advance :=
  ⟨hi.wf.advance, fun h' q hq => hi.settled h' q hq, hi.trace,
    hi.retry.quiet (.of_eq rfl rfl rfl rfl), hi.streams.kept (.of_eq rfl rfl)⟩

theorem benign_answered {c : ConnId} {p : Bytes} {tcp : Bool} :
    (Event.answered c p tcp).Benign := by
  simp [Event.Benign, Event.callbackOf]

/-- Closing a connection whose list is empty settles no query anew and unsettles none. -/
theorem closeConnection (hi : Inv cfg ch) {c conn} (hc : ch.conns c = some conn)
    (hl : ch.connQueries c = []) : Inv cfg (ch.closeConnection c conn) := by
  refine ⟨hi.wf.closeConnection hc, fun h' q' hq => ?_, hi.trace.emit (by simp) rfl nofun,
    hi.retry.quiet (.of_queries rfl rfl rfl ⟨[_], rfl, List.forall_mem_singleton.mpr trivial⟩),
    hi.streams.kept (.closeConnection _ _ _)⟩
  obtain ⟨hm, hn⟩ := hi.settled h' q' hq
  refine ⟨hm, fun {c'} hnc => ?_⟩
  have e : c' ≠ c := by
    rintro rfl
    simpa [hl] using hi.wf.mem_list.mpr ⟨q', hq, hnc⟩
  simpa [Channel.closeConnection, update_noteq e] using hn hnc

/-- `ares__check_cleanup_conn` records at most a socket-state notification. -/
theorem checkCleanupConn_trace (ch : Channel) (fd : Nat) :
    DispatchTrace ch (ch.checkCleanupConn cfg fd) := by
  unfold Channel.checkCleanupConn
  split
  · exact .refl ch
  split
  · exact .refl ch
  split_ifs
  · exact (DispatchTrace.refl ch).cons (e := .sockState _ false false) trivial
  · exact .refl ch

/-- `ares__check_cleanup_conn` closes at most an idle UDP connection. -/
theorem checkCleanupConn (hi : Inv cfg ch) (fd : Nat) :
    Inv cfg (ch.checkCleanupConn cfg fd) ∧ AnswerKeeps ch (ch.checkCleanupConn cfg fd) := by
  unfold Channel.checkCleanupConn
  rcases hs : ch.connnodeBySocket fd with _ | c
  · exact ⟨hi, .refl ch⟩
  rcases hc : ch.conns c with _ | conn
  · simp only [hc]; exact ⟨hi, .refl ch⟩
  simp only [hc]
  split_ifs with hcond
  · have hne : ∀ {c' conn'}, ch.conns c' = some conn' → conn'.isTcp = true → c' ≠ c :=
      fun hc' ht e => by subst e; rw [hc] at hc'; cases hc'; simp [hcond.2.1] at ht
    have hsub : ∀ {c' conn'}, (ch.closeConnection c conn).conns c' = some conn' →
        ch.conns c' = some conn' := fun {c'} _ hc' => by
      by_cases e : c' = c
      · subst e; simp [Channel.closeConnection] at hc'
      · simpa [Channel.closeConnection, update_noteq e] using hc'
    refine ⟨hi.closeConnection hc hcond.1, fun hc' ht => ⟨_, ?_, ht⟩, fun hc' hc'' => ?_,
      addr_update (by rfl)⟩
    · simpa [Channel.closeConnection, update_noteq (hne hc' ht)] using hc'
    · rw [hsub hc''] at hc'; cases hc'; rfl
  · exact ⟨hi, .refl ch⟩

/-- Setting flags that clear the EDNS flag at most. -/
theorem setFlags (hi : Inv cfg ch) {fl : Flags} (he : fl.edns = true → ch.flags.edns = true) :
    Inv cfg { ch with flags := fl } :=
  ⟨{ hi.wf with }, fun h q hq => hi.settled h q hq, hi.trace,
    hi.retry.quiet ⟨⟨[], rfl, by simp⟩, fun hq => ⟨_, hq, rfl, rfl, rfl⟩, Nat.le_refl _, he⟩,
    hi.streams.kept (.of_eq rfl rfl)⟩

/-- `process_answer`'s acceptance, right after the entry event that carried the answer. -/
theorem endQuery_success (hi : Inv cfg ch) (hh : Held cfg ch h q) {c : ConnId} {P : Bytes}
    {tcp : Bool} (hprev : ch.trace.head? = some (.answered c P tcp)) :
    Inv cfg (ch.endQuery h q .success (some P)) ∧
      KeepsOpen ch (ch.endQuery h q .success (some P)) := by
  refine ⟨⟨hi.wf.endQuery hh (.inl ⟨rfl, rfl⟩), fun h' => ?_, ?_,
    hi.retry.quiet (.endQuery _ _ _ _ _),
    hi.streams.kept (.of_cons (e := .callback h .success q.timeouts (some P)) trivial
      (by rw [Channel.endQuery_eq]) (by rw [Channel.endQuery_eq]))⟩,
    .of_eq (by rw [Channel.endQuery_eq]) (by rw [Channel.endQuery_eq])⟩
  · by_cases e : h' = h
    · subst e; exact settled_endQuery ch h' q _ _
    intro q' hq'
    rw [Channel.endQuery_eq] at hq' ⊢
    obtain ⟨hm, hn⟩ := hi.settled h' q' (by simpa [update_noteq e] using hq')
    exact ⟨(List.mem_erase_of_ne e).mpr hm, hn⟩
  · rw [Channel.endQuery_eq]; exact hi.trace.success hprev h q.timeouts

theorem sendQuery (hi : Inv cfg ch) (hh : Held cfg ch h q) (ht : Tracked ch h q) {now : Timeval}
    {cause : Cause} (hready : Ready ch h q (some cause)) :
    Inv cfg (aresSendQuery cfg env ch h q now cause) ∧
      KeepsOpen ch (aresSendQuery cfg env ch h q now cause) :=
  have p := aresSendQuery_post hi.wf hh
  ⟨hi.dispatch p (hi.retry.sendQuery hi.wf hh ht hready), p.2.1.keepsOpen⟩

theorem nextServer (hi : Inv cfg ch) (hh : Held cfg ch h q) (ht : Tracked ch h q)
    {now : Timeval} :
    Inv cfg (CAres.nextServer cfg env ch h q now) ∧
      KeepsOpen ch (CAres.nextServer cfg env ch h q now) :=
  have p := nextServer_post hi.wf hh
  ⟨hi.dispatch p (hi.retry.nextServer hi.wf hh ht), p.2.1.keepsOpen⟩

/-- Rewriting a live query's record without moving it. -/
theorem setQuery (hi : Inv cfg ch) {q₀ : Query} (hq : ch.queries h = some q₀)
    (hqid : q.qid = q₀.qid) (hnode : q.nodeQueriesToConn = q₀.nodeQueriesToConn)
    (hconn : q.conn = q₀.conn) (hsrv : q.server = q₀.server) (htry : q.tryCount = q₀.tryCount)
    (htcp : q.usingTcp = q₀.usingTcp) (hst : q.errorStatus ≠ .success) :
    Inv cfg (ch.setQuery h q) := by
  have hh : Held cfg ch h q := ⟨⟨q₀, hq, hqid.symm, hnode.symm⟩,
    hsrv ▸ hi.wf.query_server hq, hst⟩
  refine ⟨hi.wf.setQuery hh (fun hn => hconn ▸ hi.wf.node_conn hq (hnode ▸ hn))
    (fun hn hc => hsrv ▸ hi.wf.node_server hq (hnode ▸ hn) hc), fun h' q' hq' => ?_, hi.trace,
    hi.retry.quiet (.setQuery hq hsrv htry htcp), hi.streams.kept (.of_eq rfl rfl)⟩
  simp only [Channel.setQuery_queries] at hq'
  rcases Wf.update_some_eq_some.mp hq' with ⟨rfl, rfl⟩ | ⟨-, hq'⟩
  · exact ⟨(hi.settled h' q₀ hq).1, fun hn => (hi.settled h' q₀ hq).2 (hnode ▸ hn)⟩
  · exact hi.settled h' q' hq'

/-- Taking a query off its connection's list, as `process_answer` does. -/
theorem detach (hi : Inv cfg ch) (hq : ch.queries h = some q) :
    Inv cfg ({ ch with connQueries := connListErase ch.connQueries q.nodeQueriesToConn h }.setQuery
      h { q with nodeQueriesToConn := none }) := by
  have hq₁ : ({ ch with connQueries := connListErase ch.connQueries q.nodeQueriesToConn h } :
    Channel).queries h = some q := hq
  refine ⟨hi.wf.detachConn hq, fun h' q' hq' => ?_, hi.trace,
    hi.retry.quiet ((Quiet.of_eq (by rfl) (by rfl) (by rfl) (by rfl)).trans
      (.setQuery (q := { q with nodeQueriesToConn := none }) hq₁ rfl rfl rfl)),
    hi.streams.kept (.of_eq rfl rfl)⟩
  simp only [Channel.setQuery_queries] at hq'
  rcases Wf.update_some_eq_some.mp hq' with ⟨rfl, rfl⟩ | ⟨-, hq'⟩
  · exact ⟨(hi.settled h' q hq).1, fun hn => by cases hn⟩
  · exact hi.settled h' q' hq'

theorem rcodeStatus_ne (rcode : Nat) : rcodeStatus rcode ≠ .success := by
  unfold rcodeStatus; split_ifs <;> decide

/-- Every branch of `process_answer` keeps the invariant and what `AnswerKeeps` says. -/
theorem answerBranches (hi : Inv cfg ch) (hq : ch.queries h = some q) {abuf : Bytes}
    {rec : DnsRecord} {server fd : Nat} {tcp : Bool} {now : Timeval} {c : ConnId}
    (hprev : ch.trace.head? = some (.answered c abuf tcp)) :
    Inv cfg (CAres.answerBranches cfg env ch abuf rec server fd tcp h q now) ∧
      AnswerKeeps ch (CAres.answerBranches cfg env ch abuf rec server fd tcp h q now) := by
  have hh := Held.of_stored hi.wf hq
  have clean : ∀ {ch₁}, Inv cfg ch₁ ∧ KeepsOpen ch ch₁ →
      Inv cfg (ch₁.checkCleanupConn cfg fd) ∧ AnswerKeeps ch (ch₁.checkCleanupConn cfg fd) :=
    fun ⟨hi₁, k₁⟩ => let ⟨hi₂, k₂⟩ := hi₁.checkCleanupConn fd; ⟨hi₂, k₁.answer k₂⟩
  unfold CAres.answerBranches
  dsimp only
  have hrec := hi.retry.live hq
  have flip (he : ch.flags.edns = true) :
      Inv cfg { ch with flags := { ch.flags with edns := !ch.flags.edns } }.advance :=
    (hi.setFlags fun he' => absurd he' (by simp [he])).advance
  split_ifs with hedns halloc htc htcp hrc hsrv
  · have hi' := flip hedns.1
    apply clean
    have hh' : Held cfg { ch with flags := { ch.flags with edns := !ch.flags.edns } }.advance h
        (ednsStrip q) := ⟨hh.stored, hh.server_lt, hh.status⟩
    have hready : Ready { ch with flags := { ch.flags with edns := !ch.flags.edns } }.advance h
        (ednsStrip q) (some .ednsFallback) :=
      ⟨hrec.sent, Nat.eq_zero_of_not_pos fun hpos => by
        simp [hi.retry.fallback_edns hpos] at hedns, by simp [hedns.1]⟩
    have ht : Tracked { ch with flags := { ch.flags with edns := !ch.flags.edns } }.advance h
        (ednsStrip q) := ⟨q, hq, rfl, rfl, id⟩
    exact ⟨(hi'.sendQuery hh' ht hready).1, (hi'.sendQuery hh' ht hready).2.conns,
      (hi'.sendQuery hh' ht hready).2.addr⟩
  · exact ⟨(flip hedns.1).emit (by simp [Event.Benign, Event.callbackOf]) trivial trivial nofun
      fun _ he => by cases he; trivial, (KeepsOpen.of_eq (by rfl) (by rfl)).answer (.refl _)⟩
  · exact clean ⟨hi, .refl ch⟩
  · exact clean (hi.sendQuery (hh.congr rfl rfl hh.server_lt hh.status :
      Held cfg ch h { q with usingTcp := true }) ⟨q, hq, rfl, rfl, fun _ => rfl⟩
      ⟨hrec.sent, fun hm => htcp (hrec.upgraded hm), rfl⟩)
  · have hh' : Held cfg ch h { q with errorStatus := rcodeStatus rec.rcode } :=
      hh.congr rfl rfl hh.server_lt (rcodeStatus_ne _)
    exact clean (hi.nextServer (hh'.skip server)
      (Tracked.skip (⟨q, hq, rfl, rfl, id⟩ :
        Tracked ch h { q with errorStatus := rcodeStatus rec.rcode })))
  · apply clean
    refine ⟨hi.setQuery hq ?_ ?_ ?_ ?_ ?_ ?_ ?_, .of_eq rfl rfl⟩ <;>
      unfold skipServer <;> split <;> first | rfl | exact rcodeStatus_ne _
  · exact clean (hi.endQuery_success hh hprev)

/-- `process_answer` on an open connection keeps the invariant and what `AnswerKeeps`
says. -/
theorem processAnswer (hi : Inv cfg ch) (env : Env) {c : ConnId} {conn : Conn}
    (hc : ch.conns c = some conn) {abuf : Bytes} {tcp : Bool} {now : Timeval}
    (hfr : (Event.answered c abuf tcp).FramedAfter ch.trace.head?) :
    Inv cfg (CAres.processAnswer cfg env ch abuf c tcp now) ∧
      AnswerKeeps ch (CAres.processAnswer cfg env ch abuf c tcp now) := by
  have hi₀ := hi.emit (e := .answered c abuf tcp) benign_answered trivial trivial hfr (by simp)
  have k₀ : AnswerKeeps ch (ch.emit (.answered c abuf tcp)) :=
    (KeepsOpen.of_eq (by rfl) (by rfl)).answer (.refl _)
  unfold CAres.processAnswer
  simp only [Channel.emit_conns, hc]
  split
  · exact ⟨hi₀, k₀⟩
  split
  · exact ⟨hi₀, k₀⟩
  rename_i h hqid
  obtain ⟨q, hq, -⟩ := hi₀.wf.qid.mp hqid
  simp only [hq]
  split
  · exact And.imp id (KeepsOpen.of_eq (by rfl) (by rfl)).answer
      ((hi₀.detach hq).answerBranches (by simp) (c := c) (by simp))
  · exact ⟨hi₀, k₀⟩

end Inv

/-- Under the invariant a query has a deadline entry exactly while it is live. -/
theorem Inv.mem_slist (hi : Inv cfg ch) :
    h ∈ ch.queriesByTimeout ↔ (ch.queries h).isSome :=
  ⟨hi.wf.slist_live, fun hs => by
    obtain ⟨q, hq⟩ := Option.isSome_iff_exists.mp hs
    exact (hi.settled h q hq).1⟩

end CAres
