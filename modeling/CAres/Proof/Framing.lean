import CAres.Proof.Walk
import CAres.Spec.Answer

/-! # The framing of a server's received bytes

`read_tcp_data` appends what one read returns to the server's `tcp_parser`, then takes whole
frames off its front (a 16-bit big-endian length and that many bytes) and hands each payload
to `process_answer`, until what is left holds no whole frame. Nothing else appends to
`tcp_parser` or takes from it (`ParserQuiet`).

`Framing` is what holds at every call boundary: each frame taken off a `tcp_parser` is whole
and is followed at once by `process_answer`'s entry on its payload, and no `tcp_parser` holds
a whole frame. The last part says that the framing loop stops because the buffer runs out of
whole frames and not because its bound runs out: each frame takes at least its two length
bytes, so the buffer's length bounds the rounds. With `Streams`, it fixes the frames of a
server: over any stretch of a run, what the parser held at its start followed by the bytes
received during it splits one way only into whole frames and a rest with no whole frame
(`Deframes.unique`), and those frames are the ones taken off, whatever the reads were. -/

namespace CAres

open Function

/-! ## Frames -/

/-- A DNS message as TCP carries it: its length in two big-endian bytes, then the message. -/
def tcpEncode (m : Bytes) : Bytes := (m.length / 256).toUInt8 :: (m.length % 256).toUInt8 :: m

/-- The two length bytes of a message shorter than 65536 bytes read back as its length. -/
theorem tcpEncode_len {m : Bytes} (hm : m.length < 65536) :
    (m.length / 256).toUInt8.toNat * 256 + (m.length % 256).toUInt8.toNat = m.length := by
  show m.length / 256 % 256 * 256 + m.length % 256 % 256 = m.length
  omega

theorem tcpFrame_length {b frame rest : Bytes} (hf : tcpFrame b = some (frame, rest)) :
    rest.length + 2 ≤ b.length := by
  unfold tcpFrame at hf
  split at hf
  · dsimp only at hf
    split at hf
    · cases hf; simp only [List.length_drop, List.length_cons]; omega
    · cases hf
  · cases hf

/-- What the framing loop takes off a buffer is a whole frame. -/
theorem tcpFrame_whole {b frame rest : Bytes} (hf : tcpFrame b = some (frame, rest)) :
    tcpFrame frame = some (frame, []) := by
  unfold tcpFrame at hf
  split at hf
  · dsimp only at hf
    split at hf
    · rename_i hle
      cases hf
      simp [tcpFrame, hle, List.take_take]
    · cases hf
  · cases hf

/-- A whole frame at the front of a buffer is what the framing loop takes off it. -/
theorem tcpFrame_of_whole {f : Bytes} (hf : tcpFrame f = some (f, [])) (x : Bytes) :
    tcpFrame (f ++ x) = some (f, x) := by
  unfold tcpFrame at hf
  split at hf
  · rename_i b0 b1 r
    dsimp only at hf
    split at hf
    · simp only [Option.some.injEq, Prod.mk.injEq, List.cons.injEq, true_and,
        List.drop_eq_nil_iff] at hf
      have hr : r.length = b0.toNat * 256 + b1.toNat := by omega
      simp [tcpFrame, hr, List.take_left', List.drop_left']
    · cases hf
  · cases hf

theorem tcpFrame_encode {m : Bytes} (hm : m.length < 65536) :
    tcpFrame (tcpEncode m) = some (tcpEncode m, []) := by
  simp [tcpFrame, tcpEncode, tcpEncode_len hm]

/-- A proper prefix of a frame holds no whole frame. -/
theorem tcpFrame_prefix {m r : Bytes} (hm : m.length < 65536) (hp : r <+: tcpEncode m)
    (hne : r ≠ tcpEncode m) : tcpFrame r = none := by
  obtain ⟨t, ht⟩ := hp
  match r, ht with
  | [], _ | [_], _ => rfl
  | a :: b :: rest, ht =>
    have hlen := tcpEncode_len hm
    simp only [tcpEncode, List.cons_append, List.cons.injEq] at ht
    obtain ⟨rfl, rfl, rfl⟩ := ht
    have hne' : t ≠ [] := by rintro rfl; exact hne (by simp [tcpEncode])
    have hlt : rest.length < (rest ++ t).length := by
      rw [List.length_append]; have := List.length_pos.mpr hne'; omega
    rw [← hlen] at hlt
    simp only [tcpFrame, if_neg (Nat.not_le.mpr hlt)]

/-- The buffer `b` is the whole frames `fs`, in order, followed by `rest`, which holds no whole
frame: what the framing loop, run until it stops, takes off `b` and leaves on it. -/
structure Deframes (b : Bytes) (fs : List Bytes) (rest : Bytes) : Prop where
  whole : ∀ f ∈ fs, tcpFrame f = some (f, [])
  split : fs.flatten ++ rest = b
  stuck : tcpFrame rest = none

namespace Deframes

/-- A buffer whose rest holds no whole frame does not also start with one. -/
theorem nil_cons {b p q g : Bytes} {gs : List Bytes} (d₁ : Deframes b [] p)
    (d₂ : Deframes b (g :: gs) q) : False := by
  have h := d₁.split.trans d₂.split.symm
  simp only [List.flatten_nil, List.nil_append, List.flatten_cons, List.append_assoc] at h
  have hp := d₁.stuck
  rw [h, tcpFrame_of_whole (d₂.whole g (List.mem_cons_self _ _))] at hp; cases hp

/-- A buffer splits one way only into whole frames and a rest with no whole frame. -/
theorem unique : ∀ {b : Bytes} {fs gs : List Bytes} {p q : Bytes},
    Deframes b fs p → Deframes b gs q → fs = gs ∧ p = q
  | _, [], [], _, _, d₁, d₂ => ⟨rfl, by simpa using d₁.split.trans d₂.split.symm⟩
  | _, [], _ :: _, _, _, d₁, d₂ => (nil_cons d₁ d₂).elim
  | _, _ :: _, [], _, _, d₁, d₂ => (nil_cons d₂ d₁).elim
  | _, f :: fs, g :: gs, p, q, d₁, d₂ => by
    have h := d₁.split.trans d₂.split.symm
    simp only [List.flatten_cons, List.append_assoc] at h
    have e := congrArg tcpFrame h
    rw [tcpFrame_of_whole (d₁.whole f (List.mem_cons_self _ _)),
      tcpFrame_of_whole (d₂.whole g (List.mem_cons_self _ _))] at e
    obtain ⟨rfl, hrest⟩ := Prod.mk.inj (Option.some.inj e)
    obtain ⟨rfl, rfl⟩ := unique (b := gs.flatten ++ q)
      ⟨fun f hf => d₁.whole f (List.mem_cons_of_mem _ hf), hrest, d₁.stuck⟩
      ⟨fun g hg => d₂.whole g (List.mem_cons_of_mem _ hg), rfl, d₂.stuck⟩
    exact ⟨rfl, rfl⟩

/-- The frames of messages shorter than 65536 bytes, followed by a proper prefix of a further
frame. -/
theorem encode {ms : List Bytes} {m r : Bytes} (hms : ∀ x ∈ ms, x.length < 65536)
    (hm : m.length < 65536) (hp : r <+: tcpEncode m) (hne : r ≠ tcpEncode m) :
    Deframes ((ms.map tcpEncode).flatten ++ r) (ms.map tcpEncode) r := by
  refine ⟨fun f hf => ?_, rfl, tcpFrame_prefix hm hp hne⟩
  obtain ⟨x, hx, rfl⟩ := List.mem_map.mp hf
  exact tcpFrame_encode (hms x hx)

end Deframes

/-! ## The frames of a trace -/

/-- The frame `e` takes off server `i`'s `tcp_parser`, if any. -/
def Event.frameOn (i : Nat) : Event → Option Bytes
  | .tcpFramed j _ F => if j = i then some F else none
  | _ => none

/-- The frames a trace (newest first) takes off server `i`'s `tcp_parser`, oldest first. -/
def framesOn (i : Nat) : List Event → List Bytes
  | [] => []
  | e :: tr => framesOn i tr ++ (e.frameOn i).toList

theorem framesOn_append (i : Nat) (tr : List Event) :
    ∀ evs : List Event, framesOn i (evs ++ tr) = framesOn i tr ++ framesOn i evs
  | [] => by simp [framesOn]
  | e :: evs => by simp [framesOn, framesOn_append i tr evs]

theorem streamOf_append (f : Event → Bytes) (tr : List Event) :
    ∀ evs : List Event, streamOf f (evs ++ tr) = streamOf f tr ++ streamOf f evs
  | [] => by simp
  | e :: evs => by simp [streamOf_append f tr evs]

theorem Event.framedOn_eq (i : Nat) (e : Event) : e.framedOn i = (e.frameOn i).toList.flatten := by
  cases e <;> try rfl
  simp only [Event.framedOn, Event.frameOn]; split <;> simp

theorem Event.frameOn_eq_some {i : Nat} {F : Bytes} {e : Event} (h : e.frameOn i = some F) :
    ∃ c, e = .tcpFramed i c F := by
  unfold Event.frameOn at h
  split at h
  · split at h
    · cases h; subst_vars; exact ⟨_, rfl⟩
    · cases h
  · cases h

/-- The bytes framed on server `i` are its frames, one after the other. -/
theorem streamOf_framedOn (i : Nat) :
    ∀ tr : List Event, streamOf (Event.framedOn i) tr = (framesOn i tr).flatten
  | [] => rfl
  | e :: tr => by
    rw [streamOf_cons, framesOn, List.flatten_append, streamOf_framedOn i tr, Event.framedOn_eq]

theorem mem_framesOn {i : Nat} {F : Bytes} :
    ∀ {tr : List Event}, F ∈ framesOn i tr → ∃ c, Event.tcpFramed i c F ∈ tr
  | e :: tr, hF => by
    rcases List.mem_append.mp hF with hF | hF
    · obtain ⟨c, hc⟩ := mem_framesOn hF
      exact ⟨c, List.mem_cons_of_mem _ hc⟩
    · obtain ⟨c, rfl⟩ := Event.frameOn_eq_some (Option.mem_toList.mp hF)
      exact ⟨c, List.mem_cons_self _ _⟩

/-! ## Steps that leave the parsers alone -/

/-- An event that neither appends to a `tcp_parser` nor takes a frame off one. -/
def Event.OffParser : Event → Prop
  | .tcpReceived .. | .tcpFramed .. => False
  | _ => True

theorem Event.Dispatchable.offParser {e : Event} (hd : e.Dispatchable) : e.OffParser := by
  cases e <;> first | exact hd.elim | trivial

/-- `ch'` extends the trace of `ch` by events that leave every `tcp_parser` alone. -/
def ParserQuiet (ch ch' : Channel) : Prop :=
  ∃ evs, ch'.trace = evs ++ ch.trace ∧ ∀ e ∈ evs, e.OffParser

variable {cfg : Config} {env : Env} {ch ch' ch₁ : Channel} {now : Timeval}

namespace ParserQuiet

theorem refl (ch : Channel) : ParserQuiet ch ch := ⟨[], rfl, by simp⟩

theorem trans (q₁ : ParserQuiet ch ch₁) (q₂ : ParserQuiet ch₁ ch') :
    ParserQuiet ch ch' := by
  obtain ⟨e₁, h₁, p₁⟩ := q₁
  obtain ⟨e₂, h₂, p₂⟩ := q₂
  exact ⟨e₂ ++ e₁, by rw [h₂, h₁, List.append_assoc],
    fun e he => (List.mem_append.mp he).elim (p₂ e) (p₁ e)⟩

theorem of_trace (h : ch'.trace = ch.trace) : ParserQuiet ch ch' := ⟨[], by simp [h], by simp⟩

theorem emit (hq : ParserQuiet ch ch₁) {e : Event} (he : e.OffParser) :
    ParserQuiet ch (ch₁.emit e) :=
  hq.trans ⟨[e], rfl, List.forall_mem_singleton.mpr he⟩

theorem of_dispatch (d : DispatchTrace ch ch') : ParserQuiet ch ch' :=
  let ⟨evs, h, hd⟩ := d
  ⟨evs, h, fun e he => (hd e he).offParser⟩

/-- Between two states with their streams in order, a quiet stretch keeps every
`tcp_parser`. -/
theorem parser (hq : ParserQuiet ch ch') (hs : Streams ch) (hs' : Streams ch') (i : Nat) :
    (ch'.servers i).tcpParser = (ch.servers i).tcpParser := by
  obtain ⟨evs, ht, hoff⟩ := hq
  have keep : ∀ {f : Event → Bytes}, (∀ e, e.OffParser → f e = []) →
      streamOf f ch'.trace = streamOf f ch.trace := fun hf => by
    rw [ht]; exact streamOf_append_of_nil fun e he => hf e (hoff e he)
  have h := hs'.recv i
  rw [keep (f := Event.framedOn i) (fun e he => by cases e <;> first | rfl | exact he.elim),
    keep (f := Event.receivedOn i) (fun e he => by cases e <;> first | rfl | exact he.elim),
    ← hs.recv i] at h
  exact List.append_cancel_left h

end ParserQuiet

/-- `process_answer` on an open connection records its entry and then events that leave
every `tcp_parser` alone. -/
theorem processAnswer_quiet (env : Env) (now : Timeval) (hw : Wf cfg ch) {c : ConnId}
    {conn : Conn} (hc : ch.conns c = some conn) (P : Bytes) (tcp : Bool) :
    ∃ evs, (processAnswer cfg env ch P c tcp now).trace = evs ++ .answered c P tcp :: ch.trace ∧
      ∀ e ∈ evs, e.OffParser := by
  obtain ⟨evs, ht, hd⟩ := processAnswer_trace env hw hc P tcp now
  refine ⟨evs, ht, fun e he => ?_⟩
  rcases hd e he with hd | ⟨_, _, _, rfl, -⟩
  · exact hd.offParser
  · trivial

theorem ParserQuiet.processAnswer (env : Env) (now : Timeval) (hw : Wf cfg ch) {c : ConnId}
    {conn : Conn} (hc : ch.conns c = some conn) (P : Bytes) (tcp : Bool) :
    ParserQuiet ch (CAres.processAnswer cfg env ch P c tcp now) :=
  let ⟨evs, ht, hoff⟩ := processAnswer_quiet env now hw hc P tcp
  ⟨evs ++ [.answered c P tcp], by simp [ht], fun e he =>
    (List.mem_append.mp he).elim (hoff e) fun he => by rw [List.mem_singleton.mp he]; trivial⟩

/-! ## The invariant -/

/-- `e`, if `prev` is a frame taken off a `tcp_parser`, is the entry of the `process_answer`
call that carries its payload, on the connection the frame was read for. -/
def Event.AnswersFrame (e : Event) (prev : Option Event) : Prop :=
  ∀ {i c F}, prev = some (.tcpFramed i c F) → e = .answered c (F.drop 2) true

/-- What a trace says of the frames taken off `tcp_parser`s, at a call boundary: each is
whole, and each is followed at once by `process_answer`'s entry on its payload. -/
structure FramedTrace (tr : List Event) : Prop where
  whole : ∀ {i c F}, Event.tcpFramed i c F ∈ tr → tcpFrame F = some (F, [])
  answered : Adjacent Event.AnswersFrame tr
  last : ∀ {i c F}, tr.head? ≠ some (.tcpFramed i c F)

namespace FramedTrace

variable {tr : List Event}

theorem cons (ht : FramedTrace tr) {e : Event} (he : ∀ {i c F}, e ≠ .tcpFramed i c F) :
    FramedTrace (e :: tr) := by
  refine ⟨fun hm => ?_, ⟨fun hp => absurd hp ht.last, ht.answered⟩, fun hh => ?_⟩
  · rcases List.mem_cons.mp hm with rfl | hm
    · exact absurd rfl he
    · exact ht.whole hm
  · cases hh; exact he rfl

theorem append (ht : FramedTrace tr) :
    ∀ {evs : List Event}, (∀ e ∈ evs, e.OffParser) → FramedTrace (evs ++ tr)
  | [], _ => ht
  | e :: evs, hoff => by
    refine (ht.append fun e' he' => hoff e' (List.mem_cons_of_mem _ he')).cons ?_
    rintro _ _ _ rfl; exact hoff _ (List.mem_cons_self _ _)

/-- A whole frame taken off, then `process_answer` entered on its payload. -/
theorem frame (ht : FramedTrace tr) {i : Nat} {c : ConnId} {F : Bytes}
    (hw : tcpFrame F = some (F, [])) :
    FramedTrace (.answered c (F.drop 2) true :: .tcpFramed i c F :: tr) := by
  refine ⟨fun hm => ?_, ⟨fun hp => ?_, fun hp => absurd hp ht.last, ht.answered⟩, nofun⟩
  · simp only [List.mem_cons, Event.tcpFramed.injEq, reduceCtorEq, false_or] at hm
    rcases hm with ⟨rfl, rfl, rfl⟩ | hm
    · exact hw
    · exact ht.whole hm
  · cases hp; rfl

/-- Each frame taken off is followed at once by `process_answer`'s entry on its payload. -/
theorem answered_after (ht : FramedTrace tr) {l₁ l₂ : List Event} {i : Nat} {c : ConnId}
    {F : Bytes} (h : tr = l₁ ++ .tcpFramed i c F :: l₂) :
    ∃ l, l₁ = l ++ [.answered c (F.drop 2) true] := by
  rcases List.eq_nil_or_concat' l₁ with rfl | ⟨l, x, rfl⟩
  · exact absurd (by rw [h]; rfl) ht.last
  · have hp : Adjacent Event.AnswersFrame (l ++ x :: .tcpFramed i c F :: l₂) := by
      rw [← List.singleton_append, ← List.append_assoc, ← h]; exact ht.answered
    exact ⟨l, by rw [hp.of_append rfl]⟩

end FramedTrace

/-- The framing invariant at every call boundary: the frames taken so far are whole and each
was handed on at once, and no `tcp_parser` holds a whole frame. -/
structure Framing (ch : Channel) : Prop where
  trace : FramedTrace ch.trace
  rest : ∀ i, tcpFrame (ch.servers i).tcpParser = none

theorem Framing.quiet (hf : Framing ch) (hi : Inv cfg ch) (hi' : Inv cfg ch')
    (hq : ParserQuiet ch ch') : Framing ch' := by
  obtain ⟨evs, ht, hoff⟩ := id hq
  exact ⟨ht ▸ hf.trace.append hoff, fun i => by
    rw [hq.parser hi.streams hi'.streams i]; exact hf.rest i⟩

/-- Over any stretch of a run between two boundaries: what server `i`'s `tcp_parser` held at
its start, followed by the bytes received on the server during it, splits into the frames
taken off during it and what the parser holds at its end. -/
theorem Framing.deframes (hf : Framing ch') (hs : Streams ch) (hs' : Streams ch')
    {new : List Event} (hext : ch'.trace = new ++ ch.trace) (i : Nat) :
    Deframes ((ch.servers i).tcpParser ++ streamOf (Event.receivedOn i) new) (framesOn i new)
      (ch'.servers i).tcpParser := by
  refine ⟨fun f hf' => ?_, ?_, hf.rest i⟩
  · obtain ⟨c, hc⟩ := mem_framesOn hf'
    exact hf.trace.whole (hext ▸ List.mem_append_left _ hc)
  · have h := hs'.recv i
    rw [hext, streamOf_append, streamOf_append, ← hs.recv i, streamOf_framedOn,
      streamOf_framedOn, List.append_assoc, List.append_assoc] at h
    exact List.append_cancel_left h

/-! ## Every step keeps the invariant -/

theorem Framing.handleError (hf : Framing ch) (hi : Inv cfg ch) {c : ConnId} {conn : Conn}
    (hc : ch.conns c = some conn) : Framing (CAres.handleError cfg env ch c now) :=
  hf.quiet hi (hi.handleError hc).1 (.of_dispatch (hi.handleError hc).2)

theorem writeTcpServer_quiet (hi : Inv cfg ch) {fds : Option (List Nat)} {fd : Option Nat}
    (i : Nat) : ParserQuiet ch (CAres.writeTcpServer cfg env fd now (ch, fds) i).1 := by
  unfold CAres.writeTcpServer
  dsimp only
  split
  · exact .refl ch
  rename_i c htc
  obtain ⟨conn, hc, -⟩ := hi.wf.tcp_conn htc
  split
  · exact .refl ch
  split
  · split
    · exact .of_dispatch (hi.advance.handleError hc).2
    · split
      · exact ParserQuiet.emit (ParserQuiet.emit (.of_trace rfl) (by trivial)) (by trivial)
      · exact ParserQuiet.emit (.of_trace rfl) (by trivial)
  · exact .of_trace rfl
  · exact .of_dispatch (hi.advance.handleError hc).2

theorem Framing.writeTcpData (hf : Framing ch) (hi : Inv cfg ch) {fds : Option (List Nat)}
    {fd : Option Nat} : Framing (CAres.writeTcpData cfg env ch fds fd now) := by
  unfold CAres.writeTcpData
  split
  · exact hf
  · suffices ∀ (l : List Nat) (st : Channel × Option (List Nat)), Inv cfg st.1 →
        Framing st.1 → Framing (l.foldl (CAres.writeTcpServer cfg env fd now) st).1 from
      this _ _ hi hf
    intro l
    induction l with
    | nil => exact fun _ _ h => h
    | cons i rest ih =>
      exact fun st hi hf => ih _ (hi.writeTcpServer i)
        (hf.quiet hi (hi.writeTcpServer i) (writeTcpServer_quiet hi i))

/-- The framing loop, entered with the frames so far in order, every other server's parser
free of whole frames and a bound at least the buffer's length, stops with no whole frame
left. -/
theorem readTcpFrames_framing {c : ConnId} {server : Nat} :
    ∀ (fuel : Nat) {ch : Channel}, Inv cfg ch →
      (∃ conn, ch.conns c = some conn ∧ conn.isTcp = true) → FramedTrace ch.trace →
      (∀ i, i ≠ server → tcpFrame (ch.servers i).tcpParser = none) →
      (ch.servers server).tcpParser.length ≤ fuel →
      Framing (readTcpFrames cfg env c server now fuel ch)
  | 0, ch, _, _, ht, hr, hl => by
    rw [readTcpFrames]
    refine ⟨ht, fun i => ?_⟩
    by_cases e : i = server
    · subst e; rw [List.eq_nil_of_length_eq_zero (Nat.le_zero.mp hl)]; rfl
    · exact hr i e
  | fuel + 1, ch, hi, ⟨conn, hc, htcp⟩, ht, hr, hl => by
    rw [readTcpFrames]
    split
    · rename_i hnone
      refine ⟨ht, fun i => ?_⟩
      by_cases e : i = server
      · subst e; exact hnone
      · exact hr i e
    · rename_i frame rest hf
      have hi₁ : Inv cfg ((ch.updateServer server fun s => { s with tcpParser := rest }).emit
          (.tcpFramed server c frame)) :=
        hi.streamStep rfl rfl rfl (by rfl) (by trivial) (by simp) nofun
          (hi.streams.frame server c hf)
      have hfr : (Event.answered c (frame.drop 2) true).FramedAfter
          ((ch.updateServer server fun s => { s with tcpParser := rest }).emit
            (.tcpFramed server c frame)).trace.head? := fun he => by
        cases he; exact ⟨server, frame, rfl, rfl⟩
      obtain ⟨hi₂, hk⟩ := hi₁.processAnswer env hc hfr
      obtain ⟨evs, htr, hoff⟩ := processAnswer_quiet env now hi₁.wf hc
        (frame.drop 2) true
      have hp := (ParserQuiet.processAnswer env now hi₁.wf hc (frame.drop 2)
        true).parser hi₁.streams hi₂.streams
      refine readTcpFrames_framing fuel hi₂ (hk.tcp hc htcp) ?_ (fun i hne => ?_) ?_
      · rw [htr]; exact (ht.frame (tcpFrame_whole hf)).append hoff
      · rw [hp i]; simpa [update_noteq hne] using hr i hne
      · rw [hp server]; have := tcpFrame_length hf; simp; omega

theorem Framing.readTcpData (hf : Framing ch) (hi : Inv cfg ch) {c : ConnId} {conn : Conn}
    (hc : ch.conns c = some conn) (ht : conn.isTcp = true) :
    Framing (CAres.readTcpData cfg env ch c conn now) := by
  unfold CAres.readTcpData
  split
  · exact (hf.quiet hi hi.advance (.of_trace rfl)).handleError hi.advance hc
  have hi' := hi.setTick (ch.tick + 2)
  have hf' : Framing { ch with tick := ch.tick + 2 } := hf.quiet hi hi' (.of_trace rfl)
  split
  · exact hf'.handleError hi' hc
  · refine readTcpFrames_framing _ (hi'.streamStep rfl rfl rfl (by rfl) (by trivial) (by simp)
      nofun (hi'.streams.receive _ c _)) ⟨conn, hc, ht⟩ (hf.trace.cons nofun)
      (fun i hne => ?_) (Nat.le_refl _)
    simpa [update_noteq hne] using hf.rest i
  · exact hf'
  · exact hf'.handleError hi' hc

/-- The UDP read loop leaves every `tcp_parser` alone. -/
theorem readUdpLoop_quiet {c : ConnId} :
    ∀ (rs : List UdpRead) {ch : Channel}, Inv cfg ch → (ch.conns c).isSome →
      ParserQuiet ch (readUdpLoop cfg env c c now rs ch)
  | [], _, _, _ => by rw [readUdpLoop]; exact .refl _
  | r :: rest, ch, hi, hc => by
    obtain ⟨conn, hc⟩ := Option.isSome_iff_exists.mp hc
    rw [readUdpLoop]
    simp only [hc]
    split
    · exact .refl _
    · exact .of_dispatch (hi.handleError hc).2
    · have next : ∀ {ch₁ : Channel}, Inv cfg ch₁ → ParserQuiet ch ch₁ →
          ParserQuiet ch (if (ch₁.connnodeBySocket c).isSome then
            readUdpLoop cfg env c c now rest ch₁ else ch₁) := fun {ch₁} hi₁ hq₁ => by
        split
        · rename_i hsock
          obtain ⟨c', hc'⟩ := Option.isSome_iff_exists.mp hsock
          obtain ⟨rfl, hopen⟩ := hi₁.wf.socket.mp hc'
          exact hq₁.trans (readUdpLoop_quiet rest hi₁ hopen)
        · exact hq₁
      split
      · exact next hi (.refl _)
      · split
        · exact next (hi.processAnswer env hc (by exact nofun)).1
            (.processAnswer env now hi.wf hc _ _)
        · exact next hi (.refl _)

theorem Framing.readConn (hf : Framing ch) (hi : Inv cfg ch) {c : ConnId}
    (hc : (ch.conns c).isSome) : Framing (CAres.readConn cfg env ch c now) := by
  obtain ⟨conn, hc⟩ := Option.isSome_iff_exists.mp hc
  unfold CAres.readConn
  simp only [hc]
  split
  · exact hf.readTcpData hi hc ‹_›
  · unfold readUdpPacketsFd
    rw [hi.wf.connFd_eq]
    exact hf.quiet hi (readUdpLoop_inv _ hi.advance (by simp [hc]))
      ((ParserQuiet.of_trace rfl).trans (readUdpLoop_quiet _ hi.advance (by simp [hc])))

theorem readPacketsLoop_framing :
    ∀ (fds socks : List Nat) {ch : Channel}, Inv cfg ch → Framing ch →
      Framing (readPacketsLoop cfg env now fds socks ch)
  | _, [], _, _, hf => by rw [readPacketsLoop]; exact hf
  | fds, s :: rest, ch, hi, hf => by
    rw [readPacketsLoop]
    split
    · split
      · exact hf
      · rename_i c hsock
        have hc := (hi.wf.socket.mp hsock).2
        exact readPacketsLoop_framing _ rest (hi.readConn hc) (hf.readConn hi hc)
    · exact readPacketsLoop_framing fds rest hi hf

theorem Framing.readPackets (hf : Framing ch) (hi : Inv cfg ch) {fds : Option (List Nat)}
    {fd : Option Nat} : Framing (CAres.readPackets cfg env ch fds fd now) := by
  unfold CAres.readPackets
  split
  · exact hf
  · split
    · exact hf
    · rename_i c hsock
      exact hf.readConn hi (hi.wf.socket.mp hsock).2
  · have hq : ParserQuiet ch (CAres.channelSocketList cfg env ch).2 := by
      unfold CAres.channelSocketList
      split
      · exact .of_trace rfl
      · dsimp only; split
        · exact .of_trace rfl
        · exact ParserQuiet.emit (.of_trace rfl) trivial
    exact readPacketsLoop_framing _ _ hi.channelSocketList
      (hf.quiet hi hi.channelSocketList hq)

/-- The timeout step leaves every `tcp_parser` alone. -/
theorem timeoutStep_quiet (hi : Inv cfg ch) {h : QueryId} {q : Query}
    (hq : ch.queries h = some q) : ParserQuiet ch (timeoutStep cfg env ch h q now) := by
  have step : ∀ {ch₁ : Channel}, Inv cfg ch₁ → ParserQuiet ch ch₁ →
      ch₁.queries = ch.queries → ∀ fd, ParserQuiet ch ((nextServer cfg env ch₁ h
        { q with errorStatus := .etimeout, timeouts := q.timeouts + 1 } now).checkCleanupConn
          cfg fd) := by
    intro ch₁ hi₁ hq₁ hqs fd
    have hh₀ : Held cfg ch₁ h q := Held.of_stored hi₁.wf (hqs ▸ hq)
    have hh : Held cfg ch₁ h { q with errorStatus := .etimeout, timeouts := q.timeouts + 1 } :=
      hh₀.congr rfl rfl hh₀.server_lt (show Status.etimeout ≠ .success by decide)
    exact hq₁.trans ((ParserQuiet.of_dispatch (nextServer_post hi₁.wf hh).2.1.trace).trans
      (.of_dispatch (Inv.checkCleanupConn_trace _ fd)))
  unfold timeoutStep
  dsimp only
  split
  · exact step hi (.refl _) rfl _
  · exact step (hi.emit (by simp [Event.Benign, Event.callbackOf]) (by trivial) (by trivial)
      (by exact nofun) (by rintro f ⟨⟩; trivial)) (ParserQuiet.emit (.refl _) (by trivial))
      rfl _

theorem processTimeoutsLoop_quiet :
    ∀ (fuel : Nat) {ch : Channel} {node : Option QueryId}, Inv cfg ch →
      (∀ {h}, node = some h → (ch.queries h).isSome) →
      ParserQuiet ch (processTimeoutsLoop cfg env now fuel ch node)
  | 0, _, _, _, _ => by rw [processTimeoutsLoop]; exact .refl _
  | _ + 1, _, none, _, _ => by rw [processTimeoutsLoop]; exact .refl _
  | fuel + 1, ch, some h, hi, hlive => by
    obtain ⟨q, hq⟩ := Option.isSome_iff_exists.mp (hlive rfl)
    rw [processTimeoutsLoop_some]
    simp only [hq]
    split
    · obtain ⟨hi', ho, -, -⟩ := timeoutStep_spec env now hi hq
      exact (timeoutStep_quiet hi hq).trans (processTimeoutsLoop_quiet fuel hi' fun hn => by
        rw [ho (slistNext_ne hi.wf.slist_nodup hn)]
        exact hi.wf.slist_live (slistNext_mem hn))
    · exact .refl _

theorem Framing.processTimeouts (hf : Framing ch) (hi : Inv cfg ch) :
    Framing (CAres.processTimeouts cfg env ch now) :=
  hf.quiet hi hi.processTimeouts (processTimeoutsLoop_quiet _ hi fun hn =>
    hi.wf.slist_live (List.mem_of_mem_head? hn))

theorem Framing.aresSend (hf : Framing ch) (hi : Inv cfg ch) {id : Nat}
    (hid : ch.queriesByQid id = none) {qbuf : Bytes} :
    Framing (CAres.aresSend cfg env ch id qbuf now) := by
  refine hf.quiet hi (hi.aresSend hid) ?_
  unfold CAres.aresSend
  dsimp only
  split
  · exact ParserQuiet.emit (.of_trace rfl) trivial
  split
  · exact ParserQuiet.emit (.of_trace rfl) trivial
  refine ParserQuiet.trans ?_
    (.of_dispatch (aresSendQuery_post ?w (Held.of_stored ?w (update_same _ _ _))).2.1.trace)
  case w =>
    exact hi.wf.submit hid rfl rfl hi.wf.last_server
      (show Status.econnrefused ≠ .success by decide) _
      (by split; exact Nat.mod_lt _ cfg.nservers_pos; exact hi.wf.last_server) _ (.submitted _ _)
      (by simp [Event.Benign, Event.callbackOf])
  exact ⟨[_], rfl, List.forall_mem_singleton.mpr trivial⟩

/-- Every state of every run satisfies the framing invariant. -/
theorem Reachable.framing (hr : Reachable cfg env ch) : Framing ch := by
  induction hr with
  | init flags addrs => exact ⟨⟨nofun, trivial, nofun⟩, fun _ => rfl⟩
  | send id qbuf now hr _ hid ih => exact ih.aresSend hr.inv hid
  | @process ch₀ readFds readFd writeFds writeFd now hr ih =>
    have hi : Inv cfg (writeTcpData cfg env ch₀ writeFds writeFd now) := hr.inv.writeTcpData
    exact ((ih.writeTcpData hr.inv).readPackets hi).processTimeouts hi.readPackets

end CAres
