import CAres.Engine.Events

/-! # The TCP streams of a server

A server's two TCP buffers belong to the server, not to a connection: `tcp_send` collects
request frames until a writable TCP socket takes them, and `tcp_parser` collects received
bytes until `read_tcp_data` takes whole frames off it. The trace records each of the four
movements (`tcpQueued`, `tcpWritten`, `tcpReceived`, `tcpFramed`), so each server has four
byte streams. `Streams` says that the buffers are exactly what the streams leave: the bytes
written are followed in the queued stream by `tcp_send`, and the bytes framed are followed
in the received stream by `tcp_parser`. Every other step keeps both buffers and records none
of the four events (`BuffersKept`). -/

namespace CAres

open Function

namespace Event

/-- The bytes `e` appends to server `i`'s `tcp_send`. -/
def queuedOn (i : Nat) : Event → Bytes
  | .tcpQueued j b => if j = i then b else []
  | _ => []

/-- The bytes `e` writes from server `i`'s `tcp_send`. -/
def writtenOn (i : Nat) : Event → Bytes
  | .tcpWritten j _ b => if j = i then b else []
  | _ => []

/-- The bytes `e` appends to server `i`'s `tcp_parser`. -/
def receivedOn (i : Nat) : Event → Bytes
  | .tcpReceived j _ b => if j = i then b else []
  | _ => []

/-- The bytes `e` takes off server `i`'s `tcp_parser`. -/
def framedOn (i : Nat) : Event → Bytes
  | .tcpFramed j _ b => if j = i then b else []
  | _ => []

/-- An event of none of the four streams. -/
def OffStream : Event → Prop
  | .tcpQueued .. | .tcpWritten .. | .tcpReceived .. | .tcpFramed .. => False
  | _ => True

theorem OffStream.on {e : Event} (he : e.OffStream) (i : Nat) :
    e.queuedOn i = [] ∧ e.writtenOn i = [] ∧ e.receivedOn i = [] ∧ e.framedOn i = [] := by
  cases e <;> first | exact he.elim | exact ⟨rfl, rfl, rfl, rfl⟩

end Event

/-- The bytes one stream of a trace (newest first) carries, oldest first. -/
def streamOf (f : Event → Bytes) : List Event → Bytes
  | [] => []
  | e :: tr => streamOf f tr ++ f e

@[simp] theorem streamOf_nil (f : Event → Bytes) : streamOf f [] = [] := rfl

@[simp] theorem streamOf_cons (f : Event → Bytes) (e : Event) (tr : List Event) :
    streamOf f (e :: tr) = streamOf f tr ++ f e := rfl

theorem streamOf_append_of_nil {f : Event → Bytes} {tr : List Event} :
    ∀ {evs : List Event}, (∀ e ∈ evs, f e = []) → streamOf f (evs ++ tr) = streamOf f tr
  | [], _ => rfl
  | e :: evs, h => by
    rw [List.cons_append, streamOf_cons, h e (List.mem_cons_self _ _), List.append_nil]
    exact streamOf_append_of_nil fun e' he' => h e' (List.mem_cons_of_mem _ he')

/-- Each server's TCP buffers are what its streams leave: `tcp_send` holds the queued bytes
not yet written, `tcp_parser` the received bytes not yet framed. -/
structure Streams (ch : Channel) : Prop where
  send : ∀ i, streamOf (Event.writtenOn i) ch.trace ++ (ch.servers i).tcpSend =
    streamOf (Event.queuedOn i) ch.trace
  recv : ∀ i, streamOf (Event.framedOn i) ch.trace ++ (ch.servers i).tcpParser =
    streamOf (Event.receivedOn i) ch.trace

/-- `ch'` keeps every server's TCP buffers and records no stream event on top of `ch`. -/
structure BuffersKept (ch ch' : Channel) : Prop where
  send : ∀ i, (ch'.servers i).tcpSend = (ch.servers i).tcpSend
  parser : ∀ i, (ch'.servers i).tcpParser = (ch.servers i).tcpParser
  trace : ∃ evs, ch'.trace = evs ++ ch.trace ∧ ∀ e ∈ evs, e.OffStream

variable {ch ch' ch₁ : Channel}

namespace BuffersKept

theorem refl (ch : Channel) : BuffersKept ch ch :=
  ⟨fun _ => rfl, fun _ => rfl, [], rfl, by simp⟩

theorem trans (k₁ : BuffersKept ch ch₁) (k₂ : BuffersKept ch₁ ch') : BuffersKept ch ch' := by
  obtain ⟨e₁, h₁, p₁⟩ := k₁.trace
  obtain ⟨e₂, h₂, p₂⟩ := k₂.trace
  exact ⟨fun i => (k₂.send i).trans (k₁.send i), fun i => (k₂.parser i).trans (k₁.parser i),
    e₂ ++ e₁, by rw [h₂, h₁, List.append_assoc],
    fun e he => (List.mem_append.mp he).elim (p₂ e) (p₁ e)⟩

/-- The same servers and the same trace. -/
theorem of_eq (hs : ch'.servers = ch.servers) (ht : ch'.trace = ch.trace) : BuffersKept ch ch' :=
  ⟨fun _ => by rw [hs], fun _ => by rw [hs], [], by simp [ht], by simp⟩

/-- The same servers and one more event of no stream. -/
theorem of_cons {e : Event} (he : e.OffStream) (hs : ch'.servers = ch.servers)
    (ht : ch'.trace = e :: ch.trace) : BuffersKept ch ch' :=
  ⟨fun _ => by rw [hs], fun _ => by rw [hs], [e], by simp [ht], by simpa using he⟩

theorem emit {e : Event} (he : e.OffStream) : BuffersKept ch (ch.emit e) := .of_cons he rfl rfl

/-- Rewriting one server but not its buffers. -/
theorem update {i : Nat} {s : Server} (hs : ch'.servers = update ch.servers i s)
    (hsend : s.tcpSend = (ch.servers i).tcpSend) (hparser : s.tcpParser = (ch.servers i).tcpParser)
    (ht : ∃ evs, ch'.trace = evs ++ ch.trace ∧ ∀ e ∈ evs, e.OffStream) : BuffersKept ch ch' := by
  refine ⟨fun j => ?_, fun j => ?_, ht⟩ <;> rw [hs] <;> by_cases e : j = i
  all_goals first | (subst e; simpa) | simp [update_noteq e]

theorem addConnection (ch : Channel) (i : Nat) (tcp : Bool) :
    BuffersKept ch (ch.addConnection i tcp) :=
  .update rfl rfl rfl ⟨[_], rfl, List.forall_mem_singleton.mpr trivial⟩

theorem closeConnection (ch : Channel) (c : ConnId) (conn : Conn) :
    BuffersKept ch (ch.closeConnection c conn) :=
  .update rfl rfl rfl ⟨[_], rfl, List.forall_mem_singleton.mpr trivial⟩

end BuffersKept

theorem Streams.kept (hs : Streams ch) (hk : BuffersKept ch ch') : Streams ch' := by
  obtain ⟨evs, ht, hoff⟩ := hk.trace
  have keep : ∀ {f : Nat → Event → Bytes}, (∀ e i, e.OffStream → f i e = []) →
      ∀ i, streamOf (f i) ch'.trace = streamOf (f i) ch.trace := fun hf i => by
    rw [ht]; exact streamOf_append_of_nil fun e he => hf e i (hoff e he)
  refine ⟨fun i => ?_, fun i => ?_⟩
  · rw [keep (fun e i he => (he.on i).2.1) i, keep (fun e i he => (he.on i).1) i, hk.send i,
      hs.send i]
  · rw [keep (fun e i he => (he.on i).2.2.2) i, keep (fun e i he => (he.on i).2.2.1) i,
      hk.parser i, hs.recv i]

/-- A frame is a prefix of the buffer it is taken from. -/
theorem tcpFrame_append {b frame rest : Bytes} (hf : tcpFrame b = some (frame, rest)) :
    frame ++ rest = b := by
  unfold tcpFrame at hf
  split at hf
  · dsimp only at hf
    split at hf
    · cases hf; simp
    · cases hf
  · cases hf

/-! ## The four stream steps -/

section Steps

variable (hs : Streams ch) (i : Nat) (c : ConnId)
include hs

/-- Appending a frame to `tcp_send`, as `ares__send_query` does. -/
theorem Streams.queue (frame : Bytes) :
    Streams ((ch.updateServer i fun s => { s with tcpSend := s.tcpSend ++ frame }).emit
      (.tcpQueued i frame)) := by
  refine ⟨fun j => ?_, fun j => ?_⟩ <;> by_cases e : j = i
  · subst e; simp [Event.queuedOn, Event.writtenOn, ← hs.send j]
  · simp [Event.queuedOn, Event.writtenOn, update_noteq e, Ne.symm e, hs.send j]
  · subst e; simp [Event.framedOn, Event.receivedOn, hs.recv j]
  · simp [Event.framedOn, Event.receivedOn, update_noteq e, hs.recv j]

/-- Writing the first `count` bytes of `tcp_send`, as `write_tcp_data` does. -/
theorem Streams.write (count : Nat) :
    Streams ((ch.updateServer i fun s => { s with tcpSend := s.tcpSend.drop count }).emit
      (.tcpWritten i c ((ch.servers i).tcpSend.take count))) := by
  refine ⟨fun j => ?_, fun j => ?_⟩ <;> by_cases e : j = i
  · subst e; simp [Event.queuedOn, Event.writtenOn, ← hs.send j]
  · simp [Event.queuedOn, Event.writtenOn, update_noteq e, Ne.symm e, hs.send j]
  · subst e; simp [Event.framedOn, Event.receivedOn, hs.recv j]
  · simp [Event.framedOn, Event.receivedOn, update_noteq e, hs.recv j]

/-- Appending received bytes to `tcp_parser`, as `read_tcp_data` does. -/
theorem Streams.receive (bytes : Bytes) :
    Streams ((ch.updateServer i fun s => { s with tcpParser := s.tcpParser ++ bytes }).emit
      (.tcpReceived i c bytes)) := by
  refine ⟨fun j => ?_, fun j => ?_⟩ <;> by_cases e : j = i
  · subst e; simp [Event.queuedOn, Event.writtenOn, hs.send j]
  · simp [Event.queuedOn, Event.writtenOn, update_noteq e, hs.send j]
  · subst e; simp [Event.framedOn, Event.receivedOn, ← hs.recv j]
  · simp [Event.framedOn, Event.receivedOn, update_noteq e, Ne.symm e, hs.recv j]

/-- Taking a whole frame off `tcp_parser`, as `read_tcp_data` does. -/
theorem Streams.frame {frame rest : Bytes}
    (hf : tcpFrame (ch.servers i).tcpParser = some (frame, rest)) :
    Streams ((ch.updateServer i fun s => { s with tcpParser := rest }).emit
      (.tcpFramed i c frame)) := by
  refine ⟨fun j => ?_, fun j => ?_⟩ <;> by_cases e : j = i
  · subst e; simp [Event.queuedOn, Event.writtenOn, hs.send j]
  · simp [Event.queuedOn, Event.writtenOn, update_noteq e, hs.send j]
  · subst e; simp [Event.framedOn, Event.receivedOn, ← hs.recv j, ← tcpFrame_append hf]
  · simp [Event.framedOn, Event.receivedOn, update_noteq e, Ne.symm e, hs.recv j]

end Steps

/-- A fresh channel has empty buffers and an empty trace. -/
theorem Streams.init (cfg : Config) (flags : Flags) (addrs : Nat → AresAddr) :
    Streams (Channel.init cfg flags addrs) :=
  ⟨fun _ => rfl, fun _ => rfl⟩

end CAres
