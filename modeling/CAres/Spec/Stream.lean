import CAres.Proof.Framing

/-! # The TCP streams across connections

A server's `tcp_send` and `tcp_parser` belong to the server and outlive each TCP connection:
`handle_error` closes the connection and leaves both buffers as they are. Over every run the
streams are therefore in order per server, not per connection (`tcp_streams_in_order`): what
has been written, followed by `tcp_send`, is what was queued, and the frames taken off
`tcp_parser`, followed by what it holds, are what was received. A frame queued while one
connection was open can go out on the next one, after its query has ended
(`stale_frame_written`). Write interest is reported only for a frame that goes into an empty
`tcp_send`, so the next connection, opened with read interest only, is never reported writable
while the stale frame waits (`write_interest_lost`).

What `read_tcp_data` hands to `process_answer` depends only on the bytes received, not on how
the reads split them: over any stretch of a run, the received bytes, after what the parser held
at its start, fix the frames taken off and what is left (`tcp_frames_delivered`). -/

namespace CAres

variable {cfg : Config} {env : Env} {ch : Channel}

/-- Over every run: each server's bytes written, then its `tcp_send`, are the frames queued on
it, in order; the frames taken off its `tcp_parser`, then what `tcp_parser` holds, are the
bytes received on its connections, in order; each TCP entry of `process_answer` carries the
payload of the frame taken just before it, with the connection the frame was read for; and no
reader enters a closed connection. -/
theorem tcp_streams_in_order (hr : Reachable cfg env ch) :
    (∀ i, streamOf (Event.writtenOn i) ch.trace ++ (ch.servers i).tcpSend =
      streamOf (Event.queuedOn i) ch.trace) ∧
    (∀ i, streamOf (Event.framedOn i) ch.trace ++ (ch.servers i).tcpParser =
      streamOf (Event.receivedOn i) ch.trace) ∧
    (∀ {l₁ l₂ : List Event} {c P}, ch.trace = l₁ ++ .answered c P true :: l₂ →
      ∃ i F l₃, P = F.drop 2 ∧ l₂ = .tcpFramed i c F :: l₃) ∧
    ∀ c, Event.fault (.connAfterClose c) ∉ ch.trace := by
  have hi := hr.inv
  refine ⟨hi.streams.send, hi.streams.recv, fun {l₁ l₂ c P} he => ?_,
    fun c hm => hi.faults hm⟩
  have hp : Adjacent Event.FramedAfter (l₁ ++ .answered c P true :: l₂) :=
    he ▸ hi.trace.framed
  obtain ⟨i, F, rfl, hprev⟩ := hp.of_append rfl
  cases l₂ with
  | nil => cases hprev
  | cons e l₃ => cases hprev; exact ⟨i, F, l₃, rfl, rfl⟩

/-- A world where every TCP read fails and every TCP write goes through whole. -/
def tcpRstEnv : Env where
  parse _ := none
  openConnection _ := .success
  alloc _ := true
  udpWrite _ := true
  tcpWrite _ := .wrote 65536
  tcpRecv _ := .error
  udpRecv _ := []

/-- A request with id 7 on a channel with `USEVC` set: its frame is queued on a new TCP
connection, connection 0. -/
def vcQueued : Channel :=
  aresSend loopCfg tcpRstEnv (Channel.init loopCfg { usevc := true } fun _ => loopAddr) 7
    (List.replicate 12 0) ⟨0, 0⟩

/-- Connection 0 reported readable: the read fails, `handle_error` closes it, and the query
ends with `ARES_ECONNREFUSED` (`tcp_requeue_declined`). Its frame stays in `tcp_send`. -/
def vcReset : Channel := processfds loopCfg tcpRstEnv vcQueued (some [0]) none none none ⟨0, 0⟩

/-- A second request, with id 8, opens connection 1 and queues its frame behind the first. -/
def vcReopened : Channel := aresSend loopCfg tcpRstEnv vcReset 8 (List.replicate 12 0) ⟨0, 0⟩

/-- Connection 1 reported writable: it writes all of `tcp_send`. -/
def vcFlushed : Channel :=
  processfds loopCfg tcpRstEnv vcReopened none none (some [1]) none ⟨0, 0⟩

theorem vcReset_reachable : Reachable loopCfg tcpRstEnv vcReset :=
  .process _ _ _ _ _ (.send _ _ _ (.init _ _) (by decide) rfl)

theorem vcReopened_reachable : Reachable loopCfg tcpRstEnv vcReopened :=
  .send _ _ _ vcReset_reachable (by decide) (by decide)

theorem vcFlushed_reachable : Reachable loopCfg tcpRstEnv vcFlushed :=
  .process _ _ _ _ _ vcReopened_reachable

theorem tcp_streams_in_order_vcFlushed :
    Reachable loopCfg tcpRstEnv vcFlushed ∧
      streamOf (Event.writtenOn 0) vcFlushed.trace ++ (vcFlushed.servers 0).tcpSend =
        streamOf (Event.queuedOn 0) vcFlushed.trace :=
  ⟨vcFlushed_reachable, (tcp_streams_in_order vcFlushed_reachable).1 0⟩

/-- The frame of query 0 is queued while connection 0 is open. Once connection 0 is closed and
query 0 has ended, and before connection 1 exists, the frame is still in `tcp_send`; the
later connection 1 writes it, ahead of the frame of query 1. -/
theorem stale_frame_written :
    Reachable loopCfg tcpRstEnv vcReset ∧ vcReset.nextConn = 1 ∧ vcReset.conns 0 = none ∧
      Event.callback 0 .econnrefused 0 none ∈ vcReset.trace ∧
      Event.tcpQueued 0 (requestFrame 7 (List.replicate 12 0)) ∈ vcReset.trace ∧
      Reachable loopCfg tcpRstEnv vcFlushed ∧
      Event.tcpWritten 0 1
        (requestFrame 7 (List.replicate 12 0) ++ requestFrame 8 (List.replicate 12 0)) ∈
        vcFlushed.trace :=
  ⟨vcReset_reachable, by decide, by decide, by decide, by decide, vcFlushed_reachable,
    by decide⟩

/-- The write interest last reported through `sock_state_cb` for socket `fd`, if any. -/
def lastWriteFlag (fd : Nat) : List Event → Option Bool
  | [] => none
  | .sockState f _ w :: tr => if f = fd then some w else lastWriteFlag fd tr
  | _ :: tr => lastWriteFlag fd tr

/-- After the second submission, server 0's TCP connection 1 is open and `tcp_send` holds both
frames, but the last write interest reported for the socket is 0: connection 1 was opened with
read interest only, and the frame of query 1 was appended to a buffer that was not empty, so
`ares__send_query` did not report write interest. -/
theorem write_interest_lost :
    Reachable loopCfg tcpRstEnv vcReopened ∧ (vcReopened.servers 0).tcpConn = some 1 ∧
      (vcReopened.conns 1).isSome ∧
      (vcReopened.servers 0).tcpSend =
        requestFrame 7 (List.replicate 12 0) ++ requestFrame 8 (List.replicate 12 0) ∧
      lastWriteFlag (vcReopened.connFd 1) vcReopened.trace = some false :=
  ⟨vcReopened_reachable, by decide, by decide, by decide, by decide⟩

/-- Over every stretch of a run, from a state `ch₀` to a later state `ch`: if what server `i`'s
`tcp_parser` held at `ch₀`, followed by the bytes received on the server during the stretch, is
the frames of messages `ms`, each shorter than 65536 bytes, followed by a proper prefix `r` of
a further frame, then, however the reads split those bytes, the frames the framing loop takes
off the parser during the stretch are those of `ms`, in order and each once; each frame taken
is followed at once by `process_answer`'s entry on its payload, so the payloads handed over are
`ms`; and the parser is left holding `r`, so no framing loop stopped with a whole frame left. -/
theorem tcp_frames_delivered {ch₀ : Channel} (hr₀ : Reachable cfg env ch₀)
    (hr : Reachable cfg env ch) {new : List Event} (hext : ch.trace = new ++ ch₀.trace) (i : Nat)
    {ms : List Bytes} {m r : Bytes} (hms : ∀ x ∈ ms, x.length < 65536) (hm : m.length < 65536)
    (hpre : r <+: tcpEncode m) (hne : r ≠ tcpEncode m)
    (hs : (ch₀.servers i).tcpParser ++ streamOf (Event.receivedOn i) new =
      (ms.map tcpEncode).flatten ++ r) :
    framesOn i new = ms.map tcpEncode ∧ (framesOn i new).map (List.drop 2) = ms ∧
      (∀ {l₁ l₂ c F}, new = l₁ ++ .tcpFramed i c F :: l₂ →
        ∃ l, l₁ = l ++ [.answered c (F.drop 2) true]) ∧
      (ch.servers i).tcpParser = r := by
  have hf := hr.framing
  obtain ⟨hfr, hrest⟩ := (hf.deframes hr₀.inv.streams hr.inv.streams hext i).unique
    (hs ▸ Deframes.encode hms hm hpre hne)
  refine ⟨hfr, by simp [hfr, Function.comp_def, tcpEncode], fun he => ?_, hrest⟩
  exact hf.trace.answered_after (by rw [hext, he, List.append_assoc]; rfl)

/-- A world whose TCP reads return `0 3 1` up to tick 9 and `2 3 0 0 0` after: a frame with
payload `1 2 3` split across the two reads, then a frame with an empty payload, then the first
length byte of a third frame. -/
def chunkEnv : Env where
  parse _ := none
  openConnection _ := .success
  alloc _ := true
  udpWrite _ := true
  tcpWrite _ := .again
  tcpRecv t := if t < 10 then .data [0, 3, 1] else .data [2, 3, 0, 0, 0]
  udpRecv _ := []

/-- A request with id 7 on a channel with `USEVC` set: connection 0 is opened, with an empty
`tcp_parser`. -/
def chunkSent : Channel :=
  aresSend loopCfg chunkEnv (Channel.init loopCfg { usevc := true } fun _ => loopAddr) 7
    (List.replicate 12 0) ⟨0, 0⟩

/-- Connection 0 reported readable twice. -/
def chunkRead : Channel :=
  processfds loopCfg chunkEnv
    (processfds loopCfg chunkEnv chunkSent (some [0]) none none none ⟨0, 0⟩)
    (some [0]) none none none ⟨0, 0⟩

theorem chunkSent_reachable : Reachable loopCfg chunkEnv chunkSent :=
  .send _ _ _ (.init _ _) (by decide) rfl

theorem tcp_frames_delivered_chunked :
    Reachable loopCfg chunkEnv chunkSent ∧ Reachable loopCfg chunkEnv chunkRead ∧
      chunkRead.trace = chunkRead.trace.take 6 ++ chunkSent.trace ∧
      (∀ x ∈ [[1, 2, 3], []], List.length (α := UInt8) x < 65536) ∧
      ([] : Bytes).length < 65536 ∧ [0] <+: tcpEncode [] ∧ [0] ≠ tcpEncode [] ∧
      (chunkSent.servers 0).tcpParser ++
          streamOf (Event.receivedOn 0) (chunkRead.trace.take 6) =
        ([[1, 2, 3], []].map tcpEncode).flatten ++ [0] ∧
      framesOn 0 (chunkRead.trace.take 6) = [[1, 2, 3], []].map tcpEncode ∧
      (framesOn 0 (chunkRead.trace.take 6)).map (List.drop 2) = [[1, 2, 3], []] ∧
      (∀ {l₁ l₂ c F}, chunkRead.trace.take 6 = l₁ ++ .tcpFramed 0 c F :: l₂ →
        ∃ l, l₁ = l ++ [.answered c (F.drop 2) true]) ∧
      (chunkRead.servers 0).tcpParser = [0] :=
  have hr : Reachable loopCfg chunkEnv chunkRead :=
    .process _ _ _ _ _ (.process _ _ _ _ _ chunkSent_reachable)
  have hext : chunkRead.trace = chunkRead.trace.take 6 ++ chunkSent.trace := by decide
  have hs : (chunkSent.servers 0).tcpParser ++
      streamOf (Event.receivedOn 0) (chunkRead.trace.take 6) =
        ([[1, 2, 3], []].map tcpEncode).flatten ++ [0] := by decide
  ⟨chunkSent_reachable, hr, hext, by decide, by decide, ⟨[0], rfl⟩, by decide, hs,
    tcp_frames_delivered chunkSent_reachable hr hext 0 (m := []) (by decide) (by decide)
      ⟨[0], rfl⟩ (by decide) hs⟩

end CAres
