import CAres.Proof.Timeouts

/-! # The I/O paths

`write_tcp_data`, `read_tcp_data`, `read_udp_packets_fd` and `read_packets` keep `Inv`.
Each reader runs `process_answer` only on a connection that is open: the TCP framing loop
because `process_answer` closes no TCP connection (`Inv.processAnswer`), the UDP loop
because it re-checks that the socket is still registered, and `read_packets` because it
takes the connection from `connnode_by_socket`. So no run reads a closed connection. -/

namespace CAres

open Function

variable {cfg : Config} {env : Env} {ch ch' : Channel}

namespace Inv

/-- A step of one TCP stream: server `i` is rewritten with its index and connections kept,
and one event records the bytes moved. -/
theorem streamStep (hi : Inv cfg ch) {i : Nat} {f : Server → Server} {e : Event}
    (hidx : (f (ch.servers i)).idx = (ch.servers i).idx)
    (hconns : (f (ch.servers i)).connections = (ch.servers i).connections)
    (htcp : (f (ch.servers i)).tcpConn = (ch.servers i).tcpConn)
    (he : e.callbackOf = none) (hs : e.Silent) (hf : ∀ f, e ≠ .fault f)
    (hfr : e.FramedAfter ch.trace.head?) (hst : Streams ((ch.updateServer i f).emit e)) :
    Inv cfg ((ch.updateServer i f).emit e) :=
  ⟨(hi.wf.updateServer hidx hconns htcp).emit ⟨he, fun _ => hf _⟩,
    fun h q hq => hi.settled h q hq, hi.trace.emit (fun f heq => absurd heq (hf f)) he hfr,
    hi.retry.quiet ((Quiet.of_eq rfl rfl rfl rfl : Quiet ch (ch.updateServer i f)).trans
      (.emit hs)), hst⟩

theorem setTick (hi : Inv cfg ch) (t : Nat) : Inv cfg { ch with tick := t } :=
  ⟨{ hi.wf with }, fun h q hq => hi.settled h q hq, hi.trace,
    hi.retry.quiet (.of_eq rfl rfl rfl rfl), hi.streams.kept (.of_eq rfl rfl)⟩

theorem emit_benign (hi : Inv cfg ch) {e : Event} (he : e.callbackOf = none) (hs : e.Silent)
    (hb : e.OffStream) (hfr : e.FramedAfter ch.trace.head?) (hf : ∀ f, e ≠ .fault f) :
    Inv cfg (ch.emit e) :=
  hi.emit ⟨he, fun _ => hf _⟩ hs hb hfr fun f heq => absurd heq (hf f)

/-- One server's round of `write_tcp_data`. -/
theorem writeTcpServer (hi : Inv cfg ch) {fds : Option (List Nat)} {fd : Option Nat}
    {now : Timeval} (i : Nat) :
    Inv cfg (CAres.writeTcpServer cfg env fd now (ch, fds) i).1 := by
  unfold CAres.writeTcpServer
  dsimp only
  split
  · exact hi
  rename_i c htc
  obtain ⟨conn, hc, -⟩ := hi.wf.tcp_conn htc
  split
  · exact hi
  split
  · split
    · exact (hi.advance.handleError hc).1
    · rename_i n _ _
      have hw := hi.advance.streamStep rfl rfl rfl (by rfl) (by trivial) (by simp) (by exact nofun)
        (hi.advance.streams.write i c (min n (ch.servers i).tcpSend.length))
      split
      · exact hw.emit_benign (by rfl) (by trivial) (by trivial) (by exact nofun) (by simp)
      · exact hw
  · exact hi.advance
  · exact (hi.advance.handleError hc).1

theorem writeTcpData (hi : Inv cfg ch) {fds : Option (List Nat)} {fd : Option Nat}
    {now : Timeval} : Inv cfg (CAres.writeTcpData cfg env ch fds fd now) := by
  unfold CAres.writeTcpData
  split
  · exact hi
  · suffices ∀ (l : List Nat) (st : Channel × Option (List Nat)), Inv cfg st.1 →
        Inv cfg (l.foldl (CAres.writeTcpServer cfg env fd now) st).1 from this _ _ hi
    intro l
    induction l with
    | nil => exact fun _ h => h
    | cons i rest ih => exact fun st h => ih _ (writeTcpServer h i)

end Inv

/-- The framing loop keeps the invariant and its TCP connection open. -/
theorem readTcpFrames_inv {c : ConnId} {server : Nat} {now : Timeval} :
    ∀ (fuel : Nat) {ch : Channel}, Inv cfg ch →
      (∃ conn, ch.conns c = some conn ∧ conn.isTcp = true) →
      Inv cfg (readTcpFrames cfg env c server now fuel ch)
  | 0, _, hi, _ => by rw [readTcpFrames]; exact hi
  | fuel + 1, ch, hi, ⟨conn, hc, ht⟩ => by
    rw [readTcpFrames]
    split
    · exact hi
    · rename_i frame rest hf
      have hi₁ : Inv cfg ((ch.updateServer server fun s => { s with tcpParser := rest }).emit
          (.tcpFramed server c frame)) :=
        hi.streamStep rfl rfl rfl (by rfl) (by trivial) (by simp) nofun
          (hi.streams.frame server c hf)
      have hfr : (Event.answered c (frame.drop 2) true).FramedAfter
          ((ch.updateServer server fun s => { s with tcpParser := rest }).emit
            (.tcpFramed server c frame)).trace.head? := fun he => by
        cases he; exact ⟨server, frame, rfl, rfl⟩
      exact readTcpFrames_inv fuel (hi₁.processAnswer env hc hfr).1
        ((hi₁.processAnswer env hc hfr).2.tcp hc ht)

theorem Inv.readTcpData (hi : Inv cfg ch) {c : ConnId} {conn : Conn}
    (hc : ch.conns c = some conn) (ht : conn.isTcp = true) {now : Timeval} :
    Inv cfg (CAres.readTcpData cfg env ch c conn now) := by
  unfold CAres.readTcpData
  split
  · exact (hi.advance.handleError hc).1
  have hi' := hi.setTick (ch.tick + 2)
  split
  · exact (hi'.handleError hc).1
  · exact readTcpFrames_inv _ (hi'.streamStep rfl rfl rfl (by rfl) (by trivial) (by simp) nofun
      (hi'.streams.receive _ c _)) ⟨conn, hc, ht⟩
  · exact hi'
  · exact (hi'.handleError hc).1

/-- The UDP read loop runs while its connection is open. -/
theorem readUdpLoop_inv {c : ConnId} {now : Timeval} :
    ∀ (rs : List UdpRead) {ch : Channel}, Inv cfg ch → (ch.conns c).isSome →
      Inv cfg (readUdpLoop cfg env c c now rs ch)
  | [], _, hi, _ => by rw [readUdpLoop]; exact hi
  | r :: rest, ch, hi, hc => by
    obtain ⟨conn, hc⟩ := Option.isSome_iff_exists.mp hc
    rw [readUdpLoop]
    simp only [hc]
    split
    · exact hi
    · exact (hi.handleError hc).1
    · have next : ∀ {ch₁ : Channel}, Inv cfg ch₁ →
          Inv cfg (if (ch₁.connnodeBySocket c).isSome then readUdpLoop cfg env c c now rest ch₁
            else ch₁) := fun {ch₁} hi₁ => by
        split
        · rename_i hs
          obtain ⟨c', hc'⟩ := Option.isSome_iff_exists.mp hs
          obtain ⟨rfl, hopen⟩ := hi₁.wf.socket.mp hc'
          exact readUdpLoop_inv rest hi₁ hopen
        · exact hi₁
      refine next ?_
      split
      · exact hi
      · split
        · exact (hi.processAnswer env hc (by exact nofun)).1
        · exact hi

theorem Inv.readConn (hi : Inv cfg ch) {c : ConnId} (hc : (ch.conns c).isSome)
    {now : Timeval} : Inv cfg (CAres.readConn cfg env ch c now) := by
  obtain ⟨conn, hc⟩ := Option.isSome_iff_exists.mp hc
  unfold CAres.readConn
  simp only [hc]
  split
  · exact hi.readTcpData hc ‹_›
  · unfold readUdpPacketsFd
    rw [hi.wf.connFd_eq]
    exact readUdpLoop_inv _ hi.advance (by simp [hc])

theorem Inv.channelSocketList (hi : Inv cfg ch) :
    Inv cfg (CAres.channelSocketList cfg env ch).2 := by
  unfold CAres.channelSocketList
  split
  · exact hi.advance
  · dsimp only
    split
    · exact hi.advance
    · exact hi.advance.emit (by simp [Event.Benign, Event.callbackOf]) (by trivial) (by trivial)
        nofun (by rintro f ⟨⟩; trivial)

theorem readPacketsLoop_inv {now : Timeval} :
    ∀ (fds socks : List Nat) {ch : Channel}, Inv cfg ch →
      Inv cfg (readPacketsLoop cfg env now fds socks ch)
  | _, [], _, hi => by rw [readPacketsLoop]; exact hi
  | fds, s :: rest, ch, hi => by
    rw [readPacketsLoop]
    split
    · split
      · exact hi
      · rename_i c hs
        exact readPacketsLoop_inv _ rest (hi.readConn (hi.wf.socket.mp hs).2)
    · exact readPacketsLoop_inv fds rest hi

theorem Inv.readPackets (hi : Inv cfg ch) {fds : Option (List Nat)} {fd : Option Nat}
    {now : Timeval} : Inv cfg (CAres.readPackets cfg env ch fds fd now) := by
  unfold CAres.readPackets
  split
  · exact hi
  · split
    · exact hi
    · rename_i c hs
      exact hi.readConn (hi.wf.socket.mp hs).2
  · exact readPacketsLoop_inv _ _ hi.channelSocketList

/-- `ares_process` and `ares_process_fd` keep the invariant. -/
theorem Inv.processfds (hi : Inv cfg ch) {readFds writeFds : Option (List Nat)}
    {readFd writeFd : Option Nat} {now : Timeval} :
    Inv cfg (CAres.processfds cfg env ch readFds readFd writeFds writeFd now) :=
  hi.writeTcpData.readPackets.processTimeouts

end CAres
