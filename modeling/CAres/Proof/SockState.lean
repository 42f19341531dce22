import CAres.Proof.Accounting

/-! # What the embedder is told about each socket

The embedder learns which sockets to watch from `sock_state_cb`. The engine reports a socket
readable when `ares__open_connection` opens it, not readable when `ares__close_connection`
closes it, and readable again with each change of write interest (`ares__send_query` queues
the first bytes of a TCP buffer, `write_tcp_data` empties it). `SockInv` ties the newest
read-interest flag reported for each socket (`lastRead`) to whether its connection is open.

It rests on four facts about connections, which it carries: an open connection's socket is
its handle, handles from `nextConn` on are unused, a server's `tcp_conn` is an open TCP
connection of that server, and every open TCP connection is its server's `tcp_conn`. None of
them needs the registry invariant `Wf`: what each operation needs is a fact of its call site
(`ares__send_query` opens a TCP connection only when the server has none; a connection is
closed with its own record; write interest is reported on the server's `tcp_conn`). So every
operation keeps `SockInv` (`SockKeeps`), and every reachable state satisfies it
(`Reachable.sockInv`). -/

namespace CAres

open Function

/-- The read-interest flag `e` reports for socket `fd`, when `e` is a socket-state
notification for it. -/
def Event.readOf (fd : Nat) : Event → Option Bool
  | .sockState f r _ => if f = fd then some r else none
  | _ => none

/-- The newest read-interest flag reported for socket `fd`; the trace is newest first. -/
def lastRead (fd : Nat) (tr : List Event) : Option Bool := (tr.filterMap (Event.readOf fd)).head?

theorem lastRead_append {evs tr : List Event} (hevs : ∀ e ∈ evs, ∀ fd, e.readOf fd = none)
    (fd : Nat) : lastRead fd (evs ++ tr) = lastRead fd tr := by
  rw [lastRead, List.filterMap_append, List.filterMap_eq_nil_iff.mpr fun e he => hevs e he fd]
  rfl

@[simp] theorem lastRead_sockState (fd f : Nat) (r w : Bool) (tr : List Event) :
    lastRead fd (.sockState f r w :: tr) = if f = fd then some r else lastRead fd tr := by
  by_cases e : f = fd <;> simp [lastRead, Event.readOf, e]

/-- What the embedder has been told about the sockets, and the facts about connections it
rests on. -/
structure SockInv (ch : Channel) : Prop where
  fd : ∀ {c conn}, ch.conns c = some conn → conn.fd = c
  fresh : ∀ {c}, ch.nextConn ≤ c → ch.conns c = none
  tcp_conn : ∀ {i c}, (ch.servers i).tcpConn = some c →
    ∃ conn, ch.conns c = some conn ∧ conn.server = i ∧ conn.isTcp = true
  tcp_unique : ∀ {c conn}, ch.conns c = some conn → conn.isTcp = true →
    (ch.servers conn.server).tcpConn = some c
  view : ∀ c, lastRead c ch.trace = if c < ch.nextConn then some (ch.conns c).isSome else none

/-- An operation keeps `SockInv`. -/
structure SockKeeps (ch ch' : Channel) : Prop where
  keeps : SockInv ch → SockInv ch'

namespace SockKeeps

variable {cfg : Config} {env : Env} {ch ch' ch₁ : Channel}

theorem refl (ch : Channel) : SockKeeps ch ch := ⟨id⟩

theorem trans (k₁ : SockKeeps ch ch₁) (k₂ : SockKeeps ch₁ ch') : SockKeeps ch ch' :=
  ⟨k₂.keeps ∘ k₁.keeps⟩

theorem ite {p : Prop} [Decidable p] {x y : Channel} (kx : SockKeeps ch x) (ky : SockKeeps ch y) :
    SockKeeps ch (if p then x else y) := by
  split
  · exact kx
  · exact ky

/-- A step that rewrites connection records without moving their server, socket or
transport, keeps `nextConn` and every `tcp_conn`, and reports no socket state. -/
theorem of_conns {g : ConnId → Conn → Conn}
    (hg : ∀ c conn, (g c conn).server = conn.server ∧ (g c conn).fd = conn.fd ∧
      (g c conn).isTcp = conn.isTcp)
    (hc : ∀ c, ch'.conns c = (ch.conns c).map (g c)) (hn : ch'.nextConn = ch.nextConn)
    (hs : ∀ i, (ch'.servers i).tcpConn = (ch.servers i).tcpConn)
    (ht : ∃ evs, ch'.trace = evs ++ ch.trace ∧ ∀ e ∈ evs, ∀ fd, e.readOf fd = none) :
    SockKeeps ch ch' := by
  refine ⟨fun si => ?_⟩
  obtain ⟨evs, htr, hevs⟩ := ht
  have back : ∀ {c conn'}, ch'.conns c = some conn' → ∃ conn, ch.conns c = some conn ∧
      conn'.server = conn.server ∧ conn'.fd = conn.fd ∧ conn'.isTcp = conn.isTcp := by
    intro c conn' h'
    rw [hc] at h'
    obtain ⟨conn, hconn, rfl⟩ := Option.map_eq_some'.mp h'
    exact ⟨conn, hconn, hg c conn⟩
  refine ⟨fun h' => ?_, fun hle => ?_, fun {i c} htc => ?_, fun h' ht' => ?_, fun c => ?_⟩
  · obtain ⟨conn, hconn, -, hfd, -⟩ := back h'
    exact hfd.trans (si.fd hconn)
  · rw [hc, si.fresh (hn ▸ hle)]; rfl
  · obtain ⟨conn, hconn, hsrv, htcp⟩ := si.tcp_conn ((hs i).symm.trans htc)
    exact ⟨g c conn, by rw [hc, hconn]; rfl, (hg c conn).1.trans hsrv,
      (hg c conn).2.2.trans htcp⟩
  · obtain ⟨conn, hconn, hsrv, -, htcp⟩ := back h'
    rw [hs, hsrv]
    exact si.tcp_unique hconn (htcp ▸ ht')
  · rw [htr, lastRead_append hevs, si.view, hn, hc, Option.isSome_map']

/-- A step that leaves the connections, `nextConn` and every `tcp_conn` alone, and records
events none of which is a socket-state notification. -/
theorem of_frame (hc : ch'.conns = ch.conns) (hn : ch'.nextConn = ch.nextConn)
    (hs : ∀ i, (ch'.servers i).tcpConn = (ch.servers i).tcpConn)
    (ht : ∃ evs, ch'.trace = evs ++ ch.trace ∧ ∀ e ∈ evs, ∀ fd, e.readOf fd = none) :
    SockKeeps ch ch' :=
  of_conns (g := fun _ conn => conn) (fun _ _ => ⟨rfl, rfl, rfl⟩) (by simp [hc]) hn hs ht

theorem emit (ch : Channel) {e : Event} (he : ∀ fd, e.readOf fd = none) :
    SockKeeps ch (ch.emit e) :=
  of_frame rfl rfl (fun _ => rfl) ⟨[e], rfl, by simpa using he⟩

theorem of_eq (hc : ch'.conns = ch.conns) (hn : ch'.nextConn = ch.nextConn)
    (hs : ch'.servers = ch.servers) (ht : ch'.trace = ch.trace) : SockKeeps ch ch' :=
  of_frame hc hn (fun i => by rw [hs]) ⟨[], ht, by simp⟩

theorem advance (ch : Channel) : SockKeeps ch ch.advance := of_eq rfl rfl rfl rfl

theorem setQuery (ch : Channel) (h : QueryId) (q : Query) : SockKeeps ch (ch.setQuery h q) :=
  of_eq rfl rfl rfl rfl

theorem setFlags (ch : Channel) (f : Flags) : SockKeeps ch { ch with flags := f } :=
  of_eq rfl rfl rfl rfl

/-- A socket-state notification reporting an open connection's socket readable. -/
theorem notify {c : ConnId} (hc : (ch.conns c).isSome) (w : Bool) :
    SockKeeps ch (ch.emit (.sockState (ch.connFd c) true w)) := by
  refine ⟨fun si => ?_⟩
  obtain ⟨conn, hconn⟩ := Option.isSome_iff_exists.mp hc
  have hfd : ch.connFd c = c := by simp only [Channel.connFd, hconn]; exact si.fd hconn
  refine { si with view := fun c' => ?_ }
  have hlt : c < ch.nextConn := Nat.lt_of_not_le fun hle => by simp [si.fresh hle] at hc
  simp only [Channel.emit_trace, lastRead_sockState, Channel.emit_nextConn, Channel.emit_conns,
    hfd]
  split
  · subst_vars; simp [hlt, hc]
  · exact si.view c'

theorem endQuery (ch : Channel) (h : QueryId) (q : Query) (st : Status) (a : Option Bytes) :
    SockKeeps ch (ch.endQuery h q st a) := by
  rw [Channel.endQuery_eq]
  exact of_frame rfl rfl (fun _ => rfl) ⟨[_], rfl, by simp [Event.readOf]⟩

/-- `ares__open_connection`, when the server has no TCP connection or the new one is UDP. -/
theorem addConnection (i : Nat) (tcp : Bool) (htcp : tcp = true → (ch.servers i).tcpConn = none) :
    SockKeeps ch (ch.addConnection i tcp) := by
  refine ⟨fun si => ?_⟩
  have hfresh : ch.conns ch.nextConn = none := si.fresh (Nat.le_refl _)
  have hne : ∀ {c conn}, ch.conns c = some conn → c ≠ ch.nextConn := fun h e => by
    rw [e, hfresh] at h; cases h
  unfold Channel.addConnection
  refine ⟨fun {c conn} h' => ?_, fun {c} hle => ?_, fun {j c} htc => ?_,
    fun {c conn} h' ht' => ?_, fun c => ?_⟩ <;> dsimp only at *
  · rcases Wf.update_some_eq_some.mp h' with ⟨rfl, rfl⟩ | ⟨-, h'⟩
    · rfl
    · exact si.fd h'
  · rw [update_noteq (Nat.lt_of_succ_le hle).ne']; exact si.fresh (Nat.le_of_succ_le hle)
  · by_cases e : j = i
    · subst e
      rw [update_same] at htc
      cases tcp
      · obtain ⟨conn, hc, hsrv, ht⟩ := si.tcp_conn htc
        exact ⟨conn, by rw [update_noteq (hne hc)]; exact hc, hsrv, ht⟩
      · cases htc; exact ⟨_, update_same _ _ _, rfl, rfl⟩
    · rw [update_noteq e] at htc
      obtain ⟨conn, hc, hsrv, ht⟩ := si.tcp_conn htc
      exact ⟨conn, by rw [update_noteq (hne hc)]; exact hc, hsrv, ht⟩
  · rcases Wf.update_some_eq_some.mp h' with ⟨rfl, rfl⟩ | ⟨hc, h'⟩
    · simp only at ht'; subst ht'; simp
    · have hold := si.tcp_unique h' ht'
      by_cases e : conn.server = i
      · subst e
        cases tcp
        · simpa using hold
        · rw [htcp rfl] at hold; cases hold
      · rwa [update_noteq e]
  · rw [lastRead_sockState, si.view]
    by_cases e : ch.nextConn = c
    · subst e; simp
    · rw [if_neg e, update_noteq (Ne.symm e)]
      simp only [Nat.lt_succ_iff_lt_or_eq, Ne.symm e, or_false]

theorem openConnection (env : Env) {i : Nat} {tcp : Bool}
    (htcp : tcp = true → (ch.servers i).tcpConn = none) :
    SockKeeps ch (ch.openConnection env i tcp).2 := by
  rcases openConnection_cases env ch i tcp with ho | ⟨st, -, ho⟩ <;> rw [ho]
  · exact addConnection i tcp htcp
  · exact advance ch

/-- `ares__close_connection` on an open connection with its own record. -/
theorem closeConnection {c : ConnId} {conn : Conn} (hc : ch.conns c = some conn) :
    SockKeeps ch (ch.closeConnection c conn) := by
  refine ⟨fun si => ?_⟩
  have hfd : conn.fd = c := si.fd hc
  unfold Channel.closeConnection
  refine ⟨fun {c' conn'} h' => ?_, fun {c'} hle => ?_, fun {j c'} htc => ?_,
    fun {c' conn'} h' ht' => ?_, fun c' => ?_⟩ <;> dsimp only at *
  · exact si.fd (Wf.update_none_eq_some h').2
  · by_cases e : c' = c
    · subst e; exact update_same _ _ _
    · rw [update_noteq e]; exact si.fresh hle
  · have htc' : (ch.servers j).tcpConn = some c' := by
      by_cases e : j = conn.server
      · subst e
        rw [update_same] at htc
        split at htc
        · cases htc
        · exact htc
      · rwa [update_noteq e] at htc
    obtain ⟨conn', hc', hsrv, ht'⟩ := si.tcp_conn htc'
    have hne : c' ≠ c := by
      rintro rfl
      rw [hc] at hc'
      cases hc'
      subst hsrv
      simp [ht'] at htc
    exact ⟨conn', by rw [update_noteq hne]; exact hc', hsrv, ht'⟩
  · obtain ⟨hne, h'⟩ := Wf.update_none_eq_some h'
    have hold := si.tcp_unique h' ht'
    by_cases e : conn'.server = conn.server
    · rw [e, update_same]
      split
      · rename_i htcp
        have := si.tcp_unique hc htcp
        rw [← e, hold] at this; cases this; exact absurd rfl hne
      · rwa [← e]
    · rwa [update_noteq e]
  · rw [lastRead_sockState, hfd, si.view]
    by_cases e : c = c'
    · subst e
      have hlt : c < ch.nextConn := Nat.lt_of_not_le fun hle => by simp [si.fresh hle] at hc
      simp [hlt]
    · rw [if_neg e, update_noteq (Ne.symm e)]

theorem checkCleanupConn (ch : Channel) (fd : Nat) : SockKeeps ch (ch.checkCleanupConn cfg fd) := by
  unfold Channel.checkCleanupConn
  split
  · exact refl ch
  split
  · exact refl ch
  split
  · exact closeConnection ‹_›
  · exact refl ch

theorem cleanup (k : SockKeeps ch ch') (fd : Nat) : SockKeeps ch (ch'.checkCleanupConn cfg fd) :=
  k.trans (checkCleanupConn ch' fd)

/-- A server update that keeps its `tcp_conn`. -/
theorem updateServer (ch : Channel) {i : Nat} {f : Server → Server}
    (hf : (f (ch.servers i)).tcpConn = (ch.servers i).tcpConn) :
    SockKeeps ch (ch.updateServer i f) :=
  of_frame rfl rfl (fun j => by
    by_cases e : j = i
    · subst e; simpa using hf
    · simp [e]) ⟨[], rfl, by simp⟩

/-! ## `ares__send_query` and `next_server` -/

/-- The TCP enqueue, on the server's `tcp_conn`. -/
theorem queueTcp {i : Nat} {c : ConnId} (frame : Bytes) (htc : (ch.servers i).tcpConn = some c) :
    SockKeeps ch (ch.queueTcp i c frame) := by
  have k : SockKeeps ch ((ch.advance.updateServer i fun s =>
      { s with tcpSend := s.tcpSend ++ frame }).emit (.tcpQueued i frame)) :=
    ((advance ch).trans (updateServer _ rfl)).trans (emit _ fun _ => by rfl)
  unfold Channel.queueTcp
  dsimp only
  split
  · refine ⟨fun si => (notify ?_ true).keeps (k.keeps si)⟩
    obtain ⟨conn, hconn, -⟩ := si.tcp_conn htc
    simp [hconn]
  · exact k

theorem enqueueQuery (ch : Channel) (h : QueryId) (q : Query) (c : ConnId) (linked : Bool) :
    SockKeeps ch (ch.enqueueQuery h q c linked) :=
  of_conns (g := fun c' conn => if c' = c then conn.countQuery else conn)
    (fun c' conn => by dsimp only; split <;> exact ⟨rfl, rfl, rfl⟩)
    (fun c' => by
      by_cases e : c' = c
      · subst e; simp [Channel.enqueueQuery]
      · simp [Channel.enqueueQuery, update_noteq e, e])
    rfl (fun _ => rfl) ⟨[], rfl, by simp⟩

theorem armAndEnqueue (ch : Channel) (h : QueryId) (q : Query) (c : ConnId) (now : Timeval)
    (cause : Cause) : SockKeeps ch (CAres.armAndEnqueue cfg env ch h q c now cause).channel := by
  unfold CAres.armAndEnqueue
  dsimp only
  refine (emit ch (e := .sent h q.server q.tryCount cause) fun _ => rfl).trans ?_
  split
  · exact enqueueQuery ..
  · exact of_eq rfl rfl rfl rfl

theorem sendTcp (ch : Channel) (h : QueryId) (q : Query) (now : Timeval) (cause : Cause) :
    SockKeeps ch (CAres.sendTcp cfg env ch h q now cause).channel := by
  have enqueue : ∀ {ch₁ : Channel} {c : ConnId}, SockKeeps ch ch₁ →
      (ch₁.servers q.server).tcpConn = some c → ∀ q' : Query,
      SockKeeps ch (if env.alloc ch₁.tick then CAres.armAndEnqueue cfg env
        (ch₁.queueTcp q.server c (q.tcpbuf.take q.tcplen)) h q' c now cause
        else Sent.fail ch₁.advance q .enomem).channel := fun k htc q' => by
    split
    · exact (k.trans (queueTcp _ htc)).trans (armAndEnqueue ..)
    · exact k.trans (advance _)
  unfold CAres.sendTcp
  rcases htc : (ch.servers q.server).tcpConn with _ | c₀
  · rcases openConnection_cases env ch q.server true with ho | ⟨st, hst, ho⟩
    · simp only [htc, ho, addConnection_tcpConn]
      exact enqueue (addConnection _ _ fun _ => htc) (addConnection_tcpConn _ _) _
    · simp only [htc, ho]
      split <;> first | exact advance ch | exact absurd rfl hst
  · simp only [htc]
    exact enqueue (refl ch) htc _

theorem sendUdp (ch : Channel) (h : QueryId) (q : Query) (now : Timeval) (cause : Cause) :
    SockKeeps ch (CAres.sendUdp cfg env ch h q now cause).channel := by
  have write : ∀ {ch₁ : Channel}, SockKeeps ch ch₁ → ∀ c,
      SockKeeps ch (if env.udpWrite ch₁.tick then
        CAres.armAndEnqueue cfg env ch₁.advance h q c now cause
      else .retry ch₁.advance (skipServer cfg q q.server)).channel := fun k c => by
    split
    · exact (k.trans (advance _)).trans (armAndEnqueue ..)
    · exact k.trans (advance _)
  unfold CAres.sendUdp
  rcases hr : reusableUdp cfg ch q.server with _ | c
  · rcases openConnection_cases env ch q.server false with ho | ⟨st, hst, ho⟩
    · simp only [ho, addConnection_udp_head]
      exact write (addConnection q.server false nofun) _
    · simp only [ho]
      split <;> first | exact advance ch | exact absurd rfl hst
  · exact write (refl ch) c

theorem sent {h : QueryId} {q : Query} {now : Timeval} {cause : Cause} {s : Sent}
    (hs : CAres.sendAttempt cfg env ch h q now cause = s) : SockKeeps ch s.channel := by
  subst hs
  unfold CAres.sendAttempt
  split
  · exact sendTcp ..
  · exact sendUdp ..

theorem nextServerLoop (h : QueryId) (now : Timeval) :
    ∀ (k : Nat) (ch : Channel) (q : Query),
      SockKeeps ch (CAres.nextServerLoop cfg env h now k ch q)
  | k + 2, ch, q => by
    rw [CAres.nextServerLoop]
    dsimp only
    split
    · exact endQuery ..
    split
    · split <;> rename_i hs
      · exact sent hs
      · exact (sent hs).trans (nextServerLoop h now (k + 1) _ _)
      · exact (sent hs).trans (endQuery ..)
    · exact nextServerLoop h now (k + 1) ch _
  | 0, ch, q | 1, ch, q => endQuery ..

theorem nextServer (ch : Channel) (h : QueryId) (q : Query) (now : Timeval) :
    SockKeeps ch (CAres.nextServer cfg env ch h q now) :=
  nextServerLoop h now _ ch q

theorem aresSendQuery (ch : Channel) (h : QueryId) (q : Query) (now : Timeval) (cause : Cause) :
    SockKeeps ch (CAres.aresSendQuery cfg env ch h q now cause) := by
  unfold CAres.aresSendQuery
  split <;> rename_i hs
  · exact sent hs
  · exact (sent hs).trans (nextServer ..)
  · exact (sent hs).trans (endQuery ..)

/-! ## `process_answer` -/

theorem answerBranches (ch : Channel) (abuf : Bytes) (rec : DnsRecord) (server fd : Nat)
    (tcp : Bool) (h : QueryId) (q : Query) (now : Timeval) :
    SockKeeps ch (CAres.answerBranches cfg env ch abuf rec server fd tcp h q now) := by
  unfold CAres.answerBranches
  dsimp only
  split
  · refine (setFlags ch _).trans ((advance _).trans (ite ?_ (emit _ fun _ => rfl)))
    exact (aresSendQuery ..).cleanup fd
  split
  · exact (ite (refl ch) (aresSendQuery ..)).cleanup fd
  split
  · exact (ite (nextServer ..) (setQuery ..)).cleanup fd
  · exact (endQuery ..).cleanup fd

theorem processAnswer (ch : Channel) (abuf : Bytes) (c : ConnId) (tcp : Bool) (now : Timeval) :
    SockKeeps ch (CAres.processAnswer cfg env ch abuf c tcp now) := by
  have k : SockKeeps ch (ch.emit (.answered c abuf tcp)) := emit ch fun _ => rfl
  unfold CAres.processAnswer
  dsimp only
  split
  · exact k.trans (emit _ fun _ => by rfl)
  split
  · exact k
  split
  · exact k
  split
  · exact k.trans (emit _ fun _ => by rfl)
  split
  · refine k.trans (trans ?_ (answerBranches ..))
    exact of_eq rfl rfl rfl rfl
  · exact k

/-! ## The entry points -/

theorem handleErrorLoop (c : ConnId) (server : Nat) (now : Timeval) :
    ∀ (fuel : Nat) (ch : Channel),
      SockKeeps ch (CAres.handleErrorLoop cfg env c server now fuel ch)
  | 0, ch => refl ch
  | fuel + 1, ch => by
    rw [CAres.handleErrorLoop]
    split
    · exact refl ch
    split
    · exact emit _ fun _ => by rfl
    dsimp only
    exact (ite (refl ch) (emit _ fun _ => by rfl)).trans
      ((nextServer ..).trans (handleErrorLoop c server now fuel _))

theorem handleError (ch : Channel) (c : ConnId) (now : Timeval) :
    SockKeeps ch (CAres.handleError cfg env ch c now) := by
  unfold CAres.handleError
  split
  · exact emit _ fun _ => by rfl
  · exact (closeConnection ‹_›).trans (handleErrorLoop ..)

theorem processTimeoutsLoop (now : Timeval) :
    ∀ (fuel : Nat) (ch : Channel) (node : Option QueryId),
      SockKeeps ch (CAres.processTimeoutsLoop cfg env now fuel ch node)
  | 0, ch, _ | _ + 1, ch, none => refl ch
  | fuel + 1, ch, some h => by
    rw [CAres.processTimeoutsLoop]
    split
    · exact emit _ fun _ => by rfl
    dsimp only
    split
    · exact (((ite (refl ch) (emit _ fun _ => by rfl)).trans (nextServer ..)).cleanup _).trans
        (processTimeoutsLoop now fuel _ _)
    · exact refl ch

theorem processTimeouts (ch : Channel) (now : Timeval) :
    SockKeeps ch (CAres.processTimeouts cfg env ch now) :=
  processTimeoutsLoop now _ ch _

theorem writeTcpServer (fd : Option Nat) (now : Timeval) (st : Channel × Option (List Nat))
    (i : Nat) : SockKeeps st.1 (CAres.writeTcpServer cfg env fd now st i).1 := by
  obtain ⟨ch, fds⟩ := st
  unfold CAres.writeTcpServer
  dsimp only
  split
  · exact refl ch
  rename_i c htc
  split
  · exact refl ch
  split
  · rename_i n _
    split
    · exact (advance ch).trans (handleError ..)
    · have k : SockKeeps ch ((ch.advance.updateServer i fun s =>
          { s with tcpSend := s.tcpSend.drop (min n (ch.servers i).tcpSend.length) }).emit
          (.tcpWritten i c ((ch.servers i).tcpSend.take (min n (ch.servers i).tcpSend.length)))) :=
        ((advance ch).trans (updateServer _ rfl)).trans (emit _ fun _ => by rfl)
      refine ite ⟨fun si => (notify ?_ false).keeps (k.keeps si)⟩ k
      obtain ⟨conn, hconn, -⟩ := si.tcp_conn htc
      simp [hconn]
  · exact advance ch
  · exact (advance ch).trans (handleError ..)

theorem writeTcpData (ch : Channel) (fds : Option (List Nat)) (fd : Option Nat)
    (now : Timeval) : SockKeeps ch (CAres.writeTcpData cfg env ch fds fd now) := by
  have fold : ∀ (l : List Nat) (st : Channel × Option (List Nat)),
      SockKeeps st.1 (l.foldl (CAres.writeTcpServer cfg env fd now) st).1 := by
    intro l
    induction l with
    | nil => exact fun st => refl st.1
    | cons i l ih => exact fun st => (writeTcpServer fd now st i).trans (ih _)
  unfold CAres.writeTcpData
  split
  · exact refl ch
  · exact fold _ (ch, fds)

theorem readTcpFrames (c : ConnId) (server : Nat) (now : Timeval) :
    ∀ (fuel : Nat) (ch : Channel), SockKeeps ch (CAres.readTcpFrames cfg env c server now fuel ch)
  | 0, ch => refl ch
  | fuel + 1, ch => by
    rw [CAres.readTcpFrames]
    split
    · exact refl ch
    · dsimp only
      exact (((updateServer _ rfl).trans (emit _ fun _ => by rfl)).trans (processAnswer ..)).trans
        (readTcpFrames c server now fuel _)

theorem readTcpData (ch : Channel) (c : ConnId) (conn : Conn) (now : Timeval) :
    SockKeeps ch (CAres.readTcpData cfg env ch c conn now) := by
  have k : SockKeeps ch { ch with tick := ch.tick + 2 } := of_eq rfl rfl rfl rfl
  unfold CAres.readTcpData
  split
  · exact (advance ch).trans (handleError ..)
  dsimp only
  split
  · exact k.trans (handleError ..)
  · exact ((k.trans (updateServer _ rfl)).trans (emit _ fun _ => by rfl)).trans (readTcpFrames ..)
  · exact k
  · exact k.trans (handleError ..)

theorem readUdpLoop (c : ConnId) (fd : Nat) (now : Timeval) :
    ∀ (rs : List UdpRead) (ch : Channel), SockKeeps ch (CAres.readUdpLoop cfg env c fd now rs ch)
  | [], ch => refl ch
  | r :: rs, ch => by
    rw [CAres.readUdpLoop]
    split
    · exact emit _ fun _ => by rfl
    split
    · exact refl ch
    · exact handleError ..
    · dsimp only
      have k {p q : Prop} [Decidable p] [Decidable q] (b : Bytes) :
          SockKeeps ch (if p then ch else if q then CAres.processAnswer cfg env ch b c false now
            else ch) :=
        ite (refl ch) (ite (processAnswer ..) (refl ch))
      exact ite ((k _).trans (readUdpLoop c fd now rs _)) (k _)

theorem readConn (ch : Channel) (c : ConnId) (now : Timeval) :
    SockKeeps ch (CAres.readConn cfg env ch c now) := by
  unfold CAres.readConn
  split
  · exact emit _ fun _ => by rfl
  split
  · exact readTcpData ..
  · exact (advance ch).trans (readUdpLoop ..)

theorem channelSocketList (ch : Channel) :
    SockKeeps ch (CAres.channelSocketList cfg env ch).2 := by
  unfold CAres.channelSocketList
  split
  · exact advance ch
  dsimp only
  split
  · exact advance ch
  · exact (advance ch).trans (emit _ fun _ => by rfl)

theorem readPacketsLoop (now : Timeval) :
    ∀ (fds socks : List Nat) (ch : Channel),
      SockKeeps ch (CAres.readPacketsLoop cfg env now fds socks ch)
  | _, [], ch => refl ch
  | fds, s :: rest, ch => by
    rw [CAres.readPacketsLoop]
    split
    · split
      · exact refl ch
      · exact (readConn ..).trans (readPacketsLoop now _ rest _)
    · exact readPacketsLoop now fds rest ch

theorem readPackets (ch : Channel) (fds : Option (List Nat)) (fd : Option Nat) (now : Timeval) :
    SockKeeps ch (CAres.readPackets cfg env ch fds fd now) := by
  unfold CAres.readPackets
  split
  · exact refl ch
  · split
    · exact refl ch
    · exact readConn ..
  · exact (channelSocketList ch).trans (readPacketsLoop ..)

theorem processfds (ch : Channel) (readFds : Option (List Nat)) (readFd : Option Nat)
    (writeFds : Option (List Nat)) (writeFd : Option Nat) (now : Timeval) :
    SockKeeps ch (CAres.processfds cfg env ch readFds readFd writeFds writeFd now) :=
  ((writeTcpData ..).trans (readPackets ..)).trans (processTimeouts ..)

theorem aresSend (ch : Channel) (id : Nat) (qbuf : Bytes) (now : Timeval) :
    SockKeeps ch (CAres.aresSend cfg env ch id qbuf now) := by
  unfold CAres.aresSend
  dsimp only
  have k : ∀ {ch' : Channel} (e : Event), ch'.conns = ch.conns → ch'.nextConn = ch.nextConn →
      ch'.servers = ch.servers → ch'.trace = e :: ch.trace → (∀ fd, e.readOf fd = none) →
      SockKeeps ch ch' := fun _ hc hn hs ht he =>
    of_frame hc hn (fun i => by rw [hs]) ⟨[_], ht, by simpa using he⟩
  split
  · exact k _ rfl rfl rfl rfl fun _ => rfl
  split
  · exact k _ rfl rfl rfl rfl fun _ => rfl
  · refine (k (.submitted ch.nextQuery ch.lastServer) ?_ ?_ ?_ ?_ ?_).trans (aresSendQuery ..)
    all_goals first | rfl | exact fun _ => rfl

end SockKeeps

/-- Every state of every run satisfies `SockInv`. -/
theorem Reachable.sockInv {cfg : Config} {env : Env} {ch : Channel}
    (hr : Reachable cfg env ch) : SockInv ch := by
  induction hr with
  | init flags addrs =>
    refine ⟨nofun, fun _ => rfl, nofun, nofun, fun c => ?_⟩
    simp [Channel.init, lastRead]
  | send id qbuf now _ _ _ ih => exact (SockKeeps.aresSend _ id qbuf now).keeps ih
  | process _ _ _ _ _ _ ih => exact (SockKeeps.processfds ..).keeps ih

end CAres
