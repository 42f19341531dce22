import CAres.Proof.Dispatch

/-! # No query is lost

Only `end_query` takes a query out of the registry, and it invokes the query's callback just
before it frees the record; every other write to `queries` stores a record. So each operation
of the engine relates its entry and exit states by `Accounts`: the trace only grows, no handle
is given out, and every query live at entry is live at exit or has had its callback. This
needs no invariant: it holds of every call from every state.

The submission path gives out the next handle and either stores its query or invokes its
callback at once. So in every state of every run, every handle given out is live or has had
its callback (`Reachable.accounted`). -/

namespace CAres

open Function

/-- The callback of query `h` is in the trace `tr`. -/
def Called (h : QueryId) (tr : List Event) : Prop := h ∈ tr.filterMap Event.callbackOf

theorem called_iff {h : QueryId} {tr : List Event} :
    Called h tr ↔ ∃ st t a, Event.callback h st t a ∈ tr := by
  constructor
  · intro hc
    obtain ⟨e, he, hce⟩ := List.mem_filterMap.mp hc
    cases e <;> simp only [Event.callbackOf, reduceCtorEq, Option.some.injEq] at hce
    subst hce
    exact ⟨_, _, _, he⟩
  · rintro ⟨st, t, a, hm⟩
    exact List.mem_filterMap.mpr ⟨_, hm, rfl⟩

theorem Called.mono {h : QueryId} {tr tr' : List Event} (hs : tr <:+ tr') (hc : Called h tr) :
    Called h tr' :=
  (hs.sublist.filterMap _).subset hc

theorem called_callback (h : QueryId) (st : Status) (t : Nat) (a : Option Bytes)
    (tr : List Event) : Called h (.callback h st t a :: tr) :=
  called_iff.mpr ⟨st, t, a, List.mem_cons_self _ _⟩

/-- What an operation of the engine does to the handles: the trace only grows, no handle is
given out, and every query live at entry is live at exit or has had its callback. -/
structure Accounts (ch ch' : Channel) : Prop where
  trace : ch.trace <:+ ch'.trace
  nextQuery : ch'.nextQuery = ch.nextQuery
  live : ∀ {h}, (ch.queries h).isSome → (ch'.queries h).isSome ∨ Called h ch'.trace

/-- The exit state of `ares__send_query`'s attempt. -/
def Sent.channel : Sent → Channel
  | .ok ch | .retry ch _ | .fail ch _ _ => ch

namespace Accounts

variable {cfg : Config} {env : Env} {ch ch' ch₁ : Channel}

theorem refl (ch : Channel) : Accounts ch ch := ⟨List.suffix_refl _, rfl, .inl⟩

theorem trans (a₁ : Accounts ch ch₁) (a₂ : Accounts ch₁ ch') : Accounts ch ch' :=
  ⟨a₁.trace.trans a₂.trace, a₂.nextQuery.trans a₁.nextQuery, fun hs =>
    (a₁.live hs).elim a₂.live fun hc => .inr (hc.mono a₂.trace)⟩

/-- A step that keeps every live query live. -/
theorem of_live (hl : ∀ h, (ch.queries h).isSome → (ch'.queries h).isSome)
    (hn : ch'.nextQuery = ch.nextQuery) (ht : ch.trace <:+ ch'.trace) : Accounts ch ch' :=
  ⟨ht, hn, fun hs => .inl (hl _ hs)⟩

/-- A step that leaves the registry alone. -/
theorem of_queries (hq : ch'.queries = ch.queries) (hn : ch'.nextQuery = ch.nextQuery)
    (ht : ch.trace <:+ ch'.trace) : Accounts ch ch' :=
  of_live (fun _ => by rw [hq]; exact id) hn ht

/-- A step that stores a record. -/
theorem of_update {h : QueryId} {q : Query} (hq : ch'.queries = update ch.queries h (some q))
    (hn : ch'.nextQuery = ch.nextQuery) (ht : ch.trace <:+ ch'.trace) : Accounts ch ch' :=
  of_live (fun h' hs => by
    rw [hq]
    by_cases e : h' = h
    · subst e; simp
    · rwa [update_noteq e]) hn ht

theorem emit (ch : Channel) (e : Event) : Accounts ch (ch.emit e) :=
  of_queries rfl rfl (List.suffix_cons _ _)

theorem advance (ch : Channel) : Accounts ch ch.advance :=
  of_queries rfl rfl (List.suffix_refl _)

theorem setQuery (ch : Channel) (h : QueryId) (q : Query) : Accounts ch (ch.setQuery h q) :=
  of_update rfl rfl (List.suffix_refl _)

theorem setFlags (ch : Channel) (f : Flags) : Accounts ch { ch with flags := f } :=
  of_queries rfl rfl (List.suffix_refl _)

/-- `end_query` frees the record only after the callback. -/
theorem endQuery (ch : Channel) (h : QueryId) (q : Query) (st : Status) (a : Option Bytes) :
    Accounts ch (ch.endQuery h q st a) := by
  rw [Channel.endQuery_eq]
  refine ⟨List.suffix_cons _ _, rfl, fun {h'} hs => ?_⟩
  by_cases e : h' = h
  · subst e; exact .inr (called_callback ..)
  · exact .inl (by simpa [update_noteq e] using hs)

theorem addConnection (ch : Channel) (i : Nat) (tcp : Bool) :
    Accounts ch (ch.addConnection i tcp) :=
  of_queries rfl rfl (List.suffix_cons _ _)

theorem closeConnection (ch : Channel) (c : ConnId) (conn : Conn) :
    Accounts ch (ch.closeConnection c conn) :=
  of_queries rfl rfl (List.suffix_cons _ _)

theorem checkCleanupConn (ch : Channel) (fd : Nat) : Accounts ch (ch.checkCleanupConn cfg fd) := by
  unfold Channel.checkCleanupConn
  split
  · exact refl ch
  split
  · exact refl ch
  split
  · exact closeConnection ..
  · exact refl ch

theorem ite {p : Prop} [Decidable p] {x y : Channel} (ax : Accounts ch x) (ay : Accounts ch y) :
    Accounts ch (if p then x else y) := by
  split
  · exact ax
  · exact ay

theorem cleanup (a : Accounts ch ch') (fd : Nat) : Accounts ch (ch'.checkCleanupConn cfg fd) :=
  a.trans (checkCleanupConn ch' fd)

/-! ## `ares__send_query` and `next_server` -/

theorem queueTcp (ch : Channel) (i : Nat) (c : ConnId) (frame : Bytes) :
    Accounts ch (ch.queueTcp i c frame) := by
  unfold Channel.queueTcp
  dsimp only
  split
  · exact of_queries rfl rfl ⟨[_, _], rfl⟩
  · exact of_queries rfl rfl (List.suffix_cons _ _)

theorem armAndEnqueue (ch : Channel) (h : QueryId) (q : Query) (c : ConnId) (now : Timeval)
    (cause : Cause) : Accounts ch (CAres.armAndEnqueue cfg env ch h q c now cause).channel := by
  unfold CAres.armAndEnqueue
  dsimp only
  split
  · exact of_update rfl rfl (List.suffix_cons _ _)
  · exact of_queries rfl rfl (List.suffix_cons _ _)

theorem sendTcp (ch : Channel) (h : QueryId) (q : Query) (now : Timeval) (cause : Cause) :
    Accounts ch (CAres.sendTcp cfg env ch h q now cause).channel := by
  unfold CAres.sendTcp
  rcases htc : (ch.servers q.server).tcpConn with _ | c₀
  · rcases openConnection_cases env ch q.server true with ho | ⟨st, hst, ho⟩
    · simp only [htc, ho, addConnection_tcpConn]
      have a := addConnection ch q.server true
      split
      · exact a.trans ((queueTcp ..).trans (armAndEnqueue ..))
      · exact a.trans (advance _)
    · simp only [htc, ho]
      split <;> first | exact advance ch | exact absurd rfl hst
  · simp only [htc]
    split
    · exact (queueTcp ..).trans (armAndEnqueue ..)
    · exact advance ch

theorem sendUdp (ch : Channel) (h : QueryId) (q : Query) (now : Timeval) (cause : Cause) :
    Accounts ch (CAres.sendUdp cfg env ch h q now cause).channel := by
  have write : ∀ {ch₁ : Channel}, Accounts ch ch₁ → ∀ c,
      Accounts ch (if env.udpWrite ch₁.tick then
        CAres.armAndEnqueue cfg env ch₁.advance h q c now cause
      else .retry ch₁.advance (skipServer cfg q q.server)).channel := fun a c => by
    split
    · exact (a.trans (advance _)).trans (armAndEnqueue ..)
    · exact a.trans (advance _)
  unfold CAres.sendUdp
  rcases hr : reusableUdp cfg ch q.server with _ | c
  · rcases openConnection_cases env ch q.server false with ho | ⟨st, hst, ho⟩
    · simp only [ho, addConnection_udp_head]
      exact write (addConnection ..) _
    · simp only [ho]
      split <;> first | exact advance ch | exact absurd rfl hst
  · exact write (refl ch) c

theorem sendAttempt (ch : Channel) (h : QueryId) (q : Query) (now : Timeval) (cause : Cause) :
    Accounts ch (CAres.sendAttempt cfg env ch h q now cause).channel := by
  unfold CAres.sendAttempt
  split
  · exact sendTcp ..
  · exact sendUdp ..

/-- The exit the attempt took. -/
theorem sent {q : Query} {now : Timeval} {cause : Cause} {s : Sent} {h : QueryId}
    (hs : CAres.sendAttempt cfg env ch h q now cause = s) : Accounts ch s.channel :=
  hs ▸ sendAttempt ch h q now cause

theorem nextServerLoop (h : QueryId) (now : Timeval) :
    ∀ (k : Nat) (ch : Channel) (q : Query),
      Accounts ch (CAres.nextServerLoop cfg env h now k ch q)
  | k + 2, ch, q => by
    rw [CAres.nextServerLoop]
    dsimp only
    split
    · exact endQuery ..
    split
    · split <;> rename_i hs
      · exact sent hs
      · exact (sent hs).trans (nextServerLoop h now (k + 1) _ _)
      · exact (sent hs).trans (endQuery ..)
    · exact nextServerLoop h now (k + 1) ch _
  | 0, ch, q | 1, ch, q => endQuery ..

theorem nextServer (ch : Channel) (h : QueryId) (q : Query) (now : Timeval) :
    Accounts ch (CAres.nextServer cfg env ch h q now) :=
  nextServerLoop h now _ ch q

theorem aresSendQuery (ch : Channel) (h : QueryId) (q : Query) (now : Timeval) (cause : Cause) :
    Accounts ch (CAres.aresSendQuery cfg env ch h q now cause) := by
  unfold CAres.aresSendQuery
  split <;> rename_i hs
  · exact sent hs
  · exact (sent hs).trans (nextServer ..)
  · exact (sent hs).trans (endQuery ..)

/-! ## `process_answer` -/

theorem answerBranches (ch : Channel) (abuf : Bytes) (rec : DnsRecord) (server fd : Nat)
    (tcp : Bool) (h : QueryId) (q : Query) (now : Timeval) :
    Accounts ch (CAres.answerBranches cfg env ch abuf rec server fd tcp h q now) := by
  unfold CAres.answerBranches
  dsimp only
  split
  · refine (setFlags ch _).trans ((advance _).trans (ite ?_ (emit ..)))
    exact (aresSendQuery ..).cleanup fd
  split
  · split
    · exact (refl ch).cleanup fd
    · exact (aresSendQuery ..).cleanup fd
  split
  · split
    · exact (nextServer ..).cleanup fd
    · exact (setQuery ..).cleanup fd
  · exact (endQuery ..).cleanup fd

theorem processAnswer (ch : Channel) (abuf : Bytes) (c : ConnId) (tcp : Bool) (now : Timeval) :
    Accounts ch (CAres.processAnswer cfg env ch abuf c tcp now) := by
  have a := emit ch (.answered c abuf tcp)
  unfold CAres.processAnswer
  dsimp only
  split
  · exact a.trans (emit ..)
  split
  · exact a
  split
  · exact a
  split
  · exact a.trans (emit ..)
  split
  · refine a.trans (trans ?_ (answerBranches ..))
    exact of_update rfl rfl (List.suffix_refl _)
  · exact a

/-! ## The entry points -/

theorem handleErrorLoop (c : ConnId) (server : Nat) (now : Timeval) :
    ∀ (fuel : Nat) (ch : Channel),
      Accounts ch (CAres.handleErrorLoop cfg env c server now fuel ch)
  | 0, ch => refl ch
  | fuel + 1, ch => by
    rw [CAres.handleErrorLoop]
    split
    · exact refl ch
    split
    · exact emit ..
    dsimp only
    split
    · exact (nextServer ..).trans (handleErrorLoop c server now fuel _)
    · exact (emit ..).trans ((nextServer ..).trans (handleErrorLoop c server now fuel _))

theorem handleError (ch : Channel) (c : ConnId) (now : Timeval) :
    Accounts ch (CAres.handleError cfg env ch c now) := by
  unfold CAres.handleError
  split
  · exact emit ..
  · exact (closeConnection ..).trans (handleErrorLoop ..)

theorem processTimeoutsLoop (now : Timeval) :
    ∀ (fuel : Nat) (ch : Channel) (node : Option QueryId),
      Accounts ch (CAres.processTimeoutsLoop cfg env now fuel ch node)
  | 0, ch, _ | _ + 1, ch, none => refl ch
  | fuel + 1, ch, some h => by
    rw [CAres.processTimeoutsLoop]
    split
    · exact emit ..
    dsimp only
    split
    · refine (?_ : Accounts ch _).trans (processTimeoutsLoop now fuel _ _)
      split
      · exact (nextServer ..).cleanup _
      · exact (emit ..).trans ((nextServer ..).cleanup _)
    · exact refl ch

theorem processTimeouts (ch : Channel) (now : Timeval) :
    Accounts ch (CAres.processTimeouts cfg env ch now) :=
  processTimeoutsLoop now _ ch _

theorem writeTcpServer (fd : Option Nat) (now : Timeval) (st : Channel × Option (List Nat))
    (i : Nat) : Accounts st.1 (CAres.writeTcpServer cfg env fd now st i).1 := by
  obtain ⟨ch, fds⟩ := st
  unfold CAres.writeTcpServer
  dsimp only
  split
  · exact refl ch
  split
  · exact refl ch
  split
  · split
    · exact (advance ch).trans (handleError ..)
    · split
      · exact of_queries rfl rfl ⟨[_, _], rfl⟩
      · exact of_queries rfl rfl (List.suffix_cons _ _)
  · exact advance ch
  · exact (advance ch).trans (handleError ..)

theorem writeTcpData (ch : Channel) (fds : Option (List Nat)) (fd : Option Nat)
    (now : Timeval) : Accounts ch (CAres.writeTcpData cfg env ch fds fd now) := by
  have fold : ∀ (l : List Nat) (st : Channel × Option (List Nat)),
      Accounts st.1 (l.foldl (CAres.writeTcpServer cfg env fd now) st).1 := by
    intro l
    induction l with
    | nil => exact fun st => refl st.1
    | cons i l ih => exact fun st => (writeTcpServer fd now st i).trans (ih _)
  unfold CAres.writeTcpData
  split
  · exact refl ch
  · exact fold _ (ch, fds)

theorem readTcpFrames (c : ConnId) (server : Nat) (now : Timeval) :
    ∀ (fuel : Nat) (ch : Channel), Accounts ch (CAres.readTcpFrames cfg env c server now fuel ch)
  | 0, ch => refl ch
  | fuel + 1, ch => by
    rw [CAres.readTcpFrames]
    split
    · exact refl ch
    · refine (trans ?_ (processAnswer ..)).trans (readTcpFrames c server now fuel _)
      exact of_queries rfl rfl (List.suffix_cons _ _)

theorem readTcpData (ch : Channel) (c : ConnId) (conn : Conn) (now : Timeval) :
    Accounts ch (CAres.readTcpData cfg env ch c conn now) := by
  have a : Accounts ch { ch with tick := ch.tick + 2 } := of_queries rfl rfl (List.suffix_refl _)
  unfold CAres.readTcpData
  split
  · exact (advance ch).trans (handleError ..)
  dsimp only
  split
  · exact a.trans (handleError ..)
  · refine (a.trans ?_).trans (readTcpFrames ..)
    exact of_queries rfl rfl (List.suffix_cons _ _)
  · exact a
  · exact a.trans (handleError ..)

theorem readUdpLoop (c : ConnId) (fd : Nat) (now : Timeval) :
    ∀ (rs : List UdpRead) (ch : Channel), Accounts ch (CAres.readUdpLoop cfg env c fd now rs ch)
  | [], ch => refl ch
  | r :: rs, ch => by
    rw [CAres.readUdpLoop]
    split
    · exact emit ..
    split
    · exact refl ch
    · exact handleError ..
    · dsimp only
      have a {p q : Prop} [Decidable p] [Decidable q] (b : Bytes) :
          Accounts ch (if p then ch else if q then CAres.processAnswer cfg env ch b c false now
            else ch) :=
        ite (refl ch) (ite (processAnswer ..) (refl ch))
      exact ite ((a _).trans (readUdpLoop c fd now rs _)) (a _)

theorem readConn (ch : Channel) (c : ConnId) (now : Timeval) :
    Accounts ch (CAres.readConn cfg env ch c now) := by
  unfold CAres.readConn
  split
  · exact emit ..
  split
  · exact readTcpData ..
  · exact (advance ch).trans (readUdpLoop ..)

theorem channelSocketList (ch : Channel) :
    Accounts ch (CAres.channelSocketList cfg env ch).2 := by
  unfold CAres.channelSocketList
  split
  · exact advance ch
  dsimp only
  split
  · exact advance ch
  · exact (advance ch).trans (emit ..)

theorem readPacketsLoop (now : Timeval) :
    ∀ (fds socks : List Nat) (ch : Channel),
      Accounts ch (CAres.readPacketsLoop cfg env now fds socks ch)
  | _, [], ch => refl ch
  | fds, s :: rest, ch => by
    rw [CAres.readPacketsLoop]
    split
    · split
      · exact refl ch
      · exact (readConn ..).trans (readPacketsLoop now _ rest _)
    · exact readPacketsLoop now fds rest ch

theorem readPackets (ch : Channel) (fds : Option (List Nat)) (fd : Option Nat) (now : Timeval) :
    Accounts ch (CAres.readPackets cfg env ch fds fd now) := by
  unfold CAres.readPackets
  split
  · exact refl ch
  · split
    · exact refl ch
    · exact readConn ..
  · exact (channelSocketList ch).trans (readPacketsLoop ..)

theorem processfds (ch : Channel) (readFds : Option (List Nat)) (readFd : Option Nat)
    (writeFds : Option (List Nat)) (writeFd : Option Nat) (now : Timeval) :
    Accounts ch (CAres.processfds cfg env ch readFds readFd writeFds writeFd now) :=
  ((writeTcpData ..).trans (readPackets ..)).trans (processTimeouts ..)

end Accounts

/-- Every handle given out is live or has had its callback. -/
def Accounted (ch : Channel) : Prop :=
  ∀ h < ch.nextQuery, (ch.queries h).isSome ∨ Called h ch.trace

variable {cfg : Config} {env : Env} {ch ch' : Channel}

theorem Accounts.accounted (a : Accounts ch ch') (hc : Accounted ch) : Accounted ch' :=
  fun h hlt => (hc h (a.nextQuery ▸ hlt)).elim a.live fun hc => .inr (hc.mono a.trace)

/-- The submission path gives out the next handle, and stores its query or reports it at
once. -/
theorem Accounted.aresSend (hc : Accounted ch) (id : Nat) (qbuf : Bytes) (now : Timeval) :
    Accounted (CAres.aresSend cfg env ch id qbuf now) := by
  have fresh : ∀ {ch₁ : Channel} {st : Status}, ch₁.nextQuery = ch.nextQuery + 1 →
      ch₁.queries = ch.queries → ch₁.trace = ch.trace →
      Accounted (ch₁.emit (.callback ch.nextQuery st 0 none)) := by
    intro ch₁ st hn hq ht h hlt
    simp only [Channel.emit_nextQuery, hn] at hlt
    rcases Nat.lt_succ_iff_lt_or_eq.mp hlt with hlt | rfl
    · exact (hc h hlt).imp (by simp [hq]) fun c => c.mono (by simp [ht])
    · exact .inr (called_callback ..)
  unfold CAres.aresSend
  dsimp only
  split
  · exact fresh rfl rfl rfl
  split
  · exact fresh rfl rfl rfl
  refine (Accounts.aresSendQuery ..).accounted fun h hlt => ?_
  rcases Nat.lt_succ_iff_lt_or_eq.mp hlt with hlt | rfl
  · refine (hc h hlt).imp (fun hs => ?_) fun c => c.mono (List.suffix_cons _ _)
    simpa [update_noteq (Nat.ne_of_lt hlt)] using hs
  · exact .inl (by simp)

/-- In every state of every run, every handle given out is live or has had its callback. -/
theorem Reachable.accounted (hr : Reachable cfg env ch) : Accounted ch := by
  induction hr with
  | init => exact fun h hlt => absurd hlt (Nat.not_lt_zero h)
  | send id qbuf now _ _ _ ih => exact ih.aresSend id qbuf now
  | process _ _ _ _ _ _ ih => exact (Accounts.processfds ..).accounted ih

end CAres
