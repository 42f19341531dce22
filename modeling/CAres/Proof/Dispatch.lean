import CAres.Proof.Wf
import CAres.Proof.Stream

/-! # What a dispatch does

`ares__send_query` does some bookkeeping before it takes one of its exits: it may open a
connection, append the request to a server's TCP send buffer, notify a socket-state change,
and consume calls of the outside world. `Prep` collects these steps. None of them touches a
query or an index, so `Prep` keeps `Wf`, the registry and every open connection as they are.

On top of it, `sendAttempt_ok`, `sendAttempt_retry` and `sendAttempt_fail` say what each exit
of `sendAttempt` is made of, and `Dispatch.lean`'s main results follow `next_server`'s loop
with them: a dispatch of query `h` keeps `Wf`, changes no other query (`Frame`), and leaves
`h` either ended or enqueued on an open connection with a deadline (`Settled`). -/

namespace CAres

open Function

variable {cfg : Config} {env : Env}

theorem addr_update {servers : Nat → Server} {i : Nat} {s : Server}
    (hs : s.addr = (servers i).addr) (j : Nat) :
    (update servers i s j).addr = (servers j).addr := by
  by_cases e : j = i
  · subst e; simpa using hs
  · rw [update_noteq e]

/-- The steps `ares__send_query` takes before its exit. -/
inductive Prep (cfg : Config) (env : Env) : Channel → Channel → Prop
  | refl (ch : Channel) : Prep cfg env ch ch
  | openConnection {ch ch₁ : Channel} {i : Nat} (tcp : Bool) :
      Prep cfg env ch ch₁ → i < cfg.nservers → Prep cfg env ch (ch₁.openConnection env i tcp).2
  | advance {ch ch₁ : Channel} : Prep cfg env ch ch₁ → Prep cfg env ch ch₁.advance
  | queue {ch ch₁ : Channel} (i : Nat) (frame : Bytes) : Prep cfg env ch ch₁ →
      Prep cfg env ch ((ch₁.advance.updateServer i fun s =>
        { s with tcpSend := s.tcpSend ++ frame }).emit (.tcpQueued i frame))
  | sockState {ch ch₁ : Channel} (fd : Nat) (r w : Bool) : Prep cfg env ch ch₁ →
      Prep cfg env ch (ch₁.emit (.sockState fd r w))

/-- The events a dispatch records: socket-state notifications, TCP enqueues, sends, and
callbacks with a failure status and no answer; and the fault of the EDNS fallback's
`tcpbuf` realloc, which the model records where that fallback's dispatch would run. -/
def Event.Dispatchable : Event → Prop
  | .sockState .. | .tcpQueued .. | .sent .. | .fault (.tcpbufRealloc _) => True
  | .callback _ st _ a => st ≠ .success ∧ a = none
  | _ => False

/-- `ch'` extends the trace of `ch` by dispatch events. -/
def DispatchTrace (ch ch' : Channel) : Prop :=
  ∃ evs, ch'.trace = evs ++ ch.trace ∧ ∀ e ∈ evs, e.Dispatchable

theorem DispatchTrace.refl (ch : Channel) : DispatchTrace ch ch := ⟨[], rfl, by simp⟩

theorem DispatchTrace.trans {ch₁ ch₂ ch₃ : Channel} (d₁ : DispatchTrace ch₁ ch₂)
    (d₂ : DispatchTrace ch₂ ch₃) : DispatchTrace ch₁ ch₃ := by
  obtain ⟨e₁, h₁, p₁⟩ := d₁
  obtain ⟨e₂, h₂, p₂⟩ := d₂
  exact ⟨e₂ ++ e₁, by rw [h₂, h₁, List.append_assoc], fun e he =>
    (List.mem_append.mp he).elim (p₂ e) (p₁ e)⟩

theorem DispatchTrace.cons {ch₁ ch₂ : Channel} {e : Event} (d : DispatchTrace ch₁ ch₂)
    (he : e.Dispatchable) : DispatchTrace ch₁ (ch₂.emit e) := by
  obtain ⟨evs, h, p⟩ := d
  exact ⟨e :: evs, by simp [h], fun e' he' =>
    (List.mem_cons.mp he').elim (fun heq => heq ▸ he) (p e')⟩

theorem DispatchTrace.of_trace {ch₁ ch₂ : Channel} (h : ch₂.trace = ch₁.trace) :
    DispatchTrace ch₁ ch₂ := ⟨[], by simp [h], by simp⟩

theorem Event.Dispatchable.ne_answered {e : Event} (hd : e.Dispatchable) {c : ConnId} {P : Bytes}
    {tcp : Bool} : e ≠ .answered c P tcp := by
  rintro rfl; exact hd

/-- A dispatch enters no `process_answer`. -/
theorem DispatchTrace.answered {ch ch' : Channel} (d : DispatchTrace ch ch') {c : ConnId}
    {P : Bytes} {tcp : Bool} (hm : Event.answered c P tcp ∈ ch'.trace) :
    Event.answered c P tcp ∈ ch.trace := by
  obtain ⟨evs, he, hd⟩ := d
  rw [he] at hm
  rcases List.mem_append.mp hm with hm | hm
  · exact absurd rfl ((hd _ hm).ne_answered)
  · exact hm

namespace Prep

variable {ch ch' : Channel}

theorem wf (hp : Prep cfg env ch ch') (hw : Wf cfg ch) : Wf cfg ch' := by
  induction hp with
  | refl => exact hw
  | openConnection _ _ hi ih => exact ih.openConnection hi
  | advance _ ih => exact ih.advance
  | queue _ _ _ ih =>
    exact (ih.advance.updateServer rfl rfl rfl).emit (by simp [Event.Benign, Event.callbackOf])
  | sockState _ _ _ _ ih => exact ih.emit Wf.benign_sockState

/-- The registry is untouched. -/
theorem queries_eq (hp : Prep cfg env ch ch') :
    ch'.queries = ch.queries ∧ ch'.allQueries = ch.allQueries ∧
      ch'.queriesByQid = ch.queriesByQid ∧ ch'.queriesByTimeout = ch.queriesByTimeout ∧
      ch'.nextQuery = ch.nextQuery := by
  induction hp with
  | refl => exact ⟨rfl, rfl, rfl, rfl, rfl⟩
  | openConnection _ _ _ ih =>
    unfold Channel.openConnection; dsimp only; split <;> exact ih
  | advance _ ih | queue _ _ _ ih | sockState _ _ _ _ ih => exact ih

/-- Connection lists and existing connections are untouched; opening adds a fresh one. -/
theorem conns_eq (hp : Prep cfg env ch ch') (hw : Wf cfg ch) :
    ch'.connQueries = ch.connQueries ∧ ch.nextConn ≤ ch'.nextConn ∧
      ∀ {c}, c < ch.nextConn → ch'.conns c = ch.conns c := by
  induction hp with
  | refl => exact ⟨rfl, Nat.le_refl _, fun _ => rfl⟩
  | @openConnection ch₁ i tcp hp _ ih =>
    obtain ⟨hl, hn, hc⟩ := ih
    have hw₁ := hp.wf hw
    unfold Channel.openConnection; dsimp only
    split
    · refine ⟨(hw₁.update_connQueries_fresh).trans hl, Nat.le_succ_of_le hn, fun hlt => ?_⟩
      rw [← hc hlt]
      exact update_noteq (Nat.ne_of_lt (Nat.lt_of_lt_of_le hlt hn)) _ _
    · exact ⟨hl, hn, hc⟩
  | advance _ ih | queue _ _ _ ih | sockState _ _ _ _ ih => exact ih

theorem conns_of_isSome (hp : Prep cfg env ch ch') (hw : Wf cfg ch) {c}
    (hc : (ch.conns c).isSome) : ch'.conns c = ch.conns c := by
  obtain ⟨conn, hconn⟩ := Option.isSome_iff_exists.mp hc
  exact (hp.conns_eq hw).2.2 (hw.lt_nextConn hconn)

/-- The steps keep every server's address. -/
theorem addr (hp : Prep cfg env ch ch') (i : Nat) : (ch'.servers i).addr = (ch.servers i).addr := by
  induction hp with
  | refl => rfl
  | openConnection _ _ _ ih =>
    unfold Channel.openConnection Channel.addConnection; dsimp only
    split
    · rw [← ih]; exact addr_update (by rfl) i
    · exact ih
  | advance _ ih | sockState _ _ _ _ ih => exact ih
  | queue _ _ _ ih => rw [← ih]; exact addr_update (by rfl) i

/-- The steps record socket-state notifications and TCP enqueues only. -/
theorem trace (hp : Prep cfg env ch ch') : DispatchTrace ch ch' := by
  induction hp with
  | refl => exact .refl _
  | openConnection _ _ _ ih =>
    unfold Channel.openConnection; dsimp only
    split
    · exact ih.cons (e := .sockState _ true false) trivial
    · exact ih
  | advance _ ih => exact ih
  | queue _ _ _ ih => exact ih.cons (e := .tcpQueued _ _) trivial
  | sockState _ _ _ _ ih => exact ih.cons trivial

/-- A query held by the dispatcher stays held. -/
theorem held {h : QueryId} {q : Query} (hp : Prep cfg env ch ch') (hh : Held cfg ch h q) :
    Held cfg ch' h q :=
  ⟨by rw [hp.queries_eq.1]; exact hh.stored, hh.server_lt, hh.status⟩

end Prep

/-! ## The exits of `ares__send_query` -/

/-- The `ok` exit: after some `Prep` steps, the send is recorded and the query is enqueued on
an open connection of its server, of its transport, and below the UDP quota. Only
`server_info` and the deadline of the query are rewritten on the way. -/
inductive Enqueued (cfg : Config) (env : Env) (ch : Channel) (h : QueryId) (q : Query)
    (cause : Cause) : Channel → Prop
  | mk {ch₁ : Channel} {c : ConnId} {conn : Conn} (si : Nat → ServerInfo) (t : Timeval)
      (linked : Bool) : Prep cfg env ch ch₁ → ch₁.conns c = some conn →
      conn.server = q.server → conn.isTcp = q.usingTcp →
      (conn.isTcp = false → 0 < cfg.udpMaxQueries → conn.totalQueries < cfg.udpMaxQueries) →
      Enqueued cfg env ch h q cause
        ((ch₁.emit (.sent h q.server q.tryCount cause)).enqueueQuery h
          { q with serverInfo := si, timeout := t } c linked)

/-- The `fail` exit: the query is to be ended with a failure status, either before the request
went out, or after its send is recorded, because the skiplist insertion failed and its old
deadline entry is gone. -/
inductive Failed (cfg : Config) (env : Env) (ch : Channel) (h : QueryId) (q : Query)
    (cause : Cause) : Channel → Query → Status → Prop
  | prep {ch₁ : Channel} {st : Status} : Prep cfg env ch ch₁ → st ≠ .success →
      Failed cfg env ch h q cause ch₁ q st
  | arm {ch₁ : Channel} (si : Nat → ServerInfo) (t : Timeval) : Prep cfg env ch ch₁ →
      Failed cfg env ch h q cause
        { (ch₁.emit (.sent h q.server q.tryCount cause)).advance with
          queriesByTimeout := ch₁.queriesByTimeout.erase h }
        { q with serverInfo := si, timeout := t } .enomem

variable {ch ch' : Channel} {h : QueryId} {q q' : Query} {now : Timeval} {cause : Cause}
  {st : Status}

theorem openConnection_cases (env : Env) (ch : Channel) (i : Nat) (tcp : Bool) :
    ch.openConnection env i tcp = (.success, ch.addConnection i tcp) ∨
      ∃ st, st ≠ .success ∧ ch.openConnection env i tcp = (st, ch.advance) := by
  unfold Channel.openConnection; dsimp only
  split
  · exact .inl rfl
  · exact .inr ⟨_, ‹_›, rfl⟩

@[simp] theorem addConnection_conns_self (ch : Channel) (i : Nat) (tcp : Bool) :
    (ch.addConnection i tcp).conns ch.nextConn =
      some { server := i, fd := ch.nextConn, isTcp := tcp, totalQueries := 0 } := by
  simp [Channel.addConnection]

@[simp] theorem addConnection_udp_head (ch : Channel) (i : Nat) :
    ((ch.addConnection i false).servers i).connections.head? = some ch.nextConn := by
  simp [Channel.addConnection]

@[simp] theorem addConnection_tcpConn (ch : Channel) (i : Nat) :
    ((ch.addConnection i true).servers i).tcpConn = some ch.nextConn := by
  simp [Channel.addConnection]

theorem reusableUdp_spec (hw : Wf cfg ch) {s c} (hr : reusableUdp cfg ch s = some c) :
    ∃ conn, ch.conns c = some conn ∧ conn.server = s ∧ conn.isTcp = false ∧
      (0 < cfg.udpMaxQueries → conn.totalQueries < cfg.udpMaxQueries) := by
  unfold reusableUdp at hr
  rcases hl : (ch.servers s).connections with _ | ⟨c', rest⟩
  · simp [hl] at hr
  rcases hc : ch.conns c' with _ | conn
  · simp [hl, hc] at hr
  simp only [hl, hc] at hr
  split_ifs at hr with ht hq
  cases hr
  obtain ⟨conn', hc', hs⟩ := hw.mem_connections.mp (hl ▸ List.mem_cons_self c rest)
  rw [hc] at hc'; cases hc'
  exact ⟨conn, hc, hs, by simpa using ht, fun hp => Nat.lt_of_not_le fun hle => hq ⟨hp, hle⟩⟩

/-- The steps move no TCP stream but the enqueue's. -/
theorem Prep.streams (hp : Prep cfg env ch ch') (hs : Streams ch) : Streams ch' := by
  induction hp with
  | refl => exact hs
  | openConnection _ _ _ ih =>
    rcases openConnection_cases env _ _ _ with ho | ⟨_, -, ho⟩ <;> rw [ho]
    · exact ih.kept (.addConnection _ _ _)
    · exact ih.kept (.of_eq rfl rfl)
  | advance _ ih => exact ih.kept (.of_eq rfl rfl)
  | @queue ch₁ i frame _ ih => exact (ih.kept (.of_eq rfl rfl) : Streams ch₁.advance).queue i frame
  | sockState _ _ _ _ ih => exact ih.kept (.emit trivial)

theorem armAndEnqueue_ok {c} (hs : armAndEnqueue cfg env ch h q c now cause = .ok ch') :
    ∃ t linked, ch' = (ch.emit (.sent h q.server q.tryCount cause)).enqueueQuery h
      { q with timeout := t } c linked := by
  unfold armAndEnqueue at hs
  dsimp only at hs
  split at hs
  · cases hs; exact ⟨_, _, rfl⟩
  · cases hs

theorem armAndEnqueue_fail {c} (hs : armAndEnqueue cfg env ch h q c now cause = .fail ch' q' st) :
    ∃ t, ch' = { (ch.emit (.sent h q.server q.tryCount cause)).advance with
        queriesByTimeout := ch.queriesByTimeout.erase h } ∧
      q' = { q with timeout := t } ∧ st = .enomem := by
  unfold armAndEnqueue at hs
  dsimp only at hs
  split at hs
  · cases hs
  · cases hs; exact ⟨_, rfl, rfl, rfl⟩

theorem armAndEnqueue_ne_retry {c} :
    armAndEnqueue cfg env ch h q c now cause ≠ .retry ch' q' := by
  unfold armAndEnqueue; dsimp only; split <;> simp

theorem Prep.open_eq {ch₁ ch₂ : Channel} {i : Nat} {tcp : Bool} (hp : Prep cfg env ch ch₁)
    (hi : i < cfg.nservers) (ho : ch₁.openConnection env i tcp = (st, ch₂)) :
    Prep cfg env ch ch₂ := by
  have := hp.openConnection tcp hi; rwa [ho] at this

theorem Prep.queueTcp {ch₁ : Channel} (hp : Prep cfg env ch ch₁) (i : Nat) (c : ConnId)
    (frame : Bytes) : Prep cfg env ch (ch₁.queueTcp i c frame) := by
  unfold Channel.queueTcp; dsimp only
  split
  · exact (hp.queue i frame).sockState _ _ _
  · exact hp.queue i frame

@[simp] theorem queueTcp_conns (ch : Channel) (i : Nat) (c : ConnId) (frame : Bytes) :
    (ch.queueTcp i c frame).conns = ch.conns := by
  unfold Channel.queueTcp; dsimp only; split <;> rfl

/-- The TCP enqueue: the server's TCP connection is of the query's server and is TCP. -/
theorem enqueued_tcp {ch₁ : Channel} {c : ConnId} {frame : Bytes} {si : Nat → ServerInfo}
    (hw₁ : Wf cfg ch₁) (hp : Prep cfg env ch ch₁) (hq : q.usingTcp = true)
    (htc : (ch₁.servers q.server).tcpConn = some c)
    (hs : armAndEnqueue cfg env (ch₁.queueTcp q.server c frame) h { q with serverInfo := si } c
      now cause = .ok ch') : Enqueued cfg env ch h q cause ch' := by
  obtain ⟨t, linked, rfl⟩ := armAndEnqueue_ok hs
  obtain ⟨conn, hc, hsrv, htcp⟩ := hw₁.tcp_conn htc
  exact .mk si t linked (hp.queueTcp _ _ _) (by rw [queueTcp_conns]; exact hc) hsrv
    (htcp.trans hq.symm) (by simp [htcp])

theorem sendTcp_ok (hw : Wf cfg ch) (hh : Held cfg ch h q) (hq : q.usingTcp = true)
    (hs : sendTcp cfg env ch h q now cause = .ok ch') : Enqueued cfg env ch h q cause ch' := by
  unfold sendTcp at hs
  rcases htc : (ch.servers q.server).tcpConn with _ | c₀
  · rcases openConnection_cases env ch q.server true with ho | ⟨st, hst, ho⟩
    · simp only [htc, ho, addConnection_tcpConn] at hs
      split at hs
      · exact enqueued_tcp (hw.addConnection hh.server_lt)
          ((Prep.refl ch).open_eq hh.server_lt ho) hq (addConnection_tcpConn _ _) hs
      · cases hs
    · simp only [htc, ho] at hs
      split at hs <;> first | cases hs | exact absurd rfl hst
  · simp only [htc] at hs
    split at hs
    · exact enqueued_tcp hw (.refl ch) hq htc hs
    · cases hs

theorem sendTcp_retry (hh : Held cfg ch h q)
    (hs : sendTcp cfg env ch h q now cause = .retry ch' q') :
    Prep cfg env ch ch' ∧ q' = skipServer cfg q q.server := by
  unfold sendTcp at hs
  rcases htc : (ch.servers q.server).tcpConn with _ | c₀
  · rcases openConnection_cases env ch q.server true with ho | ⟨st, hst, ho⟩
    · simp only [htc, ho, addConnection_tcpConn] at hs
      split at hs
      · exact absurd hs armAndEnqueue_ne_retry
      · cases hs
    · simp only [htc, ho] at hs
      split at hs
      · exact absurd rfl hst
      all_goals first
        | (cases hs; exact ⟨(Prep.refl ch).open_eq hh.server_lt ho, rfl⟩)
        | cases hs
  · simp only [htc] at hs
    split at hs
    · exact absurd hs armAndEnqueue_ne_retry
    · cases hs

theorem sendTcp_fail (hh : Held cfg ch h q)
    (hs : sendTcp cfg env ch h q now cause = .fail ch' q' st) :
    Failed cfg env ch h q cause ch' q' st := by
  unfold sendTcp at hs
  have arm : ∀ {ch₁ c si}, Prep cfg env ch ch₁ →
      armAndEnqueue cfg env (ch₁.queueTcp q.server c (q.tcpbuf.take q.tcplen)) h
        { q with serverInfo := si } c now cause = .fail ch' q' st →
      Failed cfg env ch h q cause ch' q' st := by
    intro ch₁ c si hp hs
    obtain ⟨t, rfl, rfl, rfl⟩ := armAndEnqueue_fail hs
    exact .arm si t (hp.queueTcp _ _ _)
  rcases htc : (ch.servers q.server).tcpConn with _ | c₀
  · rcases openConnection_cases env ch q.server true with ho | ⟨st', hst, ho⟩
    · have hp := (Prep.refl ch).open_eq hh.server_lt ho
      simp only [htc, ho, addConnection_tcpConn] at hs
      split at hs
      · exact arm hp hs
      · cases hs; exact .prep hp.advance (by decide)
    · have hp := (Prep.refl ch).open_eq hh.server_lt ho
      simp only [htc, ho] at hs
      split at hs
      · exact absurd rfl hst
      all_goals first
        | (cases hs; exact .prep hp hst)
        | cases hs
  · simp only [htc] at hs
    split at hs
    · exact arm (.refl ch) hs
    · cases hs; exact .prep (Prep.refl ch).advance (by decide)

/-- The UDP connection `ares__send_query` writes on, after its `Prep` steps. -/
def UdpTarget (cfg : Config) (env : Env) (ch : Channel) (q : Query) (ch₁ : Channel)
    (c : ConnId) : Prop :=
  Prep cfg env ch ch₁ ∧ ∃ conn, ch₁.conns c = some conn ∧ conn.server = q.server ∧
    conn.isTcp = false ∧ (0 < cfg.udpMaxQueries → conn.totalQueries < cfg.udpMaxQueries)

/-- The UDP branch with a connection to reuse writes on it. -/
theorem sendUdp_reuse {c : ConnId} (hr : reusableUdp cfg ch q.server = some c) (now : Timeval)
    (cause : Cause) :
    sendUdp cfg env ch h q now cause =
      if env.udpWrite ch.tick then armAndEnqueue cfg env ch.advance h q c now cause
      else .retry ch.advance (skipServer cfg q q.server) := by
  unfold sendUdp; rw [hr]

/-- The UDP branch with no connection to reuse opens one and writes on it, or reports why the
open failed. -/
theorem sendUdp_open (hr : reusableUdp cfg ch q.server = none) (now : Timeval) (cause : Cause) :
    (ch.openConnection env q.server false = (.success, ch.addConnection q.server false) ∧
      sendUdp cfg env ch h q now cause =
        if env.udpWrite (ch.addConnection q.server false).tick then
          armAndEnqueue cfg env (ch.addConnection q.server false).advance h q ch.nextConn now cause
        else .retry (ch.addConnection q.server false).advance (skipServer cfg q q.server)) ∨
    ∃ st, st ≠ .success ∧ ch.openConnection env q.server false = (st, ch.advance) ∧
      sendUdp cfg env ch h q now cause =
        if st = .econnrefused ∨ st = .ebadfamily then .retry ch.advance (skipServer cfg q q.server)
        else .fail ch.advance q st := by
  unfold sendUdp
  rw [hr]
  rcases openConnection_cases env ch q.server false with ho | ⟨st, hst, ho⟩
  · exact .inl ⟨ho, by simp only [ho, addConnection_udp_head]⟩
  · refine .inr ⟨st, hst, ho, ?_⟩
    simp only [ho]
    cases st <;> first | exact absurd rfl hst | rfl

/-- Where the UDP branch writes: the reusable connection, or the one just opened. -/
theorem sendUdp_eq (now : Timeval) (cause : Cause) (hw : Wf cfg ch) (hh : Held cfg ch h q) :
    (∃ ch₁ c, UdpTarget cfg env ch q ch₁ c ∧ sendUdp cfg env ch h q now cause =
      if env.udpWrite ch₁.tick then armAndEnqueue cfg env ch₁.advance h q c now cause
      else .retry ch₁.advance (skipServer cfg q q.server)) ∨
    (∃ st : Status, st ≠ .success ∧ sendUdp cfg env ch h q now cause =
      if st = .econnrefused ∨ st = .ebadfamily then .retry ch.advance (skipServer cfg q q.server)
      else .fail ch.advance q st) := by
  rcases hr : reusableUdp cfg ch q.server with _ | c
  · rcases sendUdp_open hr now cause with ⟨ho, he⟩ | ⟨st, hst, -, he⟩
    · exact .inl ⟨_, ch.nextConn, ⟨(Prep.refl ch).open_eq hh.server_lt ho, _,
        addConnection_conns_self _ _ _, rfl, rfl, id⟩, he⟩
    · exact .inr ⟨st, hst, he⟩
  · obtain ⟨conn, hc, hs, ht, hquota⟩ := reusableUdp_spec hw hr
    exact .inl ⟨ch, c, ⟨.refl ch, conn, hc, hs, ht, hquota⟩, sendUdp_reuse hr now cause⟩

theorem sendUdp_ok (hw : Wf cfg ch) (hh : Held cfg ch h q) (hq : q.usingTcp = false)
    (hs : sendUdp cfg env ch h q now cause = .ok ch') : Enqueued cfg env ch h q cause ch' := by
  rcases sendUdp_eq now cause hw hh with
    ⟨ch₁, c, ⟨hp, conn, hc, hsrv, ht, hquota⟩, he⟩ | ⟨st, -, he⟩ <;> rw [he] at hs
  · split at hs
    · obtain ⟨t, linked, rfl⟩ := armAndEnqueue_ok hs
      exact .mk q.serverInfo t linked hp.advance hc hsrv (ht.trans hq.symm) fun _ => hquota
    · cases hs
  · split at hs <;> cases hs

theorem sendUdp_retry (hw : Wf cfg ch) (hh : Held cfg ch h q)
    (hs : sendUdp cfg env ch h q now cause = .retry ch' q') :
    Prep cfg env ch ch' ∧ q' = skipServer cfg q q.server := by
  rcases sendUdp_eq now cause hw hh with
    ⟨ch₁, c, ⟨hp, -⟩, he⟩ | ⟨st, -, he⟩ <;> rw [he] at hs
  · split at hs
    · exact absurd hs armAndEnqueue_ne_retry
    · cases hs; exact ⟨hp.advance, rfl⟩
  · split at hs <;> first | (cases hs; exact ⟨(Prep.refl ch).advance, rfl⟩) | cases hs

theorem sendUdp_fail (hw : Wf cfg ch) (hh : Held cfg ch h q)
    (hs : sendUdp cfg env ch h q now cause = .fail ch' q' st) :
    Failed cfg env ch h q cause ch' q' st := by
  rcases sendUdp_eq now cause hw hh with
    ⟨ch₁, c, ⟨hp, -⟩, he⟩ | ⟨st', hst, he⟩ <;> rw [he] at hs
  · split at hs
    · obtain ⟨t, rfl, rfl, rfl⟩ := armAndEnqueue_fail hs
      exact .arm q.serverInfo t hp.advance
    · cases hs
  · split at hs <;> first | (cases hs; exact .prep (Prep.refl ch).advance hst) | cases hs

/-! ## `sendAttempt` -/

theorem sendAttempt_ok (hw : Wf cfg ch) (hh : Held cfg ch h q)
    (hs : sendAttempt cfg env ch h q now cause = .ok ch') : Enqueued cfg env ch h q cause ch' := by
  unfold sendAttempt at hs
  split at hs
  · exact sendTcp_ok hw hh ‹_› hs
  · exact sendUdp_ok hw hh (Bool.eq_false_iff.mpr ‹_›) hs

theorem sendAttempt_retry (hw : Wf cfg ch) (hh : Held cfg ch h q)
    (hs : sendAttempt cfg env ch h q now cause = .retry ch' q') :
    Prep cfg env ch ch' ∧ q' = skipServer cfg q q.server := by
  unfold sendAttempt at hs
  split at hs
  · exact sendTcp_retry hh hs
  · exact sendUdp_retry hw hh hs

theorem sendAttempt_fail (hw : Wf cfg ch) (hh : Held cfg ch h q)
    (hs : sendAttempt cfg env ch h q now cause = .fail ch' q' st) :
    Failed cfg env ch h q cause ch' q' st := by
  unfold sendAttempt at hs
  split at hs
  · exact sendTcp_fail hh hs
  · exact sendUdp_fail hw hh hs

/-! ## A whole dispatch -/

/-- What a dispatch of query `h` leaves alone: every other query's record, every open
connection, the lists of closed connections (which only lose entries), the other queries'
deadline entries, and the TCP streams (it only enqueues). -/
structure Frame (h : QueryId) (ch ch' : Channel) : Prop where
  others : ∀ {h'}, h' ≠ h → ch'.queries h' = ch.queries h'
  conns_open : ∀ {c conn}, ch.conns c = some conn →
    ∃ conn', ch'.conns c = some conn' ∧ conn'.server = conn.server ∧ conn'.isTcp = conn.isTcp
  nextConn_le : ch.nextConn ≤ ch'.nextConn
  conns_closed : ∀ {c}, ch.conns c = none → c < ch.nextConn → ch'.conns c = none
  closed_lists : ∀ {c h'}, ch'.conns c = none → h' ∈ ch'.connQueries c → h' ∈ ch.connQueries c
  slist : ∀ {h'}, h' ∈ ch.queriesByTimeout → h' ≠ h → h' ∈ ch'.queriesByTimeout
  trace : DispatchTrace ch ch'
  addr : ∀ i, (ch'.servers i).addr = (ch.servers i).addr
  streams : Streams ch → Streams ch'

/-- Where a dispatch leaves query `h`: ended, or with a deadline entry and on no list but
that of an open connection. -/
def Settled (h : QueryId) (ch : Channel) : Prop :=
  ∀ q, ch.queries h = some q →
    h ∈ ch.queriesByTimeout ∧ ∀ {c}, q.nodeQueriesToConn = some c → (ch.conns c).isSome

theorem countQuery_of_eq_some {f : ConnId → Option Conn} {c c' : ConnId} {conn : Conn}
    (hc : f c' = some conn) : ∃ conn', update f c ((f c).map Conn.countQuery) c' = some conn' ∧
      conn'.server = conn.server ∧ conn'.isTcp = conn.isTcp := by
  by_cases e : c' = c
  · subst e; exact ⟨conn.countQuery, by simp [hc], rfl, rfl⟩
  · exact ⟨conn, by rw [update_noteq e]; exact hc, rfl, rfl⟩

theorem Frame.isSome (f : Frame h ch ch') {c : ConnId} (hc : (ch.conns c).isSome) :
    (ch'.conns c).isSome := by
  obtain ⟨conn, hconn⟩ := Option.isSome_iff_exists.mp hc
  obtain ⟨_, h', -⟩ := f.conns_open hconn
  simp [h']

theorem Frame.refl (h : QueryId) (ch : Channel) : Frame h ch ch :=
  ⟨fun _ => rfl, fun hc => ⟨_, hc, rfl, rfl⟩, Nat.le_refl _, fun hc _ => hc, fun _ hm => hm,
    fun hm _ => hm, .refl ch, fun _ => rfl, id⟩

theorem Frame.trans {ch₁ ch₂ : Channel} (f₁ : Frame h ch ch₁) (f₂ : Frame h ch₁ ch₂) :
    Frame h ch ch₂ where
  others hne := (f₂.others hne).trans (f₁.others hne)
  conns_open hc :=
    let ⟨_, h₁, s₁, t₁⟩ := f₁.conns_open hc
    let ⟨conn₂, h₂, s₂, t₂⟩ := f₂.conns_open h₁
    ⟨conn₂, h₂, s₂.trans s₁, t₂.trans t₁⟩
  nextConn_le := Nat.le_trans f₁.nextConn_le f₂.nextConn_le
  conns_closed hc hlt :=
    f₂.conns_closed (f₁.conns_closed hc hlt) (Nat.lt_of_lt_of_le hlt f₁.nextConn_le)
  closed_lists := fun {c _} hc hm => by
    have hc₁ : ch₁.conns c = none := by
      rcases hs : ch₁.conns c with _ | conn
      · rfl
      · obtain ⟨_, h₂, -⟩ := f₂.conns_open hs
        rw [hc] at h₂; cases h₂
    exact f₁.closed_lists hc₁ (f₂.closed_lists hc hm)
  slist hm hne := f₂.slist (f₁.slist hm hne) hne
  trace := f₁.trace.trans f₂.trace
  addr i := (f₂.addr i).trans (f₁.addr i)
  streams hs := f₂.streams (f₁.streams hs)

theorem Prep.frame (hp : Prep cfg env ch ch') (hw : Wf cfg ch) : Frame h ch ch' := by
  obtain ⟨hq, -, -, hs, -⟩ := hp.queries_eq
  obtain ⟨hl, hn, hc⟩ := hp.conns_eq hw
  exact ⟨by simp [hq], fun h => ⟨_, (hp.conns_of_isSome hw (by simp [h])).trans h, rfl, rfl⟩, hn,
    fun hnone hlt => (hc hlt).trans hnone, by simp [hl], fun hm _ => hs ▸ hm, hp.trace, hp.addr,
    hp.streams⟩

/-- A held query may change everything but its id, its list node and its validity. -/
theorem Held.congr (hh : Held cfg ch h q) (hqid : q'.qid = q.qid)
    (hnode : q'.nodeQueriesToConn = q.nodeQueriesToConn) (hsrv : q'.server < cfg.nservers)
    (hst : q'.errorStatus ≠ .success) : Held cfg ch h q' := by
  obtain ⟨⟨q₀, hq₀, h1, h2⟩, -, -⟩ := hh
  exact ⟨⟨q₀, hq₀, h1.trans hqid.symm, h2.trans hnode.symm⟩, hsrv, hst⟩

theorem Held.skip (hh : Held cfg ch h q) (s : Nat) :
    Held cfg ch h (skipServer cfg q s) := by
  unfold skipServer; split
  · exact hh.congr rfl rfl hh.server_lt hh.status
  · exact hh

/-- The pieces of a dispatch's outcome: the invariant, the frame, and where `h` is left. -/
def Post (cfg : Config) (h : QueryId) (ch ch' : Channel) : Prop :=
  Wf cfg ch' ∧ Frame h ch ch' ∧ Settled h ch'

theorem Post.prep {ch₁ : Channel} (hw : Wf cfg ch) (hp : Prep cfg env ch ch₁)
    (hpost : Post cfg h ch₁ ch') : Post cfg h ch ch' :=
  ⟨hpost.1, (hp.frame hw).trans hpost.2.1, hpost.2.2⟩

/-- Ending a query with a failure touches nothing else. -/
theorem frame_endQuery (ch : Channel) (h : QueryId) (q : Query) {st : Status}
    (hst : st ≠ .success) : Frame h ch (ch.endQuery h q st none) := by
  rw [Channel.endQuery_eq]
  refine ⟨fun hne => update_noteq hne _ _, fun hc => ⟨_, hc, rfl, rfl⟩, Nat.le_refl _,
    fun hc _ => hc, fun _ hm => ?_, fun hm hne => (List.mem_erase_of_ne hne).mpr hm,
    (DispatchTrace.refl ch).cons (e := .callback h st q.timeouts none) ⟨hst, rfl⟩, fun _ => rfl,
    fun hs => hs.kept (.of_cons (by trivial) rfl rfl)⟩
  dsimp only at hm
  rw [connListErase_apply] at hm; split at hm
  · exact List.mem_of_mem_erase hm
  · exact hm

theorem settled_endQuery (ch : Channel) (h : QueryId) (q : Query) (st : Status)
    (a : Option Bytes) : Settled h (ch.endQuery h q st a) := fun _ hq => by
  simp [Channel.endQuery_eq] at hq

theorem post_endQuery (hw : Wf cfg ch) (hh : Held cfg ch h q) (hst : st ≠ .success) :
    Post cfg h ch (ch.endQuery h q st none) :=
  ⟨hw.endQuery hh (.inr ⟨hst, rfl⟩), frame_endQuery ch h q hst, settled_endQuery ch h q st none⟩

theorem post_enqueued (hw : Wf cfg ch) (hh : Held cfg ch h q)
    (he : Enqueued cfg env ch h q cause ch') : Post cfg h ch ch' := by
  cases he with
  | @mk ch₁ c conn si t linked hp hc hsrv htcp hquota =>
  have hw₁ := hp.wf hw
  have hh₁ : Held cfg ch₁ h { q with serverInfo := si, timeout := t } :=
    (hp.held hh).congr rfl rfl hh.server_lt hh.status
  have hw₂ := hw₁.emit (e := .sent h q.server q.tryCount cause) Wf.benign_sent
  refine Post.prep hw hp ⟨hw₂.enqueueQuery ⟨hh₁.stored, hh₁.server_lt, hh₁.status⟩ hc hsrv hquota,
    ?_, ?_⟩ <;>
    unfold Channel.enqueueQuery <;> dsimp only
  · refine ⟨fun hne => update_noteq hne _ _, countQuery_of_eq_some,
      Nat.le_refl _, fun {c'} hc' _ => ?_, fun {c' _} hc' hm => ?_, fun hm hne => ?_,
      (DispatchTrace.refl _).cons (e := .sent h q.server q.tryCount cause) trivial, fun _ => rfl,
      fun hs => hs.kept (.of_cons (by trivial) rfl rfl)⟩
    · dsimp only
      by_cases e : c' = c
      · subst e; rw [hc] at hc'; cases hc'
      · rw [update_noteq e]; exact hc'
    · dsimp only at hc' hm
      have hne : c' ≠ c := by rintro rfl; simp [hc] at hc'
      split at hm
      · rw [update_noteq hne] at hm
        rw [connListErase_apply] at hm; split at hm
        · exact List.mem_of_mem_erase hm
        · exact hm
      · rw [connListErase_apply] at hm; split at hm
        · exact List.mem_of_mem_erase hm
        · exact hm
    · exact (mem_insertByTimeout _ _ _ _ _).mpr (.inr ((List.mem_erase_of_ne hne).mpr hm))
  · intro q' hq'
    dsimp only at hq' ⊢
    rw [update_same] at hq'; cases hq'
    refine ⟨(mem_insertByTimeout _ _ _ _ _).mpr (.inl rfl), fun hn => ?_⟩
    dsimp only at hn; split at hn
    · cases hn; simp [hc]
    · cases hn

theorem Wf.eraseSlist (hw : Wf cfg ch) :
    Wf cfg { ch with queriesByTimeout := ch.queriesByTimeout.erase h } :=
  { hw with
    slist_nodup := hw.slist_nodup.erase h
    slist_live := fun hm => hw.slist_live (List.mem_of_mem_erase hm) }

theorem post_failed {ch₁ : Channel} (hw : Wf cfg ch) (hh : Held cfg ch h q)
    (hf : Failed cfg env ch h q cause ch₁ q' st) : Post cfg h ch (ch₁.endQuery h q' st none) := by
  cases hf with
  | prep hp hst => exact Post.prep hw hp (post_endQuery (hp.wf hw) (hp.held hh) hst)
  | @arm ch₂ si t hp =>
    have fe : Frame h ch₂ { (ch₂.emit (.sent h q.server q.tryCount cause)).advance with
        queriesByTimeout := ch₂.queriesByTimeout.erase h } :=
      ⟨fun _ => rfl, fun hc => ⟨_, hc, rfl, rfl⟩, Nat.le_refl _, fun hc _ => hc, fun _ hm => hm,
        fun hm hne => (List.mem_erase_of_ne hne).mpr hm, (DispatchTrace.refl ch₂).cons trivial,
        fun _ => rfl, fun hs => hs.kept (.of_cons (by trivial) rfl rfl)⟩
    have hw₃ := ((hp.wf hw).emit (e := .sent h q.server q.tryCount cause) Wf.benign_sent).advance
    have hh' : Held cfg ch₂ h { q with serverInfo := si, timeout := t } :=
      (hp.held hh).congr rfl rfl hh.server_lt hh.status
    have hpost := post_endQuery (hw₃.eraseSlist (h := h)) ⟨hh'.stored, hh'.server_lt, hh'.status⟩
      (by decide : Status.enomem ≠ .success)
    exact Post.prep hw hp ⟨hpost.1, fe.trans hpost.2.1, hpost.2.2⟩

/-- One round of `next_server` keeps the query held: the server index stays in range. -/
theorem Held.round (hh : Held cfg ch h q) :
    Held cfg ch h
      { q with tryCount := q.tryCount + 1, server := (q.server + 1) % cfg.nservers } :=
  hh.congr rfl rfl (Nat.mod_lt _ cfg.nservers_pos) hh.status

theorem Held.incr (hh : Held cfg ch h q) :
    Held cfg ch h { q with tryCount := q.tryCount + 1 } :=
  hh.congr rfl rfl hh.server_lt hh.status

/-- `next_server`'s loop keeps the invariant, touches no other query, and leaves the query
ended or enqueued. -/
theorem nextServerLoop_post : ∀ (k : Nat) {ch : Channel} {q : Query}, Wf cfg ch →
    Held cfg ch h q → Post cfg h ch (nextServerLoop cfg env h now k ch q)
  | k + 2, ch, q, hw, hh => by
    rw [nextServerLoop]; dsimp only
    split
    · exact post_endQuery hw hh.incr hh.status
    · split
      · split
        · exact post_enqueued hw hh.round (sendAttempt_ok hw hh.round ‹_›)
        · obtain ⟨hp, rfl⟩ := sendAttempt_retry hw hh.round ‹_›
          exact Post.prep hw hp (nextServerLoop_post (k + 1) (hp.wf hw) ((hp.held hh.round).skip _))
        · exact post_failed hw hh.round (sendAttempt_fail hw hh.round ‹_›)
      · exact nextServerLoop_post (k + 1) hw hh.round
  | 0, _, _, hw, hh | 1, _, _, hw, hh => post_endQuery hw hh.incr hh.status

theorem nextServer_post (hw : Wf cfg ch) (hh : Held cfg ch h q) :
    Post cfg h ch (nextServer cfg env ch h q now) :=
  nextServerLoop_post _ hw hh

theorem aresSendQuery_post (hw : Wf cfg ch) (hh : Held cfg ch h q) :
    Post cfg h ch (aresSendQuery cfg env ch h q now cause) := by
  unfold aresSendQuery
  split
  · exact post_enqueued hw hh (sendAttempt_ok hw hh ‹_›)
  · obtain ⟨hp, rfl⟩ := sendAttempt_retry hw hh ‹_›
    exact Post.prep hw hp (nextServer_post (hp.wf hw) ((hp.held hh).skip _))
  · exact post_failed hw hh (sendAttempt_fail hw hh ‹_›)

end CAres
