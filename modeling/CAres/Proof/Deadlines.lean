import CAres.Proof.Run

/-! # The deadline order of `queries_by_timeout`

`queries_by_timeout` is in the order of `ares_query_timeout_cmp_cb` on the queries' deadlines
(`SlistSorted`). Only a dispatch moves an entry: `end_query` and a failed arming drop the
query's entry, and a send drops it and inserts it again at the new deadline (`Rearmed`); a
dispatch leaves every other query's record alone (`Frame.others`), and no other step touches an
entry or a deadline. The insertion goes before the first entry that is not earlier, so the
order survives every step, and every reachable state is sorted (`Reachable.slistSorted`). -/

namespace CAres

open Function

/-! ## The comparator -/

theorem timeoutCmp_nonpos_iff {a b : Timeval} :
    timeoutCmp a b ≤ 0 ↔ a.sec < b.sec ∨ a.sec = b.sec ∧ a.usec ≤ b.usec := by
  unfold timeoutCmp; split_ifs <;> omega

theorem timeoutCmp_trans {a b c : Timeval} (h₁ : timeoutCmp a b ≤ 0) (h₂ : timeoutCmp b c ≤ 0) :
    timeoutCmp a c ≤ 0 := by
  rw [timeoutCmp_nonpos_iff] at *; omega

theorem timeoutCmp_swap {a b : Timeval} (h : ¬timeoutCmp a b ≤ 0) : timeoutCmp b a ≤ 0 := by
  rw [timeoutCmp_nonpos_iff] at *; omega

/-- `ares__timedout(now, d)` holds exactly when `ares_query_timeout_cmp_cb` puts `d` at or
before `now`. -/
theorem aresTimedout_iff {now d : Timeval} :
    aresTimedout now d = true ↔ timeoutCmp d now ≤ 0 := by
  rw [timeoutCmp_nonpos_iff]; unfold aresTimedout; dsimp only; split_ifs <;> simp <;> omega

/-! ## Sorted lists of queries -/

/-- The deadline of query `h`, if it is live. -/
def Channel.deadline (ch : Channel) (h : QueryId) : Option Timeval :=
  (ch.queries h).map Query.timeout

/-- `a`'s deadline is not after `b`'s, when both are live. -/
def DeadlineLe (d : QueryId → Option Timeval) (a b : QueryId) : Prop :=
  ∀ ta tb, d a = some ta → d b = some tb → timeoutCmp ta tb ≤ 0

/-- `queries_by_timeout` is in deadline order. -/
def SlistSorted (ch : Channel) : Prop := ch.queriesByTimeout.Pairwise (DeadlineLe ch.deadline)

/-- The order of a list survives a change of deadlines that keeps those of its entries. -/
theorem DeadlineLe.congr {d d' : QueryId → Option Timeval} {l : List QueryId}
    (hp : l.Pairwise (DeadlineLe d)) (hd : ∀ x ∈ l, d' x = d x) :
    l.Pairwise (DeadlineLe d') :=
  hp.imp_of_mem fun ha hb hle ta tb hta htb =>
    hle ta tb ((hd _ ha).symm.trans hta) ((hd _ hb).symm.trans htb)

/-- Inserting `h` at deadline `t` before the first entry that is not earlier keeps the order,
for the deadlines `d` that give `h` the deadline `t` and the others those of `Q`. -/
theorem insertByTimeout_sorted {Q : QueryId → Option Query} {d : QueryId → Option Timeval}
    {h : QueryId} {t : Timeval} (hd : ∀ x, x ≠ h → d x = (Q x).map Query.timeout)
    (ht : d h = some t) :
    ∀ {l : List QueryId}, h ∉ l → l.Pairwise (DeadlineLe d) →
      (insertByTimeout Q h t l).Pairwise (DeadlineLe d)
  | [], _, _ => List.pairwise_singleton _ _
  | x :: rest, hn, hp => by
    have hx : x ≠ h := fun e => hn (e ▸ List.mem_cons_self _ _)
    obtain ⟨hxr, hpr⟩ := List.pairwise_cons.mp hp
    have ih := insertByTimeout_sorted hd ht (fun hm => hn (List.mem_cons_of_mem _ hm)) hpr
    unfold insertByTimeout
    split
    · rename_i q' hq'
      have hdx : d x = some q'.timeout := by rw [hd x hx, hq']; rfl
      split
      · rename_i hlt
        refine List.pairwise_cons.mpr ⟨fun y hy => ?_, ih⟩
        rcases (mem_insertByTimeout _ _ _ _ _).mp hy with rfl | hy
        · intro ta tb ha hb
          rw [hdx] at ha; rw [ht] at hb; cases ha; cases hb
          exact timeoutCmp_swap (by omega)
        · exact hxr y hy
      · rename_i hle
        have hle : timeoutCmp t q'.timeout ≤ 0 := by omega
        refine List.pairwise_cons.mpr ⟨fun y hy ta tb ha hb => ?_, hp⟩
        rw [ht] at ha; cases ha
        rcases List.mem_cons.mp hy with rfl | hy
        · rw [hdx] at hb; cases hb; exact hle
        · exact timeoutCmp_trans hle (hxr y hy _ _ hdx hb)
    · rename_i hq'
      refine List.pairwise_cons.mpr ⟨fun y _ ta tb ha _ => ?_, ih⟩
      rw [hd x hx, hq'] at ha; cases ha

/-! ## What a dispatch does to the list -/

/-- What a dispatch of `h` does to `queries_by_timeout`: it drops the entry of `h`, and, if the
query is still live, inserts it again at the deadline of its record. -/
def Rearmed (h : QueryId) (ch ch' : Channel) : Prop :=
  ch'.queries h = none ∧ ch'.queriesByTimeout = ch.queriesByTimeout.erase h ∨
    ∃ q', ch'.queries h = some q' ∧
      ch'.queriesByTimeout = insertByTimeout ch.queries h q'.timeout (ch.queriesByTimeout.erase h)

variable {cfg : Config} {env : Env} {ch ch' : Channel} {h : QueryId} {q : Query}
  {now : Timeval} {cause : Cause}

/-- A dispatch keeps the order: the other entries keep their deadlines, and the entry of `h`
is dropped or inserted in place. -/
theorem SlistSorted.dispatch (hs : SlistSorted ch) (hw : Wf cfg ch)
    (ho : ∀ {x}, x ≠ h → ch'.queries x = ch.queries x) (hr : Rearmed h ch ch') :
    SlistSorted ch' := by
  have hn : h ∉ ch.queriesByTimeout.erase h := hw.slist_nodup.not_mem_erase
  have hd : ∀ x ∈ ch.queriesByTimeout.erase h, ch'.deadline x = ch.deadline x := fun x hx => by
    simp only [Channel.deadline, ho (fun e : x = h => hn (e ▸ hx))]
  have he := DeadlineLe.congr (hs.sublist (List.erase_sublist h _)) hd
  unfold SlistSorted
  rcases hr with ⟨-, hl⟩ | ⟨q', hq', hl⟩
  · rw [hl]; exact he
  · rw [hl]
    exact insertByTimeout_sorted (fun x hx => by simp only [Channel.deadline, ho hx])
      (by simp [Channel.deadline, hq']) hn he

theorem Rearmed.endQuery (ch : Channel) (h : QueryId) (q : Query) (st : Status)
    (a : Option Bytes) : Rearmed h ch (ch.endQuery h q st a) :=
  .inl ⟨endQuery_queries_self .., by rw [Channel.endQuery_eq]⟩

theorem Rearmed.prep {ch₁ : Channel} (hp : Prep cfg env ch ch₁) (hr : Rearmed h ch₁ ch') :
    Rearmed h ch ch' := by
  obtain ⟨hq, -, -, hl, -⟩ := hp.queries_eq
  rwa [Rearmed, hq, hl] at hr

theorem Enqueued.rearmed (he : Enqueued cfg env ch h q cause ch') : Rearmed h ch ch' := by
  cases he with
  | mk si t linked hp =>
    exact Rearmed.prep hp (.inr ⟨_, by simp [Channel.enqueueQuery], rfl⟩)

theorem Failed.rearmed {ch₁ : Channel} {q' : Query} {st : Status} (hw : Wf cfg ch)
    (hf : Failed cfg env ch h q cause ch₁ q' st) : Rearmed h ch (ch₁.endQuery h q' st none) := by
  cases hf with
  | prep hp _ => exact Rearmed.prep hp (.endQuery ..)
  | @arm ch₂ si t hp =>
    refine Rearmed.prep hp (.inl ⟨endQuery_queries_self .., ?_⟩)
    rw [Channel.endQuery_eq]
    exact List.erase_of_not_mem ((hp.queries_eq.2.2.2.1 ▸ hw.slist_nodup).not_mem_erase)

/-- `next_server`'s loop rearms the query. -/
theorem nextServerLoop_rearmed : ∀ (k : Nat) {ch : Channel} {q : Query}, Wf cfg ch →
    Held cfg ch h q → Rearmed h ch (nextServerLoop cfg env h now k ch q)
  | k + 2, ch, q, hw, hh => by
    rw [nextServerLoop]; dsimp only
    split
    · exact .endQuery ..
    · split
      · split
        · exact (sendAttempt_ok hw hh.round ‹_›).rearmed
        · obtain ⟨hp, rfl⟩ := sendAttempt_retry hw hh.round ‹_›
          exact .prep hp (nextServerLoop_rearmed (k + 1) (hp.wf hw) ((hp.held hh.round).skip _))
        · exact (sendAttempt_fail hw hh.round ‹_›).rearmed hw
      · exact nextServerLoop_rearmed (k + 1) hw hh.round
  | 0, _, _, _, _ | 1, _, _, _, _ => .endQuery ..

theorem aresSendQuery_rearmed (hw : Wf cfg ch) (hh : Held cfg ch h q) :
    Rearmed h ch (aresSendQuery cfg env ch h q now cause) := by
  unfold aresSendQuery
  split
  · exact (sendAttempt_ok hw hh ‹_›).rearmed
  · obtain ⟨hp, rfl⟩ := sendAttempt_retry hw hh ‹_›
    exact .prep hp (nextServerLoop_rearmed _ (hp.wf hw) ((hp.held hh).skip _))
  · exact (sendAttempt_fail hw hh ‹_›).rearmed hw

/-! ## Every step keeps the order -/

namespace SlistSorted

variable {c : ConnId} {conn : Conn} {fd : Nat} {st : Status} {a : Option Bytes}

/-- A step that keeps every record and the list. -/
theorem of_eq (hs : SlistSorted ch) (hq : ch'.queries = ch.queries)
    (hl : ch'.queriesByTimeout = ch.queriesByTimeout) : SlistSorted ch' := by
  have hd : ch'.deadline = ch.deadline := funext fun x => by simp only [Channel.deadline, hq]
  unfold SlistSorted; rw [hd, hl]; exact hs

@[simp] theorem checkCleanupConn_queriesByTimeout (ch : Channel) (fd : Nat) :
    (ch.checkCleanupConn cfg fd).queriesByTimeout = ch.queriesByTimeout := by
  unfold Channel.checkCleanupConn
  split
  · rfl
  · split
    · rfl
    · split <;> rfl

theorem checkCleanupConn (hs : SlistSorted ch) : SlistSorted (ch.checkCleanupConn cfg fd) :=
  hs.of_eq (checkCleanupConn_queries ..) (checkCleanupConn_queriesByTimeout ..)

/-- Rewriting a live record without moving its deadline. -/
theorem setQuery (hs : SlistSorted ch) {q₀ : Query} (hq : ch.queries h = some q₀)
    (ht : q.timeout = q₀.timeout) : SlistSorted (ch.setQuery h q) := by
  have hd : (ch.setQuery h q).deadline = ch.deadline := funext fun x => by
    by_cases e : x = h
    · subst e; simp [Channel.deadline, hq, ht]
    · simp [Channel.deadline, update_noteq e]
  unfold SlistSorted; rw [hd]; exact hs

theorem endQuery (hw : Wf cfg ch) (hs : SlistSorted ch) : SlistSorted (ch.endQuery h q st a) :=
  hs.dispatch hw (fun hx => by rw [Channel.endQuery_eq]; exact update_noteq hx _ _)
    (.endQuery ..)

theorem nextServer (hw : Wf cfg ch) (hs : SlistSorted ch) (hh : Held cfg ch h q) :
    SlistSorted (CAres.nextServer cfg env ch h q now) :=
  hs.dispatch hw (nextServer_post hw hh).2.1.others (nextServerLoop_rearmed _ hw hh)

theorem sendQuery (hw : Wf cfg ch) (hs : SlistSorted ch) (hh : Held cfg ch h q) :
    SlistSorted (aresSendQuery cfg env ch h q now cause) :=
  hs.dispatch hw (aresSendQuery_post hw hh).2.1.others (aresSendQuery_rearmed hw hh)

theorem answerBranches (hw : Wf cfg ch) (hs : SlistSorted ch) (hq : ch.queries h = some q)
    {abuf : Bytes} {rec : DnsRecord} {server : Nat} {tcp : Bool} :
    SlistSorted (CAres.answerBranches cfg env ch abuf rec server fd tcp h q now) := by
  have hh := Held.of_stored hw hq
  unfold CAres.answerBranches
  dsimp only
  split_ifs
  · exact SlistSorted.checkCleanupConn (sendQuery { hw with } hs ⟨hh.stored, hh.server_lt,
      hh.status⟩)
  · exact hs
  · exact hs.checkCleanupConn
  · exact (hs.sendQuery hw (hh.congr rfl rfl hh.server_lt hh.status :
      Held cfg ch h { q with usingTcp := true })).checkCleanupConn
  · exact (hs.nextServer hw ((hh.congr rfl rfl hh.server_lt (Inv.rcodeStatus_ne _) :
      Held cfg ch h { q with errorStatus := rcodeStatus rec.rcode }).skip _)).checkCleanupConn
  · exact (hs.setQuery hq (by unfold skipServer; split <;> rfl)).checkCleanupConn
  · exact (hs.endQuery hw).checkCleanupConn

/-- Taking a query off its connection's list, as `process_answer` does. -/
theorem detach (hs : SlistSorted ch) (hq : ch.queries h = some q) :
    SlistSorted ({ ch with connQueries := connListErase ch.connQueries q.nodeQueriesToConn h
      }.setQuery h { q with nodeQueriesToConn := none }) :=
  setQuery (hs : SlistSorted { ch with
    connQueries := connListErase ch.connQueries q.nodeQueriesToConn h }) hq rfl

theorem processAnswer (hw : Wf cfg ch) (hs : SlistSorted ch) {abuf : Bytes} {tcp : Bool} :
    SlistSorted (CAres.processAnswer cfg env ch abuf c tcp now) := by
  have hw₀ := hw.emit (e := .answered c abuf tcp) Inv.benign_answered
  have hs₀ : SlistSorted (ch.emit (.answered c abuf tcp)) := hs
  unfold CAres.processAnswer
  dsimp only
  split
  · exact hs
  split
  · exact hs
  split
  · exact hs
  rename_i h _
  split
  · exact hs
  rename_i q hq
  split
  · exact answerBranches (hw₀.detachConn hq) (hs₀.detach hq) (by simp)
  · exact hs

end SlistSorted

/-- The drain of `handle_error` keeps the order. -/
theorem handleErrorLoop_sorted {c : ConnId} {server : Nat} :
    ∀ (fuel : Nat) {ch : Channel}, Draining cfg c server ch → SlistSorted ch →
      SlistSorted (handleErrorLoop cfg env c server now fuel ch)
  | 0, _, _, hs => by rw [handleErrorLoop]; exact hs
  | fuel + 1, ch, hd, hs => by
    rw [handleErrorLoop]
    split
    · exact hs
    rename_i h tail hlist
    have hm : h ∈ ch.connQueries c := by simp [hlist]
    obtain ⟨q, hq, hsrv⟩ := hd.live hm
    simp only [hq, hsrv, hd.wf.servers_idx, if_true]
    have hh : Held cfg ch h (skipServer cfg q server) := (Held.of_stored hd.wf hq).skip server
    exact handleErrorLoop_sorted fuel (hd.dispatch hm (nextServer_post hd.wf hh)
      (hd.retry.nextServer hd.wf hh (Tracked.of_stored hq).skip)).1 (hs.nextServer hd.wf hh)

theorem SlistSorted.handleError (hi : Inv cfg ch) (hs : SlistSorted ch) {c : ConnId}
    {conn : Conn} (hc : ch.conns c = some conn) :
    SlistSorted (CAres.handleError cfg env ch c now) := by
  unfold CAres.handleError
  simp only [hc]
  exact handleErrorLoop_sorted _ (Draining.start hi hc) hs

namespace SlistSorted

variable {fds : Option (List Nat)} {fd : Option Nat}

theorem writeTcpServer (hi : Inv cfg ch) (hs : SlistSorted ch) (i : Nat) :
    SlistSorted (CAres.writeTcpServer cfg env fd now (ch, fds) i).1 := by
  unfold CAres.writeTcpServer
  dsimp only
  split
  · exact hs
  rename_i c htc
  obtain ⟨conn, hc, -⟩ := hi.wf.tcp_conn htc
  split
  · exact hs
  split
  · split
    · exact handleError hi.advance hs hc
    · split <;> exact hs
  · exact hs
  · exact handleError hi.advance hs hc

theorem writeTcpData (hi : Inv cfg ch) (hs : SlistSorted ch) :
    SlistSorted (CAres.writeTcpData cfg env ch fds fd now) := by
  unfold CAres.writeTcpData
  split
  · exact hs
  · suffices ∀ (l : List Nat) (st : Channel × Option (List Nat)), Inv cfg st.1 →
        SlistSorted st.1 → SlistSorted (l.foldl (CAres.writeTcpServer cfg env fd now) st).1 from
      this _ _ hi hs
    intro l
    induction l with
    | nil => exact fun _ _ h => h
    | cons i rest ih => exact fun st hi hs => ih _ (hi.writeTcpServer i) (hs.writeTcpServer hi i)

end SlistSorted

theorem readTcpFrames_sorted {c : ConnId} {server : Nat} :
    ∀ (fuel : Nat) {ch : Channel}, Inv cfg ch →
      (∃ conn, ch.conns c = some conn ∧ conn.isTcp = true) → SlistSorted ch →
      SlistSorted (readTcpFrames cfg env c server now fuel ch)
  | 0, _, _, _, hs => by rw [readTcpFrames]; exact hs
  | fuel + 1, ch, hi, ⟨conn, hc, ht⟩, hs => by
    rw [readTcpFrames]
    split
    · exact hs
    · rename_i frame rest hf
      have hi₁ : Inv cfg ((ch.updateServer server fun s => { s with tcpParser := rest }).emit
          (.tcpFramed server c frame)) :=
        hi.streamStep rfl rfl rfl (by rfl) (by trivial) (by simp) nofun
          (hi.streams.frame server c hf)
      have hfr : (Event.answered c (frame.drop 2) true).FramedAfter
          ((ch.updateServer server fun s => { s with tcpParser := rest }).emit
            (.tcpFramed server c frame)).trace.head? := fun he => by
        cases he; exact ⟨server, frame, rfl, rfl⟩
      exact readTcpFrames_sorted fuel (hi₁.processAnswer env hc hfr).1
        ((hi₁.processAnswer env hc hfr).2.tcp hc ht) (SlistSorted.processAnswer hi₁.wf hs)

theorem SlistSorted.readTcpData (hi : Inv cfg ch) (hs : SlistSorted ch) {c : ConnId}
    {conn : Conn} (hc : ch.conns c = some conn) (ht : conn.isTcp = true) :
    SlistSorted (CAres.readTcpData cfg env ch c conn now) := by
  unfold CAres.readTcpData
  split
  · exact handleError hi.advance hs hc
  have hi' := hi.setTick (ch.tick + 2)
  split
  · exact handleError hi' hs hc
  · exact readTcpFrames_sorted _ (hi'.streamStep rfl rfl rfl (by rfl) (by trivial) (by simp) nofun
      (hi'.streams.receive _ c _)) ⟨conn, hc, ht⟩ hs
  · exact hs
  · exact handleError hi' hs hc

theorem readUdpLoop_sorted {c : ConnId} :
    ∀ (rs : List UdpRead) {ch : Channel}, Inv cfg ch → (ch.conns c).isSome → SlistSorted ch →
      SlistSorted (readUdpLoop cfg env c c now rs ch)
  | [], _, _, _, hs => by rw [readUdpLoop]; exact hs
  | r :: rest, ch, hi, hc, hs => by
    obtain ⟨conn, hc⟩ := Option.isSome_iff_exists.mp hc
    rw [readUdpLoop]
    simp only [hc]
    split
    · exact hs
    · exact hs.handleError hi hc
    · have next : ∀ {ch₁ : Channel}, Inv cfg ch₁ → SlistSorted ch₁ →
          SlistSorted (if (ch₁.connnodeBySocket c).isSome then
            readUdpLoop cfg env c c now rest ch₁ else ch₁) := fun {ch₁} hi₁ hs₁ => by
        split
        · rename_i hsock
          obtain ⟨c', hc'⟩ := Option.isSome_iff_exists.mp hsock
          obtain ⟨rfl, hopen⟩ := hi₁.wf.socket.mp hc'
          exact readUdpLoop_sorted rest hi₁ hopen hs₁
        · exact hs₁
      split
      · exact next hi hs
      · split
        · exact next (hi.processAnswer env hc (by exact nofun)).1 (hs.processAnswer hi.wf)
        · exact next hi hs

theorem SlistSorted.readConn (hi : Inv cfg ch) (hs : SlistSorted ch) {c : ConnId}
    (hc : (ch.conns c).isSome) : SlistSorted (CAres.readConn cfg env ch c now) := by
  obtain ⟨conn, hc⟩ := Option.isSome_iff_exists.mp hc
  unfold CAres.readConn
  simp only [hc]
  split
  · exact hs.readTcpData hi hc ‹_›
  · unfold readUdpPacketsFd
    rw [hi.wf.connFd_eq]
    exact readUdpLoop_sorted _ hi.advance (by simp [hc]) hs

theorem readPacketsLoop_sorted :
    ∀ (fds socks : List Nat) {ch : Channel}, Inv cfg ch → SlistSorted ch →
      SlistSorted (readPacketsLoop cfg env now fds socks ch)
  | _, [], _, _, hs => by rw [readPacketsLoop]; exact hs
  | fds, s :: rest, ch, hi, hs => by
    rw [readPacketsLoop]
    split
    · split
      · exact hs
      · rename_i c hsock
        have hc := (hi.wf.socket.mp hsock).2
        exact readPacketsLoop_sorted _ rest (hi.readConn hc) (hs.readConn hi hc)
    · exact readPacketsLoop_sorted fds rest hi hs

theorem SlistSorted.readPackets (hi : Inv cfg ch) (hs : SlistSorted ch)
    {fds : Option (List Nat)} {fd : Option Nat} :
    SlistSorted (CAres.readPackets cfg env ch fds fd now) := by
  unfold CAres.readPackets
  split
  · exact hs
  · split
    · exact hs
    · rename_i c hsock
      exact hs.readConn hi (hi.wf.socket.mp hsock).2
  · have hs' : SlistSorted (CAres.channelSocketList cfg env ch).2 := by
      unfold CAres.channelSocketList
      split
      · exact hs
      · dsimp only; split <;> exact hs
    exact readPacketsLoop_sorted _ _ hi.channelSocketList hs'

end CAres
