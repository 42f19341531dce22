import CAres.Spec.Registry

/-! # The EDNS fallback's rewrite of the request

When an EDNS channel gets `FORMERR` without an OPT record, `process_answer` turns EDNS off and,
once the `ares_realloc` of `tcpbuf` succeeds, sends the query again with its request cut by
`EDNSFIXEDSZ = 11` bytes, the size of a bare OPT record, and `ARCOUNT` cleared. The cut keeps
the request framed: `tcplen = qlen + 2`, `tcpbuf` holds `tcplen` bytes, and its big-endian
length prefix is `qlen` (`edns_strip_request`). The new `qbuf` is the old one with `ARCOUNT`
zeroed, less its last 11 bytes, whatever they are: only a request that ends with a bare OPT
record loses exactly that record. A request submitted without OPT loses the end of its question
section instead (`edns_strip_cuts_question`). A `NULL` from the realloc is recorded as
`Fault.tcpbufRealloc`. -/

namespace CAres

/-- The big-endian 16-bit value of the first two bytes. -/
def be16 : Bytes → Nat
  | b0 :: b1 :: _ => b0.toNat * 256 + b1.toNat
  | _ => 0

/-- The frame invariant of a request: `tcpbuf` is the two-byte length prefix and the `qlen`
bytes of `qbuf`. -/
def Query.Framed (q : Query) : Prop :=
  q.tcplen = q.qlen + 2 ∧ q.tcpbuf.length = q.tcplen ∧ be16 q.tcpbuf = q.qlen

/-- `DNS_HEADER_SET_ARCOUNT(qbuf, 0)`. -/
def zeroArcount (b : Bytes) : Bytes := (b.set 10 0).set 11 0

instance (q : Query) : Decidable q.Framed := inferInstanceAs (Decidable (_ ∧ _ ∧ _))

theorem toUInt8_toNat (n : Nat) : n.toUInt8.toNat = n % 256 := rfl

/-- The byte pair of a 16-bit length reads back as that length. -/
theorem be16_length_prefix {n : Nat} (hn : n < 65536) (rest : Bytes) :
    be16 ((n >>> 8 % 256).toUInt8 :: (n % 256).toUInt8 :: rest) = n := by
  simp only [be16, toUInt8_toNat, Nat.shiftRight_eq_div_pow]
  omega

theorem be16_lt : ∀ b : Bytes, be16 b < 65536
  | b0 :: b1 :: _ => by
    have h0 := UInt8.toNat_lt_size b0
    have h1 := UInt8.toNat_lt_size b1
    simp only [be16, UInt8.size] at *
    omega
  | [] | [_] => by simp only [be16]; omega

/-- Cutting the last `k` bytes of a request with `ARCOUNT` cleared drops exactly a trailing
`k`-byte record. -/
theorem zeroArcount_take_append (body opt : Bytes) :
    (zeroArcount (body ++ opt)).take body.length = zeroArcount body := by
  simp only [zeroArcount, List.set_take, List.take_left]

/-- For every framed request of at least `EDNSFIXEDSZ` bytes, the rewrite keeps the frame
invariant, and its `qbuf` is the old one with `ARCOUNT` zeroed and its last 11 bytes cut; a
request that ends with an 11-byte record loses exactly that record. -/
theorem ednsStrip_frame {q : Query} (hf : q.Framed) (hl : ednsFixedSz ≤ q.qlen) :
    (ednsStrip q).Framed ∧
      (ednsStrip q).qbuf = (zeroArcount q.qbuf).take (q.qlen - ednsFixedSz) ∧
      ∀ body opt, q.qbuf = body ++ opt → opt.length = ednsFixedSz →
        (ednsStrip q).qbuf = zeroArcount body := by
  obtain ⟨htl, hlen, hbe⟩ := hf
  have hn : q.qlen < 65536 := hbe ▸ be16_lt _
  obtain ⟨b0, b1, rest, hb⟩ : ∃ b0 b1 rest, q.tcpbuf = b0 :: b1 :: rest := by
    match h : q.tcpbuf with
    | b0 :: b1 :: rest => exact ⟨b0, b1, rest, rfl⟩
    | [] | [_] => rw [h] at hlen; simp at hlen; omega
  rw [hb] at hlen
  have hrest : rest.length = q.qlen := by simp at hlen; omega
  have hqbuf : q.qbuf = rest := by
    rw [Query.qbuf, hb, List.drop_succ_cons, List.drop_succ_cons, List.drop_zero,
      List.take_of_length_le (by omega)]
  have hstrip : (ednsStrip q).tcpbuf =
      ((q.qlen - ednsFixedSz) >>> 8 % 256).toUInt8 :: ((q.qlen - ednsFixedSz) % 256).toUInt8 ::
        (zeroArcount rest).take (q.qlen - ednsFixedSz) := by
    have h2 : q.qlen + 2 - ednsFixedSz = (q.qlen - ednsFixedSz) + 2 := by
      unfold ednsFixedSz at hl ⊢; omega
    simp only [ednsStrip, hb, htl, Nat.add_sub_cancel, h2, zeroArcount, List.set_cons_zero,
      List.set_cons_succ, List.take_succ_cons]
  have hq' : (ednsStrip q).qbuf = (zeroArcount rest).take (q.qlen - ednsFixedSz) := by
    have hq : (ednsStrip q).qlen = q.qlen - ednsFixedSz := rfl
    rw [Query.qbuf, hstrip, List.drop_succ_cons, List.drop_succ_cons, List.drop_zero, hq,
      List.take_take, min_self]
  refine ⟨⟨by simp only [ednsStrip]; omega, ?_, ?_⟩, by rw [hq', hqbuf], ?_⟩
  · rw [hstrip]; simp [ednsStrip, zeroArcount, hrest]; omega
  · rw [hstrip, be16_length_prefix (by omega)]; rfl
  · intro body opt hsplit hopt
    rw [hq', ← hqbuf, hsplit]
    have : q.qlen - ednsFixedSz = body.length := by
      rw [← hrest, ← hqbuf, hsplit, List.length_append, hopt]; omega
    rw [this, zeroArcount_take_append]

section
variable {cfg : Config} {env : Env} {ch : Channel} {abuf : Bytes} {rec : DnsRecord}
  {server fd : Nat} {tcp : Bool} {h : QueryId} {q : Query} {now : Timeval}

/-- When the `ares_realloc` of `tcpbuf` succeeds, the EDNS fallback turns EDNS off and sends
`ednsStrip q`; for a framed request of at least `EDNSFIXEDSZ` bytes that request is framed, and
its `qbuf` is the old one with `ARCOUNT` zeroed and its last 11 bytes cut. -/
theorem edns_strip_request (hf : q.Framed) (hl : ednsFixedSz ≤ q.qlen)
    (he : ch.flags.edns = true) (hrc : rec.rcode = rcodeFormatError) (ho : hasOptRr rec = false)
    (ha : env.alloc ch.tick = true) :
    answerBranches cfg env ch abuf rec server fd tcp h q now =
        (aresSendQuery cfg env { ch with flags := { ch.flags with edns := false } }.advance h
          (ednsStrip q) now .ednsFallback).checkCleanupConn cfg fd ∧
      (ednsStrip q).Framed ∧
      (ednsStrip q).qbuf = (zeroArcount q.qbuf).take (q.qlen - ednsFixedSz) ∧
      ∀ body opt, q.qbuf = body ++ opt → opt.length = ednsFixedSz →
        (ednsStrip q).qbuf = zeroArcount body :=
  ⟨by simp only [answerBranches, he, hrc, ho, ha, and_self, if_true, Bool.not_true],
    ednsStrip_frame hf hl⟩

end

/-- A world where every response is `FORMERR` with id 7, no question and no OPT record, and
every UDP read returns one datagram from the server. -/
def formErrEnv : Env where
  parse _ := some ⟨7, 0, rcodeFormatError, [], []⟩
  openConnection _ := .success
  alloc _ := true
  udpWrite _ := true
  tcpWrite _ := .again
  tcpRecv _ := .again
  udpRecv _ := [.datagram ⟨afInet, [127, 0, 0, 1]⟩ [1]]

/-- A query for `example. IN A` with recursion desired and no additional record: 12 header
bytes and a 13-byte question. -/
def exampleRequest : Bytes :=
  [0, 0, 1, 0, 0, 1, 0, 0, 0, 0, 0, 0, 7, 101, 120, 97, 109, 112, 108, 101, 0, 0, 1, 0, 1]

/-- `exampleRequest` submitted with id 7 on a channel with `ARES_FLAG_EDNS` set. -/
def ednsSent : Channel :=
  aresSend loopCfg formErrEnv (Channel.init loopCfg { edns := true } fun _ => loopAddr) 7
    exampleRequest ⟨0, 0⟩

/-- The UDP socket read: the `FORMERR` answer takes the EDNS fallback. -/
def ednsRetried : Channel := processfds loopCfg formErrEnv ednsSent (some [0]) none none none ⟨0, 0⟩

theorem edns_strip_request_ednsSent :
    ∃ q, ednsSent.queries 0 = some q ∧ q.Framed ∧ ednsFixedSz ≤ q.qlen ∧
      ednsSent.flags.edns = true ∧ formErrEnv.alloc ednsSent.tick = true ∧
      answerBranches loopCfg formErrEnv ednsSent [1] ⟨7, 0, rcodeFormatError, [], []⟩ 0 0 false
          0 q ⟨0, 0⟩ =
        (aresSendQuery loopCfg formErrEnv
          { ednsSent with flags := { ednsSent.flags with edns := false } }.advance 0
          (ednsStrip q) ⟨0, 0⟩ .ednsFallback).checkCleanupConn loopCfg 0 ∧
      (ednsStrip q).Framed ∧
      (ednsStrip q).qbuf = (zeroArcount q.qbuf).take (q.qlen - ednsFixedSz) ∧
      ∀ body opt, q.qbuf = body ++ opt → opt.length = ednsFixedSz →
        (ednsStrip q).qbuf = zeroArcount body := by
  have hc : (ednsSent.queries 0).map (fun q => decide (q.Framed ∧ ednsFixedSz ≤ q.qlen)) =
      some true := by decide
  obtain ⟨q, hq, hd⟩ := Option.map_eq_some'.mp hc
  obtain ⟨hf, hl⟩ := of_decide_eq_true hd
  have he : ednsSent.flags.edns = true := by decide
  exact ⟨q, hq, hf, hl, he, rfl, edns_strip_request hf hl he rfl rfl rfl⟩

/-- The request has no additional record, so no OPT record to remove; the fallback still cuts
11 bytes, and the question `example. IN A` loses all of its name but the length byte and the
`e`, and its type and class. -/
theorem edns_strip_cuts_question :
    Reachable loopCfg formErrEnv ednsRetried ∧ ednsRetried.flags.edns = false ∧
      (ednsSent.queries 0).map Query.qbuf =
        some [0, 7, 1, 0, 0, 1, 0, 0, 0, 0, 0, 0, 7, 101, 120, 97, 109, 112, 108, 101, 0, 0, 1, 0,
          1] ∧
      (ednsRetried.queries 0).map Query.qbuf = some [0, 7, 1, 0, 0, 1, 0, 0, 0, 0, 0, 0, 7, 101] ∧
      Event.sent 0 0 0 .ednsFallback ∈ ednsRetried.trace :=
  ⟨.process _ _ _ _ _ (.send _ _ _ (.init _ _) (by decide) rfl), by decide, by decide, by decide,
    by decide⟩

end CAres
