import CAres.Engine.Dispatch

/-! # `process_answer`

The validation of a response against the outstanding queries (`same_questions`,
`same_address`, `has_opt_rr`) and `process_answer` itself (`ares_process.c`, lines
518-631): the EDNS fallback, the switch to TCP on truncation, the response-code filter, and
the acceptance that ends the query with `ARES_SUCCESS`. -/

namespace CAres

open Function

/-- `strcasecmp(a, b) == 0` on names without NUL bytes: equal after ASCII lowercasing. -/
def strcasecmpEq (a b : String) : Bool :=
  a.toList.map Char.toLower == b.toList.map Char.toLower

/-- The loop of `same_questions` over the question entries, position by position. -/
def questionsMatch : List Question → List Question → Bool
  | q :: qs, a :: as =>
    strcasecmpEq q.name a.name && q.qtype == a.qtype && q.qclass == a.qclass &&
      questionsMatch qs as
  | _, _ => true

/-- `same_questions`: the request parses, and has as many questions as the answer, pairwise
equal in name (ignoring case), type and class. -/
def sameQuestions (parse : Bytes → Option DnsRecord) (qbuf : Bytes) (arec : DnsRecord) : Bool :=
  match parse qbuf with
  | none => false
  | some qrec =>
    qrec.questions.length == arec.questions.length && questionsMatch qrec.questions arec.questions

/-- `same_address`: the datagram's source is the server's address, of the same family. -/
def sameAddress (sa : SockAddr) (aa : AresAddr) : Bool :=
  if sa.family = aa.family then
    if aa.family = afInet then aa.addr.take 4 == sa.addr.take 4
    else if aa.family = afInet6 then aa.addr.take 16 == sa.addr.take 16
    else false
  else false

/-- `has_opt_rr`: an OPT pseudo-record in the additional section. -/
def hasOptRr (arec : DnsRecord) : Bool := arec.additional.any (· == recTypeOpt)

/-- `EDNSFIXEDSZ`. -/
def ednsFixedSz : Nat := 11

/-- The EDNS fallback's rewrite of the request when the `ares_realloc` of `tcpbuf` succeeds:
both lengths lose the OPT record's `EDNSFIXEDSZ` bytes, the length prefix and `ARCOUNT` are
rewritten, and `tcpbuf` is cut to the new length. -/
def ednsStrip (q : Query) : Query :=
  let qlen := q.tcplen - 2 - ednsFixedSz
  let buf := ((((q.tcpbuf.set 0 (qlen >>> 8 % 256).toUInt8).set 1 (qlen % 256).toUInt8).set
    (2 + 10) 0).set (2 + 11) 0)
  { q with
    tcplen := q.tcplen - ednsFixedSz
    qlen := q.qlen - ednsFixedSz
    tcpbuf := buf.take (q.tcplen - ednsFixedSz) }

/-- The status a filtered response code is recorded as. -/
def rcodeStatus (rcode : Nat) : Status :=
  if rcode = rcodeServerFailure then .eservfail
  else if rcode = rcodeNotImplemented then .enotimp
  else .erefused

/-- The response codes that `process_answer` discards unless `NOCHECKRESP` is set. -/
def filteredRcode (rcode : Nat) : Bool :=
  rcode == rcodeServerFailure || rcode == rcodeNotImplemented || rcode == rcodeRefused

variable (cfg : Config) (env : Env)

/-- The `packetsz` of `process_answer`: `PACKETSZ`, or `ednspsz` under EDNS. -/
def udpPacketSize (flags : Flags) : Nat := if flags.edns then cfg.ednspsz else packetSz

/-- The branches of `process_answer` once the answer is known to belong to query `h` and the
query has been taken off its connection's list. `server` and `fd` are the answering
connection's, cached at entry. -/
def answerBranches (ch : Channel) (abuf : Bytes) (rec : DnsRecord) (server fd : Nat)
    (tcp : Bool) (h : QueryId) (q : Query) (now : Timeval) : Channel :=
  let packetsz := udpPacketSize cfg ch.flags
  if ch.flags.edns ∧ rec.rcode = rcodeFormatError ∧ hasOptRr rec = false then
    let ch := { ch with flags := { ch.flags with edns := !ch.flags.edns } }
    if env.alloc ch.tick then
      (aresSendQuery cfg env ch.advance h (ednsStrip q) now .ednsFallback).checkCleanupConn cfg fd
    else ch.advance.emit (.fault (.tcpbufRealloc h))
  else if (rec.flags &&& dnsFlagTc ≠ 0 ∨ packetsz < abuf.length) ∧ tcp = false ∧
      ch.flags.igntc = false then
    let ch := if q.usingTcp then ch
      else aresSendQuery cfg env ch h { q with usingTcp := true } now .tcpUpgrade
    ch.checkCleanupConn cfg fd
  else if ch.flags.nocheckresp = false ∧ filteredRcode rec.rcode then
    let q := skipServer cfg { q with errorStatus := rcodeStatus rec.rcode } server
    let ch := if q.server = (ch.servers server).idx then nextServer cfg env ch h q now
      else ch.setQuery h q
    ch.checkCleanupConn cfg fd
  else (ch.endQuery h q .success (some abuf)).checkCleanupConn cfg fd

/-- `process_answer`: parse the payload, find the query by id, check the questions, take
the query off its connection's list, and branch. Entering with a closed connection reads
freed memory (`Fault.connAfterClose`). -/
def processAnswer (ch : Channel) (abuf : Bytes) (c : ConnId) (tcp : Bool) (now : Timeval) :
    Channel :=
  let ch := ch.emit (.answered c abuf tcp)
  match ch.conns c with
  | none => ch.emit (.fault (.connAfterClose c))
  | some conn =>
    match env.parse abuf with
    | none => ch
    | some rec =>
      match ch.queriesByQid rec.id with
      | none => ch
      | some h =>
        match ch.queries h with
        | none => ch.emit (.fault (.queryAfterEnd h))
        | some q =>
          if sameQuestions env.parse q.qbuf rec then
            let ch := { ch with
              connQueries := connListErase ch.connQueries q.nodeQueriesToConn h }
            let q := { q with nodeQueriesToConn := none }
            answerBranches cfg env (ch.setQuery h q) abuf rec conn.server conn.fd tcp h q now
          else ch

end CAres
