import CAres.Engine.Config
import Mathlib.Data.List.Basic

/-! # `config_nameserver` against the server grammar

The spec's grammar for a server is `addr`, `[addr]` or `[addr]:port`, in a list separated by
white space and commas. The loop of `config_nameserver` does split the string into its maximal
pieces without separators and appends one server per piece that `parse_dnsaddrport` accepts,
in order (`configNameserver_tokens`). `parse_dnsaddrport` does not accept the grammar, though
(`parseDnsaddrport_forms`): after the closing bracket it reads the character that ends the
piece, so `[addr]` is always refused; `[addr]:` is taken with port 0; and the port is whatever
`atoi` makes of up to five characters, cast to `unsigned short`, so `[addr]:99999` gets port
34463 and `[addr]:x` port 0 (`nameserver_brackets_misparsed`). -/

namespace CAres

/-- The pieces of a server list, as the spec states them: the maximal runs of characters that
are neither white space nor commas. -/
def nameserverTokens (s : List Char) : List (List Char) :=
  (s.splitOnP isNameserverSep).filter (· ≠ [])

/-- The server an accepted piece becomes. -/
def serverOf : Nat × Bytes × Nat → AresAddr
  | (family, addr, port) => { family := family, addr := addr, udpPort := port, tcpPort := port }

variable {pton : Nat → List Char → Option Bytes}

section Words

variable {sep : Char → Bool}

/-- Separators before a text add no word to it. -/
theorem splitOnP_words_append_seps {pre : List Char} (hpre : ∀ x ∈ pre, sep x)
    (p : List Char) :
    ((pre ++ p).splitOnP sep).filter (· ≠ []) = (p.splitOnP sep).filter (· ≠ []) := by
  induction pre with
  | nil => rfl
  | cons x xs ih =>
    rw [List.cons_append, List.splitOnP_cons, if_pos (hpre x (List.mem_cons_self x xs)),
      List.filter_cons, ih fun y hy => hpre y (List.mem_cons_of_mem x hy)]
    rfl

/-- A text that starts with a character other than a separator starts with the word that runs
up to the first separator. -/
theorem splitOnP_words_piece {c : Char} {cs : List Char} (hc : sep c = false) :
    ((c :: cs).splitOnP sep).filter (· ≠ []) =
      (c :: cs).takeWhile (!sep ·) ::
        (((c :: cs).dropWhile (!sep ·)).splitOnP sep).filter (· ≠ []) := by
  have hsplit := List.takeWhile_append_dropWhile (fun x => !sep x) (c :: cs)
  have htok : ∀ x ∈ (c :: cs).takeWhile (!sep ·), ¬ sep x := by
    intro x hx; simpa using List.mem_takeWhile_imp hx
  have hne : (c :: cs).takeWhile (!sep ·) ≠ [] := by
    simp [List.takeWhile_cons, hc]
  rcases hrest : (c :: cs).dropWhile (!sep ·) with _ | ⟨d, ds⟩
  · rw [hrest, List.append_nil] at hsplit
    conv_lhs => rw [← hsplit]
    rw [List.splitOnP_eq_single _ _ htok]
    simp [hne]
  · have hd : sep d = true := by
      have := List.head_dropWhile_not (fun x => !sep x) (c :: cs) (by simp [hrest])
      simpa [hrest] using this
    rw [hrest] at hsplit
    conv_lhs => rw [← hsplit]
    have hsep : ∀ x ∈ [d], sep x := by simpa using hd
    rw [List.splitOnP_first _ _ htok d hd, List.filter_cons, if_pos (by simpa using hne),
      ← splitOnP_words_append_seps hsep ds]
    rfl

end Words

theorem nameserverTokens_append_seps {pre : List Char} (hpre : ∀ x ∈ pre, isNameserverSep x)
    (p : List Char) : nameserverTokens (pre ++ p) = nameserverTokens p :=
  splitOnP_words_append_seps hpre p

/-- A piece that starts with a character other than a separator is the first token. -/
theorem nameserverTokens_piece {c : Char} {cs : List Char} (hc : isNameserverSep c = false) :
    nameserverTokens (c :: cs) =
      (c :: cs).takeWhile (!isNameserverSep ·) ::
        nameserverTokens ((c :: cs).dropWhile (!isNameserverSep ·)) :=
  splitOnP_words_piece hc

/-- The character after a piece matters only when it is a colon: a piece ended by a separator
parses as one at the end of the string. -/
theorem parseDnsaddrport_next {tok : List Char} {c : Char} (hc : c ≠ ':') :
    parseDnsaddrport pton tok c = parseDnsaddrport pton tok '\x00' := by
  unfold parseDnsaddrport
  dsimp only
  rcases Nat.eq_zero_or_pos tok.length with h0 | h0
  · simp only [h0, true_or, if_true]
  simp only [if_pos h0]
  congr 2
  split
  · split
    · rfl
    · rename_i j _
      by_cases h2 : 2 + j < tok.length
      · simp only [if_pos h2]
      · simp only [if_neg h2, ne_eq, hc, not_false_eq_true, if_true,
          show ('\x00' : Char) ≠ ':' by decide]
  · rfl

/-- The character that ends a piece is never a colon. -/
theorem headD_dropWhile_ne_colon (p : List Char) :
    (p.dropWhile (!isNameserverSep ·)).headD '\x00' ≠ ':' := by
  rcases hr : p.dropWhile (!isNameserverSep ·) with _ | ⟨d, ds⟩
  · decide
  · have := List.head_dropWhile_not (fun x => !isNameserverSep x) p (by simp [hr])
    simp only [hr, List.head_cons, Bool.not_eq_false'] at this
    rintro rfl
    exact absurd this (by decide)

/-- The loop of `config_nameserver`, given enough fuel and no failed allocation, appends one
server per token that `parse_dnsaddrport` accepts, in order. -/
theorem configNameserverLoop_tokens :
    ∀ (fuel : Nat) (s : List Char) (k : Nat) (servers : List AresAddr), s.length < fuel →
      configNameserverLoop pton (fun _ => true) fuel s k servers =
        (.success, servers ++ (nameserverTokens s).filterMap fun tok =>
          (parseDnsaddrport pton tok '\x00').map serverOf)
  | 0, _, _, _, h => absurd h (Nat.not_lt_zero _)
  | fuel + 1, s, k, servers, h => by
    have ht : nameserverTokens s = nameserverTokens (s.dropWhile isNameserverSep) := by
      conv_lhs => rw [← List.takeWhile_append_dropWhile isNameserverSep s]
      exact nameserverTokens_append_seps (fun x hx => List.mem_takeWhile_imp hx) _
    have hlen := (List.dropWhile_sublist (l := s) isNameserverSep).length_le
    rw [configNameserverLoop, ht]
    dsimp only
    rcases hp : s.dropWhile isNameserverSep with _ | ⟨c, cs⟩
    · simp [nameserverTokens]
    rw [if_neg (List.cons_ne_nil _ _)]
    have hc : isNameserverSep c = false := by
      have := List.head_dropWhile_not isNameserverSep s (by simp [hp])
      simpa [hp] using this
    rw [hp] at hlen
    have hrest : ((c :: cs).dropWhile (!isNameserverSep ·)).length < fuel := by
      have := (List.dropWhile_sublist (l := cs) (!isNameserverSep ·)).length_le
      simp only [List.dropWhile_cons, hc, Bool.not_false, if_true, List.length_cons] at hlen ⊢
      omega
    rw [nameserverTokens_piece hc, List.filterMap_cons,
      parseDnsaddrport_next (headD_dropWhile_ne_colon _)]
    cases parseDnsaddrport pton ((c :: cs).takeWhile (!isNameserverSep ·)) '\x00' with
    | none => exact configNameserverLoop_tokens fuel _ k servers hrest
    | some v =>
      simp only [Bool.not_true, Option.map_some', Bool.false_eq_true, if_false]
      rw [configNameserverLoop_tokens fuel _ (k + 1) _ hrest, List.append_assoc]
      rfl

/-- `config_nameserver`, with no failed allocation, appends one server per token that
`parse_dnsaddrport` accepts, in order. -/
theorem configNameserver_tokens (servers : List AresAddr) (s : List Char) :
    configNameserver pton (fun _ => true) servers s =
      (.success, servers ++ (nameserverTokens s).filterMap fun tok =>
        (parseDnsaddrport pton tok '\x00').map serverOf) :=
  configNameserverLoop_tokens _ s 0 servers (Nat.lt_succ_self _)

theorem indexOf?_closing {A R : List Char} (hA : ']' ∉ A) :
    (A ++ ']' :: R).indexOf? ']' = some A.length := by
  have hnone : A.findIdx? (· == ']') = none :=
    List.findIdx?_eq_none_iff.mpr fun x hx => by
      rw [beq_eq_false_iff_ne]; rintro rfl; exact hA hx
  simp [List.indexOf?, List.findIdx?_append, hnone]

/-- What `parse_dnsaddrport` makes of the three forms of the grammar, for an address text
without a closing bracket: `A` is read with port 0; `[A]` is refused, whatever character other
than a colon ends the piece; `[A]:P` is read with port `atoi(P)` cast to `unsigned short` when
`P` has at most five characters, and refused otherwise. -/
theorem parseDnsaddrport_forms {A P : List Char} (hA : ']' ∉ A) {next : Char} (hn : next ≠ ':') :
    (∀ c cs, A = c :: cs → (isXDigit c ∨ c = ':') →
      parseDnsaddrport pton A next =
        if A.length < inet6AddrStrLen then (ptonHost pton A).map fun (f, a) => (f, a, 0)
        else none) ∧
    parseDnsaddrport pton ('[' :: A ++ [']']) next = none ∧
    parseDnsaddrport pton ('[' :: A ++ ']' :: ':' :: P) next =
      if A.length < inet6AddrStrLen ∧ P.length ≤ 5 then
        (ptonHost pton A).map fun (f, a) => (f, a, toUShort (atoi P))
      else none := by
  refine ⟨fun c cs hA' hc => ?_, ?_, ?_⟩
  · subst hA'
    have hc' : c ≠ '[' := by rintro rfl; simp [isXDigit] at hc
    simp only [parseDnsaddrport, List.length_cons, Nat.zero_lt_succ, if_true, List.getD_cons_zero]
    have h0 : toUShort (atoi ['0']) = 0 := rfl
    rcases hc with hc | rfl
    · simp [hc, hc', inet6AddrStrLen, h0]
      split_ifs <;> first | rfl | omega
    · simp [inet6AddrStrLen, h0]
      split_ifs <;> first | rfl | omega
  · have ht : (A ++ [']']).take (A.length + 1) = A ++ [']'] := List.take_of_length_le (by simp)
    have h1 : 1 + A.length < A.length + 1 + 1 := by omega
    have h2 : ¬ 2 + A.length < A.length + 1 + 1 := by omega
    simp [parseDnsaddrport, ht, indexOf?_closing hA, h1, h2, hn]
  · have ht : (A ++ ']' :: ':' :: P).take (A.length + (P.length + 1 + 1)) = A ++ ']' :: ':' :: P :=
      List.take_of_length_le (by simp)
    have hget : ('[' :: (A ++ ']' :: ':' :: P))[2 + A.length]? = some ':' := by
      rw [show 2 + A.length = (A.length + 1) + 1 by omega, List.getElem?_cons_succ,
        List.getElem?_append_right (by omega)]
      simp
    have hdrop : ('[' :: (A ++ ']' :: ':' :: P)).drop (3 + A.length) = P := by
      rw [show 3 + A.length = (A.length + 2) + 1 by omega, List.drop_succ_cons, ← List.drop_drop,
        List.drop_left]
      rfl
    have h1 : 1 + A.length < A.length + (P.length + 1 + 1) + 1 := by omega
    have h2 : ¬ A.length + (P.length + 1 + 1) + 1 ≤ 2 + A.length := by omega
    have h3 : ¬ 2 + A.length = A.length + (P.length + 1 + 1) + 1 := by omega
    simp [parseDnsaddrport, ht, indexOf?_closing hA, hget, hdrop, List.take_left, inet6AddrStrLen,
      h1, h2, h3]
    split_ifs <;> first | rfl | omega

/-- An `ares_inet_pton` that knows one address: the dotted quad `1.2.3.4`. -/
def quadPton (family : Nat) (text : List Char) : Option Bytes :=
  if family = afInet ∧ text = "1.2.3.4".toList then some [1, 2, 3, 4] else none

theorem parseDnsaddrport_forms_quad :
    ']' ∉ "1.2.3.4".toList ∧ ' ' ≠ ':' ∧
    (∀ c cs, "1.2.3.4".toList = c :: cs → (isXDigit c ∨ c = ':') →
      parseDnsaddrport quadPton "1.2.3.4".toList ' ' =
        if "1.2.3.4".toList.length < inet6AddrStrLen then
          (ptonHost quadPton "1.2.3.4".toList).map fun (f, a) => (f, a, 0)
        else none) ∧
    parseDnsaddrport quadPton ('[' :: "1.2.3.4".toList ++ [']']) ' ' = none ∧
    parseDnsaddrport quadPton ('[' :: "1.2.3.4".toList ++ ']' :: ':' :: "53".toList) ' ' =
      if "1.2.3.4".toList.length < inet6AddrStrLen ∧ "53".toList.length ≤ 5 then
        (ptonHost quadPton "1.2.3.4".toList).map fun (f, a) => (f, a, toUShort (atoi "53".toList))
      else none :=
  ⟨by decide, by decide, parseDnsaddrport_forms (by decide) (by decide)⟩

/-- Four tokens with the address `1.2.3.4`: `[1.2.3.4]` is skipped; `[1.2.3.4]:` with no port,
`[1.2.3.4]:99999` out of range and `[1.2.3.4]:x` not a number are each appended, with ports 0,
34463 and 0. -/
theorem nameserver_brackets_misparsed :
    configNameserver quadPton (fun _ => true) []
        "[1.2.3.4] [1.2.3.4]: [1.2.3.4]:99999 [1.2.3.4]:x".toList =
      (.success, [serverOf (afInet, [1, 2, 3, 4], 0), serverOf (afInet, [1, 2, 3, 4], 34463),
        serverOf (afInet, [1, 2, 3, 4], 0)]) := by
  decide

end CAres
