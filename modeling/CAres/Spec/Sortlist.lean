import CAres.Engine.Resolv
import Mathlib.Data.List.DropRight

/-! # The sortlist grammar

`config_sortlist` (`ares_init.c`, lines 1840-1949) reads the items of a sortlist value one
round at a time: it copies the address text into `ipbuf[17]` and, after a slash, the whole item
into `ipbufpfx[32]`, asks `ares_inet_net_pton` and `ip_addr` what the item is, and appends its
pattern. `configSortlistLoop_succ` names the pieces of one round; every round that goes on
consumes input (`sortlistRest_length_lt`), so the loop's budget is never cut short
(`configSortlistLoop_fuel`).

On a value made of items separated by blanks (`SortlistText`) the loop is the item-wise reading
`sortlistWords` (`configSortlistLoop_text`): when every item fits the two buffers and every
allocation succeeds, the result is one pattern per item that reads as one, in order
(`configSortlist_items`). An item whose address text has 16 characters or more, or which has a
slash and 32 characters or more, ends the read with `ARES_EBADSTR` whatever it is; an IPv6
address written without `::` is such an item (`config_sortlist_long_ipv6`). -/

namespace CAres

private theorem drop_length_takeWhile {α : Type} (p : α → Bool) (l : List α) :
    l.drop (l.takeWhile p).length = l.dropWhile p := by
  have := List.drop_left (l.takeWhile p) (l.dropWhile p)
  rwa [List.takeWhile_append_dropWhile] at this

private theorem length_dropWhile_le {α : Type} (p : α → Bool) (l : List α) :
    (l.dropWhile p).length ≤ l.length :=
  (List.dropWhile_suffix p).length_le

/-- A character of an address text: not `/`, `;` or a blank. -/
def ipChar (c : Char) : Bool := c != '/' && c != ';' && !isSpace c

/-- A character of an item: not `;` or a blank. -/
def itemChar (c : Char) : Bool := c != ';' && !isSpace c

/-- The address text at the head of `str`, as `config_sortlist` copies it into `ipbuf`. -/
def sortlistIp (str : List Char) : List Char := str.takeWhile ipChar

/-- After the address text: with a slash, the whole item and the text after the slash
(`ipbufpfx` and `str2`); and where the round stopped reading. -/
def sortlistCut (str : List Char) : Option (List Char × List Char) × List Char :=
  let ip := sortlistIp str
  let q := str.drop ip.length
  match q with
  | '/' :: str2 =>
    let pfx := str2.takeWhile itemChar
    (some (ip ++ '/' :: pfx, pfx), str2.drop pfx.length)
  | _ => (none, q)

/-- Where the next round starts: after the item and the blanks that follow it. -/
def sortlistRest (str : List Char) : List Char := (sortlistCut str).2.dropWhile isSpace

theorem sortlistCut_eq (str : List Char) :
    sortlistCut str = match str.dropWhile ipChar with
      | '/' :: str2 => (some (sortlistIp str ++ '/' :: str2.takeWhile itemChar,
          str2.takeWhile itemChar), str2.dropWhile itemChar)
      | q => (none, q) := by
  simp only [sortlistCut, sortlistIp, drop_length_takeWhile]
  split <;> rfl

/-- A round stops at a `;`, a blank or the end: the skip of an unread item moves nothing. -/
theorem sortlistCut_dropWhile (str : List Char) :
    (sortlistCut str).2.dropWhile itemChar = (sortlistCut str).2 := by
  have hc := List.head?_dropWhile_not ipChar str
  rw [sortlistCut_eq]
  generalize str.dropWhile ipChar = q at hc ⊢
  rcases q with _ | ⟨c, r⟩
  · rfl
  · by_cases h : c = '/'
    · subst h; exact List.dropWhile_idempotent _ _
    · simp_all [ipChar, itemChar]

/-- Every round that goes on consumes input. -/
theorem sortlistRest_length_lt {str : List Char} (hgo : ¬(str = [] ∨ str.head? = some ';')) :
    (sortlistRest str).length < str.length := by
  obtain ⟨c, r, rfl⟩ : ∃ c r, str = c :: r := by cases str <;> simp_all
  have hr := length_dropWhile_le isSpace
  have hi := length_dropWhile_le itemChar
  rw [sortlistRest, sortlistCut_eq, List.length_cons]
  by_cases hc : ipChar c
  · rw [List.dropWhile_cons_of_pos hc]
    have hq := length_dropWhile_le ipChar r
    generalize r.dropWhile ipChar = q at hq ⊢
    split <;> dsimp only
    · next _ str2 =>
      have := hr (str2.dropWhile itemChar); have := hi str2
      rw [List.length_cons] at hq; omega
    · have := hr q; omega
  · rw [List.dropWhile_cons_of_neg hc]
    split <;> dsimp only
    · next _ str2 h =>
      obtain ⟨-, rfl⟩ := List.cons.inj h
      have := hr (r.dropWhile itemChar); have := hi r; omega
    · have hsp : isSpace c := by simp_all [ipChar]
      rw [List.dropWhile_cons_of_pos hsp]; have := hr r; omega

variable (e : ConfEnv)

/-- One round of `config_sortlist` on a value that goes on: the two buffer checks, what
`sortlistItem` makes of the item, and the round after it. -/
theorem configSortlistLoop_succ (fuel : Nat) {str : List Char} (pats : List Pattern) (n : Nat)
    (hgo : ¬(str = [] ∨ str.head? = some ';')) :
    configSortlistLoop e (fuel + 1) str pats n =
      if 16 ≤ (sortlistIp str).length then (.ebadstr, [], n)
      else if (sortlistCut str).1.any (fun (whole, _) => 32 ≤ whole.length) then (.ebadstr, [], n)
      else match sortlistItem e (sortlistIp str) (sortlistCut str).1 with
        | .error st => (st, [], n)
        | .ok none => configSortlistLoop e fuel (sortlistRest str) pats n
        | .ok (some pat) =>
          if e.alloc n then configSortlistLoop e fuel (sortlistRest str) (pats ++ [pat]) (n + 1)
          else (.enomem, [], n + 1) := by
  rw [configSortlistLoop, if_neg hgo, sortlistRest]
  nth_rewrite 1 [← sortlistCut_dropWhile str]
  rfl

/-- A budget above the length of the value is never cut short: one more round changes
nothing. -/
theorem configSortlistLoop_succ_fuel :
    ∀ (fuel : Nat) (str : List Char) (pats : List Pattern) (n : Nat), str.length < fuel →
      configSortlistLoop e (fuel + 1) str pats n = configSortlistLoop e fuel str pats n
  | 0, _, _, _, h => absurd h (Nat.not_lt_zero _)
  | fuel + 1, str, pats, n, h => by
    by_cases hgo : str = [] ∨ str.head? = some ';'
    · rw [configSortlistLoop, if_pos hgo, configSortlistLoop, if_pos hgo]
    have hlt := sortlistRest_length_lt hgo
    have ih := fun p m => configSortlistLoop_succ_fuel fuel (sortlistRest str) p m (by omega)
    rw [configSortlistLoop_succ e _ _ _ hgo, configSortlistLoop_succ e _ _ _ hgo]
    rcases sortlistItem e (sortlistIp str) (sortlistCut str).1 with st | _ | pat <;> simp only [ih]

/-- `config_sortlist` terminates on every value: however many rounds more it is given, it
returns what it returns within the length of the value plus one. -/
theorem configSortlistLoop_fuel (str : List Char) (pats : List Pattern) (n k : Nat) :
    configSortlistLoop e (str.length + 1 + k) str pats n =
      configSortlistLoop e (str.length + 1) str pats n := by
  induction k with
  | zero => rfl
  | succ k ih => rw [← Nat.add_assoc, configSortlistLoop_succ_fuel e _ _ _ _ (by omega), ih]

/-- The error branch of `sortlistItem`, a mask text of 16 characters or more, is never taken:
`ip_addr` is asked with that same length first and refuses it. -/
theorem sortlistItem_ne_error (ip : List Char) (slash : Option (List Char × List Char))
    (st : Status) : sortlistItem e ip slash ≠ .error st := by
  rcases slash with _ | ⟨whole, pfx⟩ <;> simp only [sortlistItem] <;> split <;> try simp
  next a ha =>
  have : pfx.length ≤ 15 := by
    by_contra h; simp [ipAddr, show pfx.length > 15 by omega] at ha
  simp [show ¬16 ≤ pfx.length by omega]

/-! ## Items -/

/-- The pattern `config_sortlist` makes of the item `w`, if any. -/
def itemPattern (w : List Char) : Option Pattern :=
  match sortlistItem e (sortlistIp w) (sortlistCut w).1 with
  | .ok pat => pat
  | .error _ => none

/-- `w` fits the buffers of `config_sortlist`: its address text fits `ipbuf[17]` with room to
spare and, with a slash, the whole item fits `ipbufpfx[32]`. -/
def itemFits (w : List Char) : Bool :=
  (sortlistIp w).length < 16 && !(sortlistCut w).1.any (fun (whole, _) => 32 ≤ whole.length)

/-- The item-wise reading of a sortlist value: each item in turn either ends the read with
`ARES_EBADSTR`, if it does not fit the buffers, or adds its pattern, if it has one. -/
def sortlistWords : List (List Char) → List Pattern → Nat → Status × List Pattern × Nat
  | [], pats, n => (.success, pats, n)
  | w :: ws, pats, n =>
    if itemFits w then
      match itemPattern e w with
      | none => sortlistWords ws pats n
      | some pat =>
        if e.alloc n then sortlistWords ws (pats ++ [pat]) (n + 1) else (.enomem, [], n + 1)
    else (.ebadstr, [], n)

/-- `str` lists the items `ws` of a sortlist value, each followed by blanks (at least one before
the next item), up to the end of the value or a `;`. -/
inductive SortlistText : List (List Char) → List Char → Prop
  | stop {tail : List Char} : tail = [] ∨ tail.head? = some ';' → SortlistText [] tail
  | item {w g rest : List Char} {ws : List (List Char)} :
      w ≠ [] → (∀ c ∈ w, itemChar c) → (∀ c ∈ g, isSpace c) →
      (g = [] → ws = []) → SortlistText ws rest → SortlistText (w :: ws) (w ++ g ++ rest)

/-- A value that is one item alone. -/
theorem SortlistText.single {w : List Char} (hne : w ≠ []) (hw : ∀ c ∈ w, itemChar c) :
    SortlistText [w] w := by
  have h : SortlistText [w] (w ++ [] ++ []) :=
    .item hne hw (by simp) (fun _ => rfl) (.stop (.inl rfl))
  rwa [List.append_nil, List.append_nil] at h

theorem SortlistText.head_not_space {ws : List (List Char)} {str : List Char}
    (h : SortlistText ws str) : ∀ c r, str = c :: r → isSpace c = false := by
  cases h with
  | stop h =>
    rintro c r rfl
    obtain rfl : c = ';' := by simpa using h
    rfl
  | item hw hi _ _ _ =>
    intro c r h
    obtain ⟨d, w', rfl⟩ := List.exists_cons_of_ne_nil hw
    cases h
    have := hi c (by simp)
    simp only [itemChar, Bool.and_eq_true, bne_iff_ne, Bool.not_eq_true'] at this
    exact this.2

private theorem takeWhile_of_head {α : Type} {p : α → Bool} {s : List α}
    (hs : ∀ c r, s = c :: r → p c = false) : s.takeWhile p = [] := by
  cases s with
  | nil => rfl
  | cons c r => simp [hs c r rfl]

private theorem dropWhile_of_head {α : Type} {p : α → Bool} {s : List α}
    (hs : ∀ c r, s = c :: r → p c = false) : s.dropWhile p = s := by
  cases s with
  | nil => rfl
  | cons c r => simp [hs c r rfl]

section Append

/-! An item `w` followed by the end, a `;` or a blank reads as `w` alone. -/

variable {w s : List Char} (hw : ∀ c ∈ w, itemChar c)
  (hs : ∀ c r, s = c :: r → itemChar c = false)
include hs

theorem ipChar_head (c : Char) (r : List Char) (h : s = c :: r) : ipChar c = false := by
  have := hs c r h
  simp only [itemChar, Bool.and_eq_false_iff, Bool.not_eq_false'] at this
  simp only [ipChar, Bool.and_eq_false_iff, Bool.not_eq_false']
  tauto

theorem sortlistIp_append : sortlistIp (w ++ s) = sortlistIp w := by
  unfold sortlistIp
  rw [List.takeWhile_append]
  split_ifs with h
  · rw [takeWhile_of_head (ipChar_head hs), List.append_nil,
      (List.takeWhile_prefix ipChar).eq_of_length h]
  · rfl

theorem dropWhile_ipChar_append : (w ++ s).dropWhile ipChar = w.dropWhile ipChar ++ s := by
  rw [List.dropWhile_append]
  split_ifs with h
  · rw [List.isEmpty_iff.mp h, List.nil_append, dropWhile_of_head (ipChar_head hs)]
  · rfl

include hw

theorem sortlistCut_append : sortlistCut (w ++ s) = ((sortlistCut w).1, s) := by
  rw [sortlistCut_eq, sortlistCut_eq, dropWhile_ipChar_append hs, sortlistIp_append hs]
  have hc := List.head?_dropWhile_not ipChar w
  have hq : ∀ c ∈ w.dropWhile ipChar, itemChar c := fun c h =>
    hw c ((List.dropWhile_suffix _).subset h)
  generalize w.dropWhile ipChar = q at hc hq ⊢
  rcases q with _ | ⟨c, r⟩
  · cases s with
    | nil => rfl
    | cons d t =>
      have : d ≠ '/' := by rintro rfl; simp [itemChar, isSpace] at hs
      simp [this]
  · obtain rfl : c = '/' := by
      have := hq c (by simp); simp_all [ipChar, itemChar]
    have hr : ∀ x ∈ r, itemChar x := fun x h => hq x (by simp [h])
    simp only [List.cons_append, List.takeWhile_append_of_pos hr, List.dropWhile_append_of_pos hr,
      takeWhile_of_head hs, dropWhile_of_head hs, List.append_nil,
      List.takeWhile_eq_self_iff.mpr hr, List.dropWhile_eq_nil_iff.mpr hr]

theorem sortlistRest_append : sortlistRest (w ++ s) = s.dropWhile isSpace := by
  rw [sortlistRest, sortlistCut_append hw hs]

end Append

/-- On a value made of items, `config_sortlist` is the item-wise reading. -/
theorem configSortlistLoop_text {ws : List (List Char)} {str : List Char}
    (h : SortlistText ws str) :
    ∀ (fuel : Nat) (pats : List Pattern) (n : Nat), str.length < fuel →
      configSortlistLoop e fuel str pats n = sortlistWords e ws pats n := by
  induction h with
  | stop htail =>
    rintro (_ | fuel) pats n hf
    · omega
    · rw [configSortlistLoop, if_pos htail]; rfl
  | @item w g rest ws hne hw hg hsep htext ih =>
    rintro (_ | fuel) pats n hf
    · omega
    have hs : ∀ c r, g ++ rest = c :: r → itemChar c = false := by
      rcases g with _ | ⟨d, g⟩
      · cases hsep rfl
        cases htext with
        | stop h =>
          rintro c r rfl
          obtain rfl : c = ';' := by simpa using h
          rfl
      · rintro c r ⟨⟩; simp [itemChar, hg d (by simp)]
    have hgo : ¬(w ++ g ++ rest = [] ∨ (w ++ g ++ rest).head? = some ';') := by
      obtain ⟨d, w', rfl⟩ := List.exists_cons_of_ne_nil hne
      have := hw d (by simp)
      simp_all [itemChar]
    have hrest : (g ++ rest).dropWhile isSpace = rest := by
      rw [List.dropWhile_append_of_pos hg, dropWhile_of_head htext.head_not_space]
    have hlen : rest.length < fuel := by
      have := List.length_pos.mpr hne; simp only [List.length_append] at hf; omega
    rw [configSortlistLoop_succ e fuel pats n hgo, List.append_assoc, sortlistIp_append hs,
      sortlistCut_append hw hs, sortlistRest_append hw hs, hrest, sortlistWords, itemFits,
      itemPattern]
    simp only [ih _ _ _ hlen]
    by_cases h16 : 16 ≤ (sortlistIp w).length
    · simp [h16, show ¬(sortlistIp w).length < 16 by omega]
    by_cases h32 : (sortlistCut w).1.any (fun x => 32 ≤ x.1.length)
    · simp [h16, h32]
    rcases hI : sortlistItem e (sortlistIp w) (sortlistCut w).1 with st | _ | pat
    · exact absurd hI (sortlistItem_ne_error e _ _ st)
    all_goals simp [show (sortlistIp w).length < 16 by omega, h32]

/-- With every item fitting its buffers and every allocation succeeding, the item-wise reading
is one pattern per item that reads as one, in order. -/
theorem sortlistWords_fits (halloc : ∀ k, e.alloc k = true) :
    ∀ {ws : List (List Char)}, (∀ w ∈ ws, itemFits w) → ∀ (pats : List Pattern) (n : Nat),
      sortlistWords e ws pats n =
        (.success, pats ++ ws.filterMap (itemPattern e), n + (ws.filterMap (itemPattern e)).length)
  | [], _, pats, n => by simp [sortlistWords]
  | w :: ws, hfit, pats, n => by
    have ih := sortlistWords_fits halloc fun w' h => hfit w' (List.mem_cons_of_mem w h)
    rw [sortlistWords, if_pos (hfit w (List.mem_cons_self w ws))]
    cases hp : itemPattern e w <;> simp [hp, halloc, ih, List.filterMap_cons]
    omega

/-- On a value made of items that all fit their buffers, with every allocation succeeding,
`config_sortlist` returns `ARES_SUCCESS` and one pattern per item that reads as one, in
order. -/
theorem configSortlist_items {ws : List (List Char)} {str : List Char} (h : SortlistText ws str)
    (hfit : ∀ w ∈ ws, itemFits w) (halloc : ∀ k, e.alloc k = true) (n : Nat) :
    configSortlist e str n =
      (.success, ws.filterMap (itemPattern e), n + (ws.filterMap (itemPattern e)).length) := by
  rw [configSortlist, configSortlistLoop_text e h _ _ _ (Nat.lt_succ_self _),
    sortlistWords_fits e halloc hfit, List.nil_append]

theorem configSortlist_item {w : List Char} (hne : w ≠ []) (hw : ∀ c ∈ w, itemChar c)
    (n : Nat) : configSortlist e w n = sortlistWords e [w] [] n :=
  configSortlistLoop_text e (.single hne hw) _ _ _ (Nat.lt_succ_self _)

/-! ## Items without a slash -/

section Bare

variable {w : List Char} (h : ∀ c ∈ w, ipChar c)
include h

theorem itemChar_of_ipChar : ∀ c ∈ w, itemChar c := fun c hc => by
  have := h c hc
  simp only [ipChar, itemChar, Bool.and_eq_true] at this ⊢
  exact ⟨this.1.2, this.2⟩

theorem sortlistIp_of_ipChar : sortlistIp w = w := List.takeWhile_eq_self_iff.mpr h

theorem sortlistCut_of_ipChar : sortlistCut w = (none, []) := by
  rw [sortlistCut_eq, List.dropWhile_eq_nil_iff.mpr h]

theorem itemFits_of_ipChar : itemFits w = decide (w.length < 16) := by
  simp [itemFits, sortlistIp_of_ipChar h, sortlistCut_of_ipChar h]

/-- An address text that `ares_inet_net_pton` reads as IPv6 with a positive prefix length is a
CIDR pattern of that length. -/
theorem itemPattern_ipv6 {a : Bytes} {bits : Nat} (hv6 : e.netPton afInet6 w = some (a, bits))
    (hbits : 0 < bits) : itemPattern e w = some (.cidr afInet6 a (bits % 65536)) := by
  simp [itemPattern, sortlistIp_of_ipChar h, sortlistCut_of_ipChar h, sortlistItem, hv6,
    Option.filter, hbits]

end Bare

/-- `2001:db8::1` written out in full is an item that reads as the same 128-bit prefix, but its
20 characters do not fit `ipbuf[17]`: the short spelling gives the pattern and the long one
ends the read with `ARES_EBADSTR`. -/
theorem config_sortlist_long_ipv6 (e : ConfEnv) (n : Nat) (a : Bytes)
    (hshort : e.netPton afInet6 "2001:db8::1".toList = some (a, 128))
    (hlong : e.netPton afInet6 "2001:db8:0:0:0:0:0:1".toList = some (a, 128))
    (halloc : e.alloc n = true) :
    configSortlist e "2001:db8::1".toList n = (.success, [.cidr afInet6 a 128], n + 1) ∧
    itemPattern e "2001:db8:0:0:0:0:0:1".toList = some (.cidr afInet6 a 128) ∧
    configSortlist e "2001:db8:0:0:0:0:0:1".toList n = (.ebadstr, [], n) := by
  have h₁ : ∀ c ∈ "2001:db8::1".toList, ipChar c := by decide
  have h₂ : ∀ c ∈ "2001:db8:0:0:0:0:0:1".toList, ipChar c := by decide
  refine ⟨?_, itemPattern_ipv6 e h₂ hlong (by decide), ?_⟩
  · rw [configSortlist_item e (by decide) (itemChar_of_ipChar h₁), sortlistWords,
      itemFits_of_ipChar h₁, if_pos (by decide), itemPattern_ipv6 e h₁ hshort (by decide)]
    simp [sortlistWords, halloc]
  · rw [configSortlist_item e (by decide) (itemChar_of_ipChar h₂), sortlistWords,
      itemFits_of_ipChar h₂, if_neg (by decide)]

/-- `2001:db8::1`. -/
def db8One : Bytes := [0x20, 0x01, 0x0d, 0xb8, 0, 0, 0, 0, 0, 0, 0, 0, 0, 0, 0, 1]

/-- `ares_inet_pton` and `ares_inet_net_pton` as far as `10.0.0.1` and the two spellings of
`2001:db8::1` go, with an allocator that never fails. -/
def sortlistEnv : ConfEnv where
  localdomain := none
  resOptions := none
  files _ := .missing
  pton f t := if f = afInet ∧ t = "10.0.0.1".toList then some [10, 0, 0, 1] else none
  netPton f t :=
    if f = afInet6 ∧ (t = "2001:db8::1".toList ∨ t = "2001:db8:0:0:0:0:0:1".toList) then
      some (db8One, 128)
    else none
  alloc _ := true

theorem config_sortlist_long_ipv6_sortlistEnv :
    sortlistEnv.netPton afInet6 "2001:db8::1".toList = some (db8One, 128) ∧
    sortlistEnv.netPton afInet6 "2001:db8:0:0:0:0:0:1".toList = some (db8One, 128) ∧
    sortlistEnv.alloc 0 = true ∧
    configSortlist sortlistEnv "2001:db8::1".toList 0 =
      (.success, [.cidr afInet6 db8One 128], 0 + 1) ∧
    itemPattern sortlistEnv "2001:db8:0:0:0:0:0:1".toList = some (.cidr afInet6 db8One 128) ∧
    configSortlist sortlistEnv "2001:db8:0:0:0:0:0:1".toList 0 = (.ebadstr, [], 0) :=
  ⟨by decide, by decide, rfl,
    config_sortlist_long_ipv6 sortlistEnv 0 db8One (by decide) (by decide) rfl⟩

theorem configSortlist_items_sortlistEnv :
    SortlistText ["10.0.0.1".toList, "2001:db8::1".toList] "10.0.0.1 2001:db8::1".toList ∧
    (∀ w ∈ ["10.0.0.1".toList, "2001:db8::1".toList], itemFits w) ∧
    (∀ k, sortlistEnv.alloc k = true) ∧
    configSortlist sortlistEnv "10.0.0.1 2001:db8::1".toList 0 =
      (.success, ["10.0.0.1".toList, "2001:db8::1".toList].filterMap (itemPattern sortlistEnv),
        0 + (["10.0.0.1".toList, "2001:db8::1".toList].filterMap
          (itemPattern sortlistEnv)).length) :=
  have h : SortlistText ["10.0.0.1".toList, "2001:db8::1".toList] "10.0.0.1 2001:db8::1".toList :=
    .item (g := [' ']) (by decide) (by decide) (by decide) (by simp)
      (.single (by decide) (by decide))
  ⟨h, by decide, fun _ => rfl, configSortlist_items sortlistEnv h (by decide) (fun _ => rfl) 0⟩

end CAres
