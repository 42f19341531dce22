import CAres.Spec.Resolv
import Mathlib.Data.List.DropRight

/-! # The options string

`set_options` (`ares_init.c`, lines 1973-2012) reads the value of `RES_OPTIONS` and the value
of an `options` line of `resolv.conf`. It walks the string word by word, a word being a
maximal run of characters other than white space, and `try_option` (lines 2014-2018) only asks
that a word start with an option's name: `rotated` counts as `rotate`, and `ndots:2x` as
`ndots:2`. A count the caller set is kept; one that is 0 takes the first value other than 0
that the words give it, since a value 0 leaves it 0 for the next word. The value is what
`strtoul` reads after the name, and `strtoul` reads past the end of the word: for a word that
is the name alone, it skips the white space and reads the next word, so `ndots: 3` sets
`ndots` to 3. `set_options_words` states the whole loop in these terms. -/

namespace CAres

/-- The words of an options string: its maximal runs of characters other than white space. -/
def optionWords (str : List Char) : List (List Char) :=
  (str.splitOnP isSpace).filter (· ≠ [])

/-- The value `strtoul` reads for a word `w` that starts with the name `opt`, when `next` is
the word after it (empty at the end): the number after the name, or the number that starts the
next word when `w` is the name alone. -/
def optionValue (opt : String) (w next : List Char) : Nat :=
  strtoul (if w.length = opt.length then next else w.drop opt.length)

/-- The values the words `ws` give the option `opt`, in order: one for each word that starts
with its name. -/
def optionValues (opt : String) : List (List Char) → List Nat
  | [] => []
  | w :: ws =>
    if opt.toList <+: w then optionValue opt w (ws.headD []) :: optionValues opt ws
    else optionValues opt ws

/-- A count after the values `vals`: kept when it is set, else the first value other than 0,
else 0. -/
def firstSet (cur : Nat) (vals : List Nat) : Nat :=
  if cur = 0 then (vals.find? (· ≠ 0)).getD 0 else cur

/-- The channel `set_options` leaves, read off the words of the string: each count as
`firstSet` gives it, and `rotate` set when a word starts with `rotate` and the caller chose
neither `ARES_OPT_ROTATE` nor `ARES_OPT_NOROTATE`. -/
def optionsOf (s : ResolvState) (str : List Char) : ResolvState :=
  let ws := optionWords str
  { s with
    config := { s.config with
      ndots := firstSet s.config.ndots (optionValues "ndots:" ws)
      timeout := firstSet s.config.timeout (optionValues "retrans:" ws)
      tries := firstSet s.config.tries (optionValues "retry:" ws) }
    rotate := ws.any ("rotate".toList <+: ·) && !s.optmask.rotate || s.rotate }

/-! ## Words -/

/-- White space before a string adds no word to it. -/
theorem optionWords_dropWhile (p : List Char) :
    optionWords (p.dropWhile isSpace) = optionWords p := by
  conv_rhs => rw [← List.takeWhile_append_dropWhile isSpace p]
  exact (splitOnP_words_append_seps (fun _ hx => List.mem_takeWhile_imp hx) _).symm

/-- A string that starts with a character other than white space starts with the word that
runs up to the next white space. -/
theorem optionWords_cons {c : Char} {cs : List Char} (hc : isSpace c = false) :
    optionWords (c :: cs) =
      (c :: cs).takeWhile (!isSpace ·) ::
        optionWords (((c :: cs).dropWhile (!isSpace ·)).dropWhile isSpace) := by
  rw [optionWords_dropWhile]
  exact splitOnP_words_piece hc

/-! ## `strtoul` on a word -/

private theorem isDigit_of_isSpace {d : Char} (h : isSpace d = true) : d.isDigit = false := by
  simp only [isSpace, Bool.or_eq_true, beq_iff_eq] at h
  rcases h with ((((rfl | rfl) | rfl) | rfl) | rfl) | rfl <;> rfl

/-- The digits end at white space. -/
theorem atoiDigits_append {r : List Char} (hr : r.head?.all isSpace) :
    ∀ (t : List Char) (acc : Nat), atoiDigits (t ++ r) acc = atoiDigits t acc
  | [], acc => by
    cases r with
    | nil => rfl
    | cons d r => simp [atoiDigits, isDigit_of_isSpace (by simpa using hr)]
  | c :: t, acc => by
    simp only [List.cons_append, atoiDigits]
    split
    · exact atoiDigits_append hr t _
    · rfl

/-- `strtoul` of a text that does not start with white space reads nothing past the white
space that follows it. -/
theorem strtoul_append {w r : List Char} (hw : w.head?.any (!isSpace ·))
    (hr : r.head?.all isSpace) : strtoul (w ++ r) = strtoul w := by
  cases w with
  | nil => cases hw
  | cons c cs =>
    have hc : isSpace c = false := by simpa using hw
    rcases em (c = '-' ∨ c = '+') with hs | hs
    · rcases hs with rfl | rfl <;>
        simp only [strtoul, List.cons_append, List.dropWhile_cons, hc, Bool.false_eq_true,
          if_false, atoiDigits_append hr]
    unfold strtoul
    simp only [List.cons_append, List.dropWhile_cons, hc, Bool.false_eq_true, if_false]
    split
    · simp_all
    · simp_all
    rw [← List.cons_append, atoiDigits_append hr]
    symm
    split
    · simp_all
    · simp_all
    · rfl

/-- `strtoul` skips white space and reads the first word. -/
theorem strtoul_eq_headD (r : List Char) : strtoul r = strtoul ((optionWords r).headD []) := by
  have hskip : strtoul r = strtoul (r.dropWhile isSpace) := by
    simp only [strtoul, List.dropWhile_idempotent]
  rw [hskip, ← optionWords_dropWhile r]
  rcases hq : r.dropWhile isSpace with _ | ⟨c, cs⟩
  · rfl
  have hc : isSpace c = false := by
    simpa [hq] using List.head?_dropWhile_not isSpace r
  rw [optionWords_cons hc, List.headD_cons]
  conv_lhs => rw [← List.takeWhile_append_dropWhile (!isSpace ·) (c :: cs)]
  refine strtoul_append (by simp [List.takeWhile_cons, hc]) ?_
  have := List.head?_dropWhile_not (!isSpace ·) (c :: cs)
  revert this
  rcases ((c :: cs).dropWhile (!isSpace ·)).head? with _ | d <;> simp

/-! ## One word -/

/-- `try_option` at the word `w` of the rest `w ++ r`: the text after the name when the word
starts with it. -/
theorem tryOption_word (w r : List Char) (opt : String) :
    tryOption (w ++ r) w.length opt =
      if opt.toList <+: w then some ((w ++ r).drop opt.length) else none := by
  have hlen : opt.toList.length = opt.length := rfl
  have hiff : (opt.length ≤ w.length ∧ (w ++ r).take opt.length = opt.toList) ↔
      opt.toList <+: w := by
    rw [List.prefix_iff_eq_take, hlen]
    constructor
    · rintro ⟨hle, ht⟩
      rw [List.take_append_of_le_length hle] at ht
      exact ht.symm
    · intro h
      have hle : opt.length ≤ w.length := by
        have := congrArg List.length h
        rw [List.length_take, hlen] at this
        omega
      exact ⟨hle, by rw [List.take_append_of_le_length hle, ← h]⟩
  simp only [tryOption, hiff]

theorem isSome_tryOption_word (w r : List Char) (opt : String) :
    (tryOption (w ++ r) w.length opt).isSome = decide (opt.toList <+: w) := by
  rw [tryOption_word]
  split_ifs with hp <;> simp only [hp, Option.isSome_some, Option.isSome_none, decide_True,
    decide_False]

/-- An empty word starts with no option. -/
theorem tryOption_zero (p : List Char) {opt : String} (h : 0 < opt.length) :
    tryOption p 0 opt = none := by
  simp only [tryOption, Nat.le_zero, Nat.pos_iff_ne_zero.mp h, false_and, if_false]

section Word

variable {w r : List Char} (hw : ∀ x ∈ w, isSpace x = false) (hr : r.head?.all isSpace)
include hw hr

/-- What `strtoul` reads after the name `opt` at a word that starts with it. -/
theorem strtoul_drop_word {opt : String} (hp : opt.toList <+: w) :
    strtoul ((w ++ r).drop opt.length) = optionValue opt w ((optionWords r).headD []) := by
  unfold optionValue
  split_ifs with hlen
  · rw [← hlen, List.drop_left]
    exact strtoul_eq_headD r
  · have hlt : opt.length < w.length := lt_of_le_of_ne hp.length_le (Ne.symm hlen)
    rw [List.drop_append_of_le_length hlt.le]
    refine strtoul_append ?_ hr
    rw [List.head?_drop, List.getElem?_eq_getElem hlt]
    simpa using hw _ (List.getElem_mem hlt)

/-- `setCount` at the word `w` of `w ++ r`. -/
theorem setCount_word (opt : String) (cur : Nat) :
    setCount (w ++ r) w.length opt cur =
      if opt.toList <+: w then
        (if cur = 0 then optionValue opt w ((optionWords r).headD []) else cur)
      else cur := by
  unfold setCount
  rw [tryOption_word]
  by_cases hp : opt.toList <+: w
  · simp only [hp, if_true, strtoul_drop_word hw hr hp]
  · simp only [hp, if_false]

end Word

theorem firstSet_nil (cur : Nat) : firstSet cur [] = cur := by
  by_cases hc : cur = 0 <;> simp [firstSet, hc]

/-- A value counts only while the count is 0. -/
theorem firstSet_cons (cur v : Nat) (vs : List Nat) :
    firstSet cur (v :: vs) = firstSet (if cur = 0 then v else cur) vs := by
  by_cases hc : cur = 0 <;> by_cases hv : v = 0 <;> simp [firstSet, hc, hv]

theorem firstSet_optionValues_cons (opt : String) (cur : Nat) (w : List Char)
    (ws : List (List Char)) :
    firstSet cur (optionValues opt (w :: ws)) =
      firstSet (if opt.toList <+: w then
        (if cur = 0 then optionValue opt w (ws.headD []) else cur) else cur)
        (optionValues opt ws) := by
  rw [optionValues]
  by_cases hp : opt.toList <+: w <;> simp only [hp, if_true, if_false, firstSet_cons]

/-! ## The loop -/

/-- A round of the loop at white space reads no option and skips the white space. -/
theorem setOptionsLoop_space {c : Char} (cs : List Char) (hc : isSpace c) (fuel : Nat)
    (s : ResolvState) :
    setOptionsLoop (fuel + 1) (c :: cs) s =
      setOptionsLoop fuel ((c :: cs).dropWhile isSpace) s := by
  have h0 : ((c :: cs).takeWhile (!isSpace ·)).length = 0 := by simp [hc]
  simp only [setOptionsLoop, List.cons_ne_nil, if_false, h0, List.drop_zero, setCount,
    tryOption_zero _ (by decide : 0 < "ndots:".length),
    tryOption_zero _ (by decide : 0 < "retrans:".length),
    tryOption_zero _ (by decide : 0 < "retry:".length),
    tryOption_zero _ (by decide : 0 < "rotate".length), Option.isSome_none, Bool.false_and,
    Bool.false_eq_true]

/-- The loop of `set_options`, given enough fuel, leaves the channel `optionsOf` describes. -/
theorem setOptionsLoop_words : ∀ (fuel : Nat) (p : List Char) (s : ResolvState),
    p.length < fuel → setOptionsLoop fuel p s = optionsOf s p
  | 0, _, _, h => absurd h (Nat.not_lt_zero _)
  | fuel + 1, [], s, _ => by
    simp [setOptionsLoop, optionsOf, optionWords, optionValues, firstSet_nil]
  | fuel + 1, c :: cs, s, h => by
    by_cases hc : isSpace c
    · have hlen : ((c :: cs).dropWhile isSpace).length < fuel := by
        have := (List.dropWhile_sublist (l := cs) isSpace).length_le
        simp only [List.dropWhile_cons, hc, if_true, List.length_cons] at h ⊢
        omega
      rw [setOptionsLoop_space cs hc, setOptionsLoop_words fuel _ s hlen]
      simp only [optionsOf, optionWords_dropWhile]
    · rw [setOptionsLoop, if_neg (List.cons_ne_nil c cs)]
      have hc' : isSpace c = false := by simpa using hc
      have hsplit := List.takeWhile_append_dropWhile (!isSpace ·) (c :: cs)
      have hwords := @optionWords_cons c cs hc'
      set w := (c :: cs).takeWhile (!isSpace ·)
      set r := (c :: cs).dropWhile (!isSpace ·)
      have hw : ∀ x ∈ w, isSpace x = false := fun x hx => by
        simpa using List.mem_takeWhile_imp hx
      have hr : r.head?.all isSpace := by
        have := List.head?_dropWhile_not (!isSpace ·) (c :: cs)
        revert this
        rcases r.head? with _ | d <;> simp
      have hlen : (r.dropWhile isSpace).length < fuel := by
        have h₁ := (List.dropWhile_sublist (l := r) isSpace).length_le
        have h₂ : r.length ≤ cs.length := by
          simp only [r, List.dropWhile_cons, hc', Bool.not_false, if_true]
          exact (List.dropWhile_sublist _).length_le
        simp only [List.length_cons] at h
        omega
      rw [← hsplit] at hwords ⊢
      dsimp only
      have hrot : ∀ a b m t : Bool,
          (a && m || if (b && m) = true then true else t) = ((b || a) && m || t) := by decide
      rw [List.drop_left, setCount_word hw hr, setCount_word hw hr, setCount_word hw hr,
        isSome_tryOption_word, setOptionsLoop_words fuel _ _ hlen]
      simp only [optionsOf, hwords, optionWords_dropWhile, firstSet_optionValues_cons,
        List.any_cons, hrot]

/-- `set_options`, word by word: a count the caller set is kept, one that is 0 takes the first
value other than 0 among the words that start with its name, the value after a name alone
being the next word's, and `rotate` is set by any word that starts with `rotate` unless the
caller chose it. -/
theorem set_options_words (s : ResolvState) (str : List Char) :
    setOptions s str = optionsOf s str :=
  setOptionsLoop_words _ str s (Nat.lt_succ_self _)

example : (setOptions unsetState "ndots: 3 retry:0 retry:2x rotated".toList).config.ndots = 3 ∧
    (setOptions unsetState "ndots: 3 retry:0 retry:2x rotated".toList).config.tries = 2 ∧
    (setOptions unsetState "ndots: 3 retry:0 retry:2x rotated".toList).rotate = true := by
  decide

end CAres
