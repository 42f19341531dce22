import CAres.Spec.Resolv

/-! # The lines of the resolver files

`try_config` (`ares_init.c`, lines 2022-2103) reads a line of `resolv.conf`, `nsswitch.conf`,
`host.conf` or `svc.conf` for one directive. The lines it accepts, and the value it returns,
are those of a grammar (`try_config_grammar`): white space, the directive, a separator of white
space, which may be empty only when the directive ends in `:` or `=`, the value, which starts
and ends with a character other than white space, white space again, and then the end of the
line or a comment, started by `#` or by the second comment character. Nothing before the
comment is a comment character, so one inside a value cuts the line there. No two of the
directives of `resolv.conf` start one another, so a line is accepted for at most one of them
(`tryConfig_exclusive`).

`config_lookup` (lines 1553-1596) reads only the first character of each word of its value,
and keeps the letters of the first two words that name a source (`config_lookup_words`).

On a `resolv.conf` without `lookup` and `sortlist` lines, read while the channel has no
server, `init_by_resolv_conf` succeeds. The channel's servers are then those of the
`nameserver` lines, in file order, one per piece `parse_dnsaddrport` accepts
(`resolv_conf_servers`). -/

namespace CAres

/-- A character that starts a comment on a line read with second comment character `scc`: `#`,
or `scc` unless it is `'\x00'`. -/
def isComment (scc c : Char) : Bool := c == '#' || (scc != '\x00' && c == scc)

/-- The parts of a line `ws₁ ++ opt ++ sep ++ v ++ ws₂ ++ rest` that sets directive `opt` to
`v`. -/
structure DirectiveParts (scc : Char) (opt v ws₁ sep ws₂ rest : List Char) : Prop where
  /-- The white space before the directive, between it and the value, and after the value. -/
  blank : ∀ c ∈ ws₁ ++ sep ++ ws₂, isSpace c
  /-- No comment starts before `rest`. -/
  uncommented : ∀ c ∈ ws₁ ++ opt ++ sep ++ v ++ ws₂, isComment scc c = false
  /-- The line ends, or a comment starts. -/
  comment : rest.head?.all (isComment scc)
  opt_head : opt.head?.any (!isSpace ·)
  value_head : v.head?.any (!isSpace ·)
  value_last : v.getLast?.any (!isSpace ·)
  /-- A directive not ending in `:` or `=` is followed by white space. -/
  separated : sep = [] → opt.getLast? = some ':' ∨ opt.getLast? = some '='

/-- The white space trimming of `try_config`, at both ends. -/
def trimSpace (s : List Char) : List Char :=
  (s.reverse.dropWhile isSpace).reverse.dropWhile isSpace

/-- The comment cut of `try_config` keeps the characters before the first comment character. -/
theorem not_isComment (scc c : Char) :
    (c != '#' && (scc == '\x00' || c != scc)) = !isComment scc c := by
  simp only [isComment, bne, Bool.not_or, Bool.not_and, Bool.not_not]

section Lists

variable {α : Type} {p : α → Bool}

private theorem dropWhile_of_head_any {l : List α} (h : l.head?.any (!p ·)) :
    l.dropWhile p = l := by
  cases l with
  | nil => rfl
  | cons a l => rw [List.dropWhile_cons, if_neg (by simpa using h)]

private theorem head?_any_append {l l' : List α} {q : α → Bool} (h : l.head?.any q) :
    (l ++ l').head?.any q := by
  cases l with
  | nil => cases h
  | cons a l => exact h

private theorem getLast?_any_append {l l' : List α} {q : α → Bool} (h : l'.getLast?.any q) :
    (l ++ l').getLast?.any q := by
  rcases hl : l'.getLast? with _ | a
  · rw [hl] at h; cases h
  · rw [List.getLast?_append, hl]; rwa [hl] at h

private theorem head?_all_dropWhile (l : List α) : (l.dropWhile p).head?.all (!p ·) := by
  have := List.head?_dropWhile_not p l
  revert this
  rcases (l.dropWhile p).head? with _ | a <;> simp

private theorem takeWhile_of_head_all {l : List α} (h : l.head?.all (!p ·)) :
    l.takeWhile p = [] := by
  cases l with
  | nil => rfl
  | cons a l => rw [List.takeWhile_cons, if_neg (by simpa using h)]

private theorem any_of_all {o : Option α} (hs : o.isSome) (h : o.all p) : o.any p := by
  cases o with
  | none => cases hs
  | some a => exact h

end Lists

/-- White space around a text that starts and ends with another character is trimmed away,
and only it. -/
theorem trimSpace_append {ws₁ m ws₂ : List Char} (h₁ : ∀ c ∈ ws₁, isSpace c)
    (h₂ : ∀ c ∈ ws₂, isSpace c) (hh : m.head?.any (!isSpace ·))
    (hl : m.getLast?.any (!isSpace ·)) : trimSpace (ws₁ ++ m ++ ws₂) = m := by
  have hr : (m.reverse ++ ws₁.reverse).dropWhile isSpace = m.reverse ++ ws₁.reverse :=
    dropWhile_of_head_any (head?_any_append (by rwa [List.head?_reverse]))
  rw [trimSpace, List.reverse_append, List.dropWhile_append_of_pos (by simpa using h₂),
    List.reverse_append, hr, List.reverse_append, List.reverse_reverse, List.reverse_reverse,
    List.dropWhile_append_of_pos h₁, dropWhile_of_head_any hh]

/-- Every text is its trim between white space, and a trimmed text that is not empty starts
and ends with a character other than white space. -/
theorem trimSpace_parts (s : List Char) :
    ∃ ws₁ ws₂, s = ws₁ ++ trimSpace s ++ ws₂ ∧ (∀ c ∈ ws₁ ++ ws₂, isSpace c) ∧
      (trimSpace s).head?.all (!isSpace ·) ∧ (trimSpace s).getLast?.all (!isSpace ·) := by
  set r := s.reverse.dropWhile isSpace
  have hs : s = r.reverse ++ (s.reverse.takeWhile isSpace).reverse := by
    rw [← List.reverse_append, List.takeWhile_append_dropWhile, List.reverse_reverse]
  have hr : r.reverse = r.reverse.takeWhile isSpace ++ trimSpace s :=
    (List.takeWhile_append_dropWhile _ _).symm
  refine ⟨r.reverse.takeWhile isSpace, (s.reverse.takeWhile isSpace).reverse, ?_, ?_,
    head?_all_dropWhile _, ?_⟩
  · rw [← hr]; exact hs
  · intro c hc
    rcases List.mem_append.mp hc with hc | hc
    · exact List.mem_takeWhile_imp hc
    · exact List.mem_takeWhile_imp (List.mem_reverse.mp hc)
  · rcases ht : (trimSpace s).getLast? with _ | a
    · rfl
    · have hlast : r.reverse.getLast? = some a := by
        rw [hr, List.getLast?_append, ht]; rfl
      rw [List.getLast?_reverse] at hlast
      rw [← hlast]
      exact head?_all_dropWhile s.reverse

/-- A line `try_config` accepts for `opt` is made of the parts of the grammar around the value
it returns. -/
theorem tryConfig_parts {line opt v : List Char} {scc : Char}
    (h : tryConfig line opt scc = some v) :
    ∃ ws₁ sep ws₂ rest, line = ws₁ ++ opt ++ sep ++ v ++ ws₂ ++ rest ∧
      DirectiveParts scc opt v ws₁ sep ws₂ rest := by
  set t := line.takeWhile (!isComment scc ·)
  obtain ⟨ws₁, ws₂, ht, hblank, hhead, hlast⟩ := trimSpace_parts t
  simp only [tryConfig, not_isComment] at h
  rw [show ((t.reverse.dropWhile isSpace).reverse.dropWhile isSpace) = trimSpace t from rfl] at h
  split_ifs at h with hc
  simp only [not_or, not_not] at hc
  obtain ⟨hp0, hopt, htake⟩ := hc
  split at h
  · cases h
  rename_i c rest' hd
  split_ifs at h with hg hv
  cases h
  set sep := (c :: rest').takeWhile isSpace
  have hp : trimSpace t = opt ++ sep ++ (c :: rest').dropWhile isSpace := by
    rw [List.append_assoc, List.takeWhile_append_dropWhile, ← hd, ← htake]
    conv_lhs => rw [← List.take_append_drop opt.length (trimSpace t)]
    rw [htake]
  rw [hp] at ht hhead hlast
  refine ⟨ws₁, sep, ws₂, line.dropWhile (!isComment scc ·), ?_,
    ⟨?_, ?_, ?_, ?_, ?_, ?_, ?_⟩⟩
  · calc line = t ++ line.dropWhile (!isComment scc ·) :=
          (List.takeWhile_append_dropWhile _ _).symm
      _ = _ := by rw [ht]; simp only [List.append_assoc]
  · intro x hx
    simp only [List.mem_append] at hx
    rcases hx with (hx | hx) | hx
    · exact hblank x (List.mem_append_left _ hx)
    · exact List.mem_takeWhile_imp hx
    · exact hblank x (List.mem_append_right _ hx)
  · intro x hx
    have : x ∈ t := by rw [ht]; simpa [List.append_assoc] using hx
    simpa using List.mem_takeWhile_imp this
  · simpa using head?_all_dropWhile (p := (!isComment scc ·)) line
  · obtain ⟨o, os, rfl⟩ := List.exists_cons_of_ne_nil hopt
    simpa using hhead
  · exact any_of_all (by simpa [List.head?_eq_none_iff] using hv) (head?_all_dropWhile _)
  · refine any_of_all (by simpa [List.getLast?_eq_none_iff] using hv) ?_
    rwa [List.getLast?_append, Option.or_of_isSome (by simpa [List.getLast?_eq_none_iff] using hv)]
      at hlast
  · intro hs
    have hc : isSpace c = false := by simpa [sep, List.takeWhile_cons] using hs
    simp only [hc, Bool.not_false, and_true, not_and, not_not] at hg
    by_cases h : opt.getLast? = some ':'
    · exact .inl h
    · exact .inr (hg h)

/-- A line made of the parts of the grammar is accepted, with its value. -/
theorem tryConfig_of_parts {opt v ws₁ sep ws₂ rest : List Char} {scc : Char}
    (hp : DirectiveParts scc opt v ws₁ sep ws₂ rest) :
    tryConfig (ws₁ ++ opt ++ sep ++ v ++ ws₂ ++ rest) opt scc = some v := by
  have hb : ∀ c ∈ ws₁ ++ sep ++ ws₂, isSpace c := hp.blank
  simp only [List.mem_append, or_imp, forall_and] at hb
  have hcut : (ws₁ ++ opt ++ sep ++ v ++ ws₂ ++ rest).takeWhile (!isComment scc ·) =
      ws₁ ++ (opt ++ sep ++ v) ++ ws₂ := by
    rw [List.takeWhile_append_of_pos (fun c hc => by simp [hp.uncommented c hc]),
      takeWhile_of_head_all (by simpa using hp.comment)]
    simp only [List.append_nil, List.append_assoc]
  have htrim : trimSpace (ws₁ ++ (opt ++ sep ++ v) ++ ws₂) = opt ++ sep ++ v :=
    trimSpace_append hb.1.1 hb.2 (head?_any_append (head?_any_append hp.opt_head))
    (getLast?_any_append hp.value_last)
  have hopt : opt ≠ [] := by rintro rfl; cases hp.opt_head
  simp only [tryConfig, not_isComment, hcut]
  rw [show ((List.reverse (ws₁ ++ (opt ++ sep ++ v) ++ ws₂)).dropWhile
    isSpace).reverse.dropWhile isSpace = _ from htrim, List.append_assoc, List.take_left' rfl,
    List.drop_left' rfl, if_neg (by simp [hopt])]
  obtain ⟨c, cs, rfl⟩ :=
    List.exists_cons_of_ne_nil (l := v) (by rintro rfl; cases hp.value_head)
  have hc : isSpace c = false := by simpa using hp.value_head
  cases sep with
  | nil =>
    rcases hp.separated rfl with h | h <;> simp [h, hc]
  | cons s ss =>
    have hs : ∀ x ∈ s :: ss, isSpace x := hb.1.2
    simp only [List.cons_append]
    rw [if_neg (by simp [hs s (List.mem_cons_self _ _)]),
      ← List.cons_append, List.dropWhile_append_of_pos hs,
      dropWhile_of_head_any (by simp [hc])]
    simp

/-- `try_config` accepts a line for directive `opt` and returns `v` exactly when the line is
white space, `opt`, a separator, `v`, white space, and the end of the line or a comment, as
`DirectiveParts` says. -/
theorem try_config_grammar (line opt v : List Char) (scc : Char) :
    tryConfig line opt scc = some v ↔
      ∃ ws₁ sep ws₂ rest, line = ws₁ ++ opt ++ sep ++ v ++ ws₂ ++ rest ∧
        DirectiveParts scc opt v ws₁ sep ws₂ rest :=
  ⟨tryConfig_parts, fun ⟨_, _, _, _, hl, hp⟩ => hl ▸ tryConfig_of_parts hp⟩

/-- A directive `try_config` accepts starts the trimmed line. -/
theorem tryConfig_head_directive {line opt v : List Char} {scc : Char}
    (h : tryConfig line opt scc = some v) :
    opt <+: trimSpace (line.takeWhile (!isComment scc ·)) := by
  simp only [tryConfig, not_isComment] at h
  split_ifs at h with hc
  simp only [not_or, not_not] at hc
  have := List.take_prefix opt.length (trimSpace (line.takeWhile (!isComment scc ·)))
  rwa [show List.take opt.length (trimSpace _) = opt from hc.2.2] at this

/-- A line is accepted for at most one of two directives neither of which starts the other. -/
theorem tryConfig_exclusive {line o₁ o₂ v : List Char} {scc : Char}
    (h : tryConfig line o₁ scc = some v) (h₁ : ¬o₁ <+: o₂) (h₂ : ¬o₂ <+: o₁) :
    tryConfig line o₂ scc = none := by
  rcases h' : tryConfig line o₂ scc with _ | v'
  · rfl
  · exact ((List.prefix_or_prefix_of_prefix (tryConfig_head_directive h)
      (tryConfig_head_directive h')).elim h₁ h₂).elim

/-! ## `config_lookup` -/

/-- The letter `config_lookup` records for a word: `b` for one that starts with `bindch` or
`altbindch`, `f` for one that starts with `filech`, and none for another. -/
def lookupLetter (bindch altbindch filech : Char) : List Char → Option Char
  | c :: _ =>
    if c = bindch ∨ c = altbindch then some 'b' else if c = filech then some 'f' else none
  | [] => none

theorem lookupLetter_cons (b a f c : Char) (w : List Char) :
    lookupLetter b a f (c :: w) =
      if c = b ∨ c = a ∨ c = f then some (if c = b ∨ c = a then 'b' else 'f') else none := by
  simp only [lookupLetter]
  split_ifs <;> first | rfl | tauto

section Lookup

variable {b a f : Char} (hb : isNameserverSep b = false) (ha : isNameserverSep a = false)
  (hf : isNameserverSep f = false)
include hb ha hf

/-- The loop of `config_lookup`, with enough fuel and at most two letters so far, appends the
letters of the words of `s` up to two, and finds a source if it appends one. -/
theorem configLookupLoop_words : ∀ (fuel : Nat) (s l : List Char) (found : Bool),
    s.length < fuel → l.length ≤ 2 →
      configLookupLoop b a f fuel s l found =
        ((l ++ (nameserverTokens s).filterMap (lookupLetter b a f)).take 2,
          found || (decide (l.length < 2) &&
            !((nameserverTokens s).filterMap (lookupLetter b a f)).isEmpty))
  | 0, _, _, _, h, _ => absurd h (Nat.not_lt_zero _)
  | fuel + 1, [], l, found, _, hl => by
    simp [configLookupLoop, nameserverTokens, List.take_of_length_le hl]
  | fuel + 1, c :: cs, l, found, hs, hl => by
    have hsep : (fun x => !isSpace x && x != ',') = (!isNameserverSep ·) := by
      funext x; simp [isNameserverSep, Bool.not_or, bne]
    have hskip : ∀ r : List Char,
        nameserverTokens r = nameserverTokens (r.dropWhile isNameserverSep) := fun r => by
      conv_lhs => rw [← List.takeWhile_append_dropWhile isNameserverSep r]
      exact nameserverTokens_append_seps (fun x hx => List.mem_takeWhile_imp hx) _
    have hcs : ∀ r, r <:+ cs → (r.dropWhile isNameserverSep).length < fuel := fun r hr => by
      have := (List.dropWhile_suffix isNameserverSep (l := r)).length_le
      have := hr.length_le
      simp only [List.length_cons] at hs
      omega
    rw [configLookupLoop, hsep]
    by_cases hc : isNameserverSep c = true
    · have hnot : ¬(c = b ∨ c = a ∨ c = f) := by rintro (rfl | rfl | rfl) <;> simp_all
      rw [if_neg fun h => hnot h.1, hskip (c :: cs)]
      dsimp only
      rw [show (fun x => isSpace x || x == ',') = isNameserverSep from rfl]
      simp only [List.dropWhile_cons, hc, Bool.not_true, Bool.false_eq_true, if_false, if_true]
      exact configLookupLoop_words fuel _ l found (hcs _ (List.suffix_refl _)) hl
    have hc' : isNameserverSep c = false := by simpa using hc
    have hrest : (c :: cs).dropWhile (!isNameserverSep ·) <:+ cs := by
      rw [List.dropWhile_cons, if_pos (by simp [hc'])]
      exact List.dropWhile_suffix _
    have ih := fun l found => configLookupLoop_words fuel _ l found (hcs _ hrest)
    dsimp only
    have htw : (c :: cs).takeWhile (!isNameserverSep ·) =
        c :: cs.takeWhile (!isNameserverSep ·) := by
      simp [List.takeWhile_cons, hc']
    rw [show (fun x => isSpace x || x == ',') = isNameserverSep from rfl,
      nameserverTokens_piece hc', htw, List.filterMap_cons, lookupLetter_cons,
      hskip ((c :: cs).dropWhile _)]
    by_cases hm : c = b ∨ c = a ∨ c = f
    · by_cases hlt : l.length < 2
      · rw [if_pos ⟨hm, hlt⟩]
        dsimp only
        rw [ih _ _ (by simp only [List.length_append, List.length_singleton]; omega)]
        simp [hm, hlt]
      · rw [if_neg fun h => hlt h.2]
        dsimp only
        rw [ih _ _ hl, if_pos hm, List.take_left' (by omega),
          List.take_left' (by omega)]
        simp [hlt]
    · rw [if_neg fun h => hm h.1, if_neg hm]
      exact ih _ _ hl

end Lookup

/-- `config_lookup`, when no source character is a separator: only the first character of each
word counts, the lookup order is the letters of the first two words that name a source, and
`ARES_ENOTINITIALIZED` is returned, with nothing changed, when no word names one. -/
theorem config_lookup_words (e : ConfEnv) (c : InitConfig) (str : List Char) {b f : Char}
    {a : Option Char} (hb : isNameserverSep b = false) (ha : isNameserverSep (a.getD b) = false)
    (hf : isNameserverSep f = false) (n : Nat) :
    configLookup e c str b a f n =
      if (nameserverTokens str).filterMap (lookupLetter b (a.getD b) f) = [] then
        (.enotinitialized, c, n)
      else if e.alloc n then
        (.success, { c with lookups := some (String.mk
          (((nameserverTokens str).filterMap (lookupLetter b (a.getD b) f)).take 2)) }, n + 1)
      else (.enomem, { c with lookups := none }, n + 1) := by
  unfold configLookup
  rw [configLookupLoop_words hb ha hf _ str [] false (Nat.lt_succ_self _) (Nat.zero_le _)]
  simp only [List.nil_append, List.length_nil, show decide (0 < 2) = true from rfl,
    Bool.true_and, Bool.false_or, Bool.not_not, List.isEmpty_iff]

theorem config_lookup_words_nsswitch :
    isNameserverSep 'd' = false ∧ isNameserverSep ((some 'r').getD 'd') = false ∧
      isNameserverSep 'f' = false ∧
      configLookup (resolvEnv none []) unsetState.config "files dns resolve".toList 'd' (some 'r')
        'f' 0 = (.success, { unsetState.config with lookups := some "fb" }, 1) :=
  ⟨by decide, by decide, by decide,
    (config_lookup_words _ _ _ (by decide) (by decide) (by decide) 0).trans (by decide)⟩

/-! ## The servers of `resolv.conf` -/

/-- The servers a `nameserver` value lists: one for each piece `parse_dnsaddrport` accepts. -/
def valueServers (pton : Nat → List Char → Option Bytes) (v : List Char) : List AresAddr :=
  (nameserverTokens v).filterMap fun tok => (parseDnsaddrport pton tok '\x00').map serverOf

/-- The servers a line of `resolv.conf` lists, if it is a `nameserver` line. -/
def lineServers (pton : Nat → List Char → Option Bytes) (line : List Char) : List AresAddr :=
  ((tryConfig line "nameserver".toList ';').map (valueServers pton)).getD []

theorem setOptionsLoop_servers : ∀ (fuel : Nat) (p : List Char) (s : ResolvState),
    (setOptionsLoop fuel p s).config.servers = s.config.servers ∧
      (setOptionsLoop fuel p s).config.nservers = s.config.nservers
  | 0, _, _ => ⟨rfl, rfl⟩
  | fuel + 1, p, s => by
    rw [setOptionsLoop]
    split
    · exact ⟨rfl, rfl⟩
    · exact setOptionsLoop_servers fuel _ _

section Servers

variable {e : ConfEnv} (halloc : ∀ k, e.alloc k = true)
include halloc

theorem configNameserverFrom_servers (n : Nat) (servers : List AresAddr) (v : List Char) :
    configNameserverFrom e n servers v =
      (.success, servers ++ valueServers e.pton v, n + (valueServers e.pton v).length) := by
  have : (fun k => e.alloc (n + k)) = fun _ => true := funext fun _ => halloc _
  unfold configNameserverFrom configNameserver
  rw [this, configNameserverLoop_tokens _ v 0 servers (Nat.lt_succ_self _)]
  simp [valueServers]

/-- A line of `resolv.conf` other than a `lookup` or a `sortlist` line, read while the channel
has no server: it succeeds, appends the servers of a `nameserver` line to those read, and
leaves the channel's own servers as they are. -/
theorem resolvConfLine_servers {u : Bool} {line : List Char} {r : ConfRead}
    (hn : r.st.config.nservers = 0) (hl : tryConfig line "lookup".toList ';' = none)
    (hs : tryConfig line "sortlist".toList ';' = none) :
    (resolvConfLine e u line r).1 = .success ∧
      (resolvConfLine e u line r).2.servers = r.servers ++ lineServers e.pton line ∧
      (resolvConfLine e u line r).2.st.config.servers = r.st.config.servers ∧
      (resolvConfLine e u line r).2.st.config.nservers = 0 := by
  unfold resolvConfLine
  simp only [hl, hs, hn, ite_self, decide_True, if_true]
  rcases hnm : tryConfig line "nameserver".toList ';' with _ | v
  · have h0 : lineServers e.pton line = [] := by rw [lineServers, hnm]; rfl
    rw [h0, List.append_nil]
    split
    · rename_i p _
      obtain ⟨d, n, hsd⟩ := setSearch_eq r.st.config (p.takeWhile (!isSpace ·))
      simp [configDomain, hsd, hn]
    split
    · rename_i p _
      obtain ⟨d, n, hsd⟩ := setSearch_eq r.st.config p
      simp [hsd, hn]
    split
    · rename_i h; cases h
    split
    · rename_i p _
      have := setOptionsLoop_servers (p.length + 1) p r.st
      simp [setOptions, this, hn]
    · simp [hn]
  · have hd : (if u = true then tryConfig line "domain".toList ';' else none) = none := by
      split
      · exact tryConfig_exclusive hnm (by decide) (by decide)
      · rfl
    have hse : (if u = true then tryConfig line "search".toList ';' else none) = none := by
      split
      · exact tryConfig_exclusive hnm (by decide) (by decide)
      · rfl
    rw [hd, hse]
    simp only
    rw [configNameserverFrom_servers halloc, lineServers, hnm]
    simp [hn]

/-- The read loop over lines of `resolv.conf` none of which is a `lookup` or a `sortlist`
line, while the channel has no server: it reaches the end of the file, and the servers read
are those of the `nameserver` lines, in order. -/
theorem resolvConfLines_servers {u : Bool} : ∀ (ls : List (List Char)) {r : ConfRead},
    r.st.config.nservers = 0 →
    (∀ line ∈ ls, tryConfig line "lookup".toList ';' = none ∧
      tryConfig line "sortlist".toList ';' = none) →
    (resolvConfLines e u ls r).1 = .eof ∧
      (resolvConfLines e u ls r).2.servers = r.servers ++ ls.flatMap (lineServers e.pton) ∧
      (resolvConfLines e u ls r).2.st.config.servers = r.st.config.servers ∧
      (resolvConfLines e u ls r).2.st.config.nservers = 0
  | [], r, hn, _ => ⟨rfl, by simp [resolvConfLines], rfl, hn⟩
  | line :: rest, r, hn, hls => by
    have hline := hls line (List.mem_cons_self _ _)
    obtain ⟨h₁, h₂, h₃, h₄⟩ := resolvConfLine_servers halloc (u := u) hn hline.1 hline.2
    rw [resolvConfLines]
    rcases hr : resolvConfLine e u line r with ⟨st, r'⟩
    rw [hr] at h₁ h₂ h₃ h₄
    cases h₁
    obtain ⟨ih₁, ih₂, ih₃, ih₄⟩ :=
      resolvConfLines_servers rest h₄ fun l hl => hls l (List.mem_cons_of_mem _ hl)
    refine ⟨ih₁, ?_, ih₃.trans h₃, ih₄⟩
    rw [ih₂, h₂, List.flatMap_cons, List.append_assoc]

end Servers

/-- When the channel has no server and no allocation fails, `init_by_resolv_conf` on a
`resolv.conf` without `lookup` and `sortlist` lines succeeds, and the channel's servers are
then those the `nameserver` lines list, in order, if they list any; otherwise they are left as
they were. -/
theorem resolv_conf_servers {e : ConfEnv} {s : ResolvState} {ls : List (List Char)}
    (halloc : ∀ k, e.alloc k = true)
    (hfile : e.files (s.resolvconfPath.getD pathResolvConf) = .lines ls)
    (hn : s.config.nservers = 0)
    (hls : ∀ line ∈ ls, tryConfig line "lookup".toList ';' = none ∧
      tryConfig line "sortlist".toList ';' = none) :
    (initByResolvConf e s).1 = .success ∧
      (initByResolvConf e s).2.config.servers =
        (if ls.flatMap (lineServers e.pton) = [] then s.config.servers
          else ls.flatMap (lineServers e.pton)) ∧
      (initByResolvConf e s).2.config.nservers = (ls.flatMap (lineServers e.pton)).length := by
  obtain ⟨h₁, h₂, h₃, h₄⟩ := resolvConfLines_servers halloc (e := e)
    (u := decide (s.config.ndomains = 0)) ls (r := ⟨s, [], [], 0⟩) hn hls
  unfold initByResolvConf
  rw [if_neg (by simp [configCheck, hn])]
  dsimp only
  rw [hfile]
  dsimp only
  rcases hr : resolvConfLines e (decide (s.config.ndomains = 0)) ls ⟨s, [], [], 0⟩ with
    ⟨st, r⟩
  rw [hr] at h₁ h₂ h₃ h₄
  cases h₁
  simp only [List.nil_append] at h₂
  obtain ⟨hc, -⟩ := lookupFiles_only (e := e) (r.st.config, r.n)
  have hs := congrArg InitConfig.servers hc
  have hns := congrArg InitConfig.nservers hc
  dsimp only at h₃ h₄ hs hns ⊢
  simp only [ne_eq, not_true_eq_false, if_false, h₂]
  split_ifs with hf
  · rw [hf, List.length_nil]
    exact ⟨trivial, hs.trans h₃, hns.trans h₄⟩
  · simp

/-- A `resolv.conf` with a server, a comment after it, a search domain and an option. -/
def serverConf : List String := ["nameserver 1.2.3.4 # primary", "search example.com",
  "options ndots:2"]

theorem resolv_conf_servers_serverConf :
    (∀ k, (resolvEnv none serverConf).alloc k = true) ∧
      (resolvEnv none serverConf).files (unsetState.resolvconfPath.getD pathResolvConf) =
        .lines (serverConf.map String.toList) ∧ unsetState.config.nservers = 0 ∧
      (∀ line ∈ serverConf.map String.toList, tryConfig line "lookup".toList ';' = none ∧
        tryConfig line "sortlist".toList ';' = none) ∧
      (initByResolvConf (resolvEnv none serverConf) unsetState).1 = .success ∧
      (initByResolvConf (resolvEnv none serverConf) unsetState).2.config.servers =
        [serverOf (afInet, [1, 2, 3, 4], 0)] ∧
      (initByResolvConf (resolvEnv none serverConf) unsetState).2.config.nservers = 1 := by
  have hls : ∀ line ∈ serverConf.map String.toList,
      tryConfig line "lookup".toList ';' = none ∧
        tryConfig line "sortlist".toList ';' = none := by
    decide
  have h := resolv_conf_servers (e := resolvEnv none serverConf) (s := unsetState)
    (fun _ => rfl) rfl rfl hls
  exact ⟨fun _ => rfl, rfl, rfl, hls, h.1, h.2.1.trans (by decide), h.2.2.trans (by decide)⟩

end CAres
