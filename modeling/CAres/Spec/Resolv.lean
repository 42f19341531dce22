import CAres.Engine.Resolv
import CAres.Spec.Nameserver

/-! # The precedence of the configuration sources

`ares_init_options` fills the configuration from the caller's options, then the environment,
then the resolver files, then the built-in defaults, and each later source is meant to fill
only what is still unset. The environment and file stages do keep every field the caller set
(`initConfigured_keeps_set`), but "set" means a nonzero count, a non-`NULL` pointer or an
`optmask` bit, and three places break the precedence (`init_precedence_broken`): `ndots:0` from
`RES_OPTIONS` is stored as 0, which `init_by_defaults` takes for unset and replaces by 1;
`ARES_CONFIG_CHECK` skips the files as soon as the caller set servers, `lookups`, `ndots`,
`timeout` and `tries`, so their search domains, `options` and sortlist are never read; and a
rejected `lookup` line ends the read of `resolv.conf` with an error, which drops the servers
read before it. -/

namespace CAres

/-- `s'` keeps every field that is set in `s` (a nonzero count, a non-`NULL` pointer, an
option whose `optmask` bit is set), and the fields the two stages never write. -/
structure KeepsSet (s s' : ResolvState) : Prop where
  ndots : s.config.ndots ≠ 0 → s'.config.ndots = s.config.ndots
  timeout : s.config.timeout ≠ 0 → s'.config.timeout = s.config.timeout
  tries : s.config.tries ≠ 0 → s'.config.tries = s.config.tries
  domains : s.config.ndomains ≠ 0 →
    s'.config.domains = s.config.domains ∧ s'.config.ndomains = s.config.ndomains
  lookups : s.config.lookups.isSome → s'.config.lookups = s.config.lookups
  servers : s.config.nservers ≠ 0 →
    s'.config.servers = s.config.servers ∧ s'.config.nservers = s.config.nservers
  rotate : s.optmask.rotate → s'.rotate = s.rotate
  sortlist : s.optmask.sortlist → s'.sortlist = s.sortlist
  flags : s'.config.flags = s.config.flags
  ednspsz : s'.config.ednspsz = s.config.ednspsz
  optmask : s'.optmask = s.optmask
  path : s'.resolvconfPath = s.resolvconfPath

variable {e : ConfEnv} {s s₁ s₂ : ResolvState} {c₁ c₂ c₃ : InitConfig}

/-- `c'` is `c` with at most `lookups` rewritten, and that only if `c` has none. -/
def LookupsOnly (c c' : InitConfig) : Prop :=
  c' = { c with lookups := c'.lookups } ∧ (c.lookups.isSome → c'.lookups = c.lookups)

theorem LookupsOnly.refl (c : InitConfig) : LookupsOnly c c := ⟨rfl, fun _ => rfl⟩

theorem LookupsOnly.trans (h₁ : LookupsOnly c₁ c₂) (h₂ : LookupsOnly c₂ c₃) :
    LookupsOnly c₁ c₃ :=
  ⟨h₂.1.trans (by rw [h₁.1]), fun h => (h₂.2 (h₁.2 h ▸ h)).trans (h₁.2 h)⟩

namespace KeepsSet

theorem refl (s : ResolvState) : KeepsSet s s :=
  ⟨fun _ => rfl, fun _ => rfl, fun _ => rfl, fun _ => ⟨rfl, rfl⟩, fun _ => rfl,
    fun _ => ⟨rfl, rfl⟩, fun _ => rfl, fun _ => rfl, rfl, rfl, rfl, rfl⟩

theorem trans (k₁ : KeepsSet s s₁) (k₂ : KeepsSet s₁ s₂) : KeepsSet s s₂ where
  ndots h := (k₂.ndots (k₁.ndots h ▸ h)).trans (k₁.ndots h)
  timeout h := (k₂.timeout (k₁.timeout h ▸ h)).trans (k₁.timeout h)
  tries h := (k₂.tries (k₁.tries h ▸ h)).trans (k₁.tries h)
  domains h :=
    have h₁ := k₁.domains h
    have h₂ := k₂.domains (h₁.2 ▸ h)
    ⟨h₂.1.trans h₁.1, h₂.2.trans h₁.2⟩
  lookups h := (k₂.lookups (k₁.lookups h ▸ h)).trans (k₁.lookups h)
  servers h :=
    have h₁ := k₁.servers h
    have h₂ := k₂.servers (h₁.2 ▸ h)
    ⟨h₂.1.trans h₁.1, h₂.2.trans h₁.2⟩
  rotate h := (k₂.rotate (k₁.optmask ▸ h)).trans (k₁.rotate h)
  sortlist h := (k₂.sortlist (k₁.optmask ▸ h)).trans (k₁.sortlist h)
  flags := k₂.flags.trans k₁.flags
  ednspsz := k₂.ednspsz.trans k₁.ednspsz
  optmask := k₂.optmask.trans k₁.optmask
  path := k₂.path.trans k₁.path

/-- Rewriting the search domains of a state that keeps `s`, when `s` has none. -/
theorem domains_of (k : KeepsSet s s₁) (h : s.config.ndomains = 0) (d : Option (List String))
    (n : Nat) : KeepsSet s { s₁ with config := { s₁.config with domains := d, ndomains := n } } :=
  { k with domains := fun h' => absurd h h' }

/-- Rewriting `lookups` of a state that keeps `s` as `LookupsOnly` allows. -/
theorem lookups_only {c : InitConfig} (k : KeepsSet s s₁) (h : LookupsOnly s₁.config c) :
    KeepsSet s { s₁ with config := c } := by
  obtain ⟨hc, hl⟩ := h
  rw [hc]
  exact { k with lookups := fun h' => (hl (k.lookups h' ▸ h')).trans (k.lookups h') }

/-- Filling in the servers and the sortlist read from a file, when `s` has none set. -/
theorem fill (k : KeepsSet s s₁) {servers : List AresAddr} {sortlist : List Pattern}
    (hs : servers ≠ [] → s.config.nservers = 0) (hl : sortlist ≠ [] → s.optmask.sortlist = false) :
    KeepsSet s { s₁ with
      config := if servers = [] then s₁.config
        else { s₁.config with servers := servers, nservers := servers.length }
      sortlist := if sortlist = [] then s₁.sortlist else sortlist } := by
  by_cases h₁ : servers = [] <;> by_cases h₂ : sortlist = [] <;>
    simp only [h₁, h₂, if_true, if_false]
  · exact k
  · exact { k with sortlist := fun h => by simp [hl h₂] at h }
  · exact { k with servers := fun h => absurd (hs h₁) h }
  · exact { k with servers := fun h => absurd (hs h₁) h
                   sortlist := fun h => by simp [hl h₂] at h }

/-- A state that keeps `s` and has no server: then `s` has none. -/
theorem nservers_eq_zero (k : KeepsSet s s₁) (h : s₁.config.nservers = 0) :
    s.config.nservers = 0 := by
  by_contra h'
  exact h' ((k.servers h').2.symm.trans h)

end KeepsSet

theorem setSearch_eq (c : InitConfig) (str : List Char) :
    ∃ d n, setSearch c str = { c with domains := d, ndomains := n } := by
  unfold setSearch; dsimp only; split <;> exact ⟨_, _, rfl⟩

theorem configLookup_only {c : InitConfig} (h : c.lookups = none) (str : List Char) (b : Char)
    (a : Option Char) (f : Char) (n : Nat) : LookupsOnly c (configLookup e c str b a f n).2.1 := by
  refine ⟨?_, fun h' => by rw [h] at h'; cases h'⟩
  unfold configLookup; dsimp only
  split
  · rfl
  · split <;> rfl

theorem setCount_of_ne {p : List Char} {len : Nat} {opt : String} {cur : Nat} (h : cur ≠ 0) :
    setCount p len opt cur = cur := by
  unfold setCount; split <;> simp [h]

/-- `set_options` writes a count only while it is 0, and `rotate` only if the caller did not
choose it. -/
theorem setOptionsLoop_keeps : ∀ (fuel : Nat) (p : List Char) (s : ResolvState),
    KeepsSet s (setOptionsLoop fuel p s)
  | 0, _, s => .refl s
  | fuel + 1, p, s => by
    rw [setOptionsLoop]
    split
    · exact .refl s
    · refine KeepsSet.trans ?_ (setOptionsLoop_keeps fuel _ _)
      exact ⟨setCount_of_ne, setCount_of_ne, setCount_of_ne, fun _ => ⟨rfl, rfl⟩, fun _ => rfl,
        fun _ => ⟨rfl, rfl⟩, fun h => by simp [h], fun _ => rfl, rfl, rfl, rfl, rfl⟩

theorem initByEnvironment_keeps (s : ResolvState) : KeepsSet s (initByEnvironment e s) := by
  have hd : KeepsSet s (match e.localdomain with
      | some d => if s.config.ndomains = 0 then { s with config := setSearch s.config d } else s
      | none => s) := by
    split
    · split
      · rename_i d _ h
        obtain ⟨d', n, hs⟩ := setSearch_eq s.config d
        rw [hs]; exact (KeepsSet.refl s).domains_of h d' n
      · exact .refl s
    · exact .refl s
  unfold initByEnvironment setOptions
  dsimp only
  split
  · exact hd.trans (setOptionsLoop_keeps _ _ _)
  · exact hd

/-! ## `init_by_resolv_conf` -/

/-- What the `resolv.conf` loop keeps from the channel `s` it started on: every field `s` set;
and servers or a sortlist are read only if `s` has none set. -/
structure ReadKeeps (s : ResolvState) (r : ConfRead) : Prop where
  keeps : KeepsSet s r.st
  read_servers : r.servers ≠ [] → s.config.nservers = 0
  read_sortlist : r.sortlist ≠ [] → s.optmask.sortlist = false

theorem resolvConfLine_keeps {s : ResolvState} {u : Bool} (hu : u = true → s.config.ndomains = 0)
    (line : List Char) {r : ConfRead} (hr : ReadKeeps s r) :
    ReadKeeps s (resolvConfLine e u line r).2 := by
  unfold resolvConfLine
  dsimp only
  split
  · rename_i p hp
    obtain ⟨d, n, hs⟩ := setSearch_eq r.st.config (p.takeWhile (!isSpace ·))
    unfold configDomain; rw [hs]
    exact { hr with keeps := hr.keeps.domains_of (hu (Option.ite_none_right_eq_some.mp hp).1) d n }
  split
  · rename_i p hp
    have hl := Option.isNone_iff_eq_none.mp (Option.ite_none_right_eq_some.mp hp).1
    exact { hr with keeps := hr.keeps.lookups_only (configLookup_only hl p 'b' none 'f' r.n) }
  split
  · rename_i p hp
    obtain ⟨d, n, hs⟩ := setSearch_eq r.st.config p
    rw [hs]
    exact { hr with keeps := hr.keeps.domains_of (hu (Option.ite_none_right_eq_some.mp hp).1) d n }
  split
  · rename_i p hp
    have hn := of_decide_eq_true (Option.ite_none_right_eq_some.mp hp).1
    exact { hr with read_servers := fun _ => hr.keeps.nservers_eq_zero hn }
  split
  · rename_i p hp
    have hs := Bool.not_eq_true' _ |>.mp (Option.ite_none_right_eq_some.mp hp).1
    exact { hr with read_sortlist := fun _ => hr.keeps.optmask ▸ hs }
  split
  · exact { hr with keeps := hr.keeps.trans (setOptionsLoop_keeps _ _ _) }
  · exact hr

theorem resolvConfLines_keeps {s : ResolvState} {u : Bool}
    (hu : u = true → s.config.ndomains = 0) :
    ∀ (ls : List (List Char)) {r : ConfRead}, ReadKeeps s r →
      ReadKeeps s (resolvConfLines e u ls r).2
  | [], _, hr => hr
  | line :: rest, r, hr => by
    rw [resolvConfLines]
    have h := resolvConfLine_keeps (e := e) hu line hr
    split
    · rename_i r' he
      rw [he] at h
      exact resolvConfLines_keeps hu rest h
    · rename_i st r' _ he
      rw [he] at h
      exact h

/-- A lookup file rewrites only `lookups`, and only while it is not set. -/
theorem lookupFileLines_only (opt : List Char) (b : Char) (a : Option Char) (f : Char) :
    ∀ (ls : List (List Char)) (r : InitConfig × Nat),
      LookupsOnly r.1 (lookupFileLines e opt b a f ls r).1
  | [], _ => .refl _
  | line :: rest, (c, n) => by
    rw [lookupFileLines]
    dsimp only
    split
    · rename_i p hp
      have hl := Option.isNone_iff_eq_none.mp (Option.ite_none_right_eq_some.mp hp).1
      exact (configLookup_only hl p b a f n).trans (lookupFileLines_only opt b a f rest _)
    · exact lookupFileLines_only opt b a f rest _

theorem lookupFile_only (path opt : List Char) (b : Char) (a : Option Char) (f : Char)
    (r : InitConfig × Nat) : LookupsOnly r.1 (lookupFile e path opt b a f r).1 := by
  unfold lookupFile
  split
  · split
    · exact lookupFileLines_only opt b a f _ r
    · exact .refl _
  · exact .refl _

/-- The three lookup files of `init_by_resolv_conf`, read in turn. -/
theorem lookupFiles_only (r : InitConfig × Nat) : LookupsOnly r.1
    (lookupFile e "/etc/svc.conf".toList "hosts=".toList 'b' none 'l' <|
      lookupFile e "/etc/host.conf".toList "order".toList 'b' none 'h' <|
        lookupFile e "/etc/nsswitch.conf".toList "hosts:".toList 'd' (some 'r') 'f' r).1 :=
  ((lookupFile_only _ _ _ _ _ r).trans (lookupFile_only _ _ _ _ _ _)).trans
    (lookupFile_only _ _ _ _ _ _)

theorem initByResolvConf_keeps (s : ResolvState) : KeepsSet s (initByResolvConf e s).2 := by
  unfold initByResolvConf
  split
  · exact .refl s
  have hu : decide (s.config.ndomains = 0) = true → s.config.ndomains = 0 := of_decide_eq_true
  have hr : ReadKeeps s ⟨s, [], [], 0⟩ := ⟨.refl s, fun h => absurd rfl h, fun h => absurd rfl h⟩
  rcases e.files (s.resolvconfPath.getD pathResolvConf) with ls | _ | _ <;> dsimp only
  on_goal 1 => replace hr := resolvConfLines_keeps (e := e) hu ls hr
  all_goals
    split
    · exact hr.keeps
    · exact (hr.keeps.lookups_only (lookupFiles_only _)).fill hr.read_servers hr.read_sortlist

/-- The environment and file stages change only what the caller left unset, where "set"
means a nonzero count, a non-`NULL` pointer or an `optmask` bit. -/
theorem initConfigured_keeps_set (e : ConfEnv) (s : ResolvState) :
    KeepsSet s (initConfigured e s) :=
  (initByEnvironment_keeps s).trans (initByResolvConf_keeps _)

/-- A channel on which the caller set nothing. -/
def unsetState : ResolvState :=
  { config :=
      { flags := {}, timeout := 0, tries := 0, ndots := 0, ednspsz := 0, servers := [],
        nservers := 0, ndomains := 0, domains := none, lookups := none },
    rotate := false, sortlist := [], optmask := ⟨false, false⟩, resolvconfPath := none }

/-- A caller that set a server, `lookups`, `ndots`, `timeout` and `tries`, and neither
`rotate` nor a sortlist. -/
def callerSet : ResolvState :=
  { unsetState with
    config := { unsetState.config with
      servers := [serverOf (afInet, [1, 2, 3, 4], 0)], nservers := 1, lookups := some "b",
      ndots := 2, timeout := 3000, tries := 2 } }

/-- `LOCALDOMAIN=example.net`, `RES_OPTIONS` as `opts` says, and `resolv.conf` with the lines
`lines` (missing if there are none); no other file, an `ares_inet_pton` that knows `1.2.3.4`,
an `ares_inet_net_pton` that reads nothing, and an allocator that never fails. -/
def resolvEnv (opts : Option String) (lines : List String) : ConfEnv where
  localdomain := some "example.net".toList
  resOptions := opts.map String.toList
  files p := if p = pathResolvConf ∧ lines ≠ [] then .lines (lines.map String.toList) else .missing
  pton := quadPton
  netPton _ _ := none
  alloc _ := true

/-- `RES_OPTIONS=ndots:0`. -/
def ndotsZeroEnv : ConfEnv := resolvEnv (some "ndots:0") []

/-- A `resolv.conf` that turns on rotation and sorts by `1.2.3.4` with its natural mask. -/
def rotateEnv : ConfEnv := resolvEnv none ["options rotate", "sortlist 1.2.3.4"]

/-- A `resolv.conf` with a server and then a `lookup` line that names no source. -/
def badLookupEnv : ConfEnv := resolvEnv none ["nameserver 1.2.3.4", "lookup x"]

/-- The library is initialised, the options applied and no allocation fails. -/
def initOk : InitEnv :=
  { libraryInitialized := true, alloc := fun _ => true, optionsStatus := .success,
    hostnames := [] }

/-- Three runs in which `ares_init_options` succeeds and a field does not end with the value
of the highest-precedence source that supplies one: `ndots:0` from `RES_OPTIONS` ends as 1;
`options rotate` and the sortlist of `resolv.conf`, read when the caller set nothing, are never
read once the caller set the five fields of `ARES_CONFIG_CHECK`; and the server of
`resolv.conf`, read when the file has only its `nameserver` line, is dropped for the default
loopback server when a `lookup` line that names no source follows. -/
theorem init_precedence_broken :
    ((initConfigured ndotsZeroEnv unsetState).config.ndots = 0 ∧
      (aresInitOptions initOk (initConfigured ndotsZeroEnv unsetState).config).toOption.map
        (·.ndots) = some 1) ∧
    ((initConfigured rotateEnv unsetState).rotate = true ∧
      (initConfigured rotateEnv unsetState).sortlist = [.mask [1, 2, 3, 4] [255, 0, 0, 0]] ∧
      (aresInitOptions initOk (initConfigured rotateEnv callerSet).config).toOption.isSome ∧
      (initConfigured rotateEnv callerSet).rotate = false ∧
      (initConfigured rotateEnv callerSet).sortlist = []) ∧
    ((initConfigured (resolvEnv none ["nameserver 1.2.3.4"]) unsetState).config.servers =
        [serverOf (afInet, [1, 2, 3, 4], 0)] ∧
      (aresInitOptions initOk (initConfigured badLookupEnv unsetState).config).toOption.map
        (·.servers.map (·.addr)) = some [loopbackServer]) := by
  decide

end CAres
