import CAres.Engine.Init

/-! # What `ares_init_options` hands over

`aresInitOptions_ok` says what holds of every channel `ares_init_options` returns with
`ARES_SUCCESS`: the timeout, the tries and `ndots` are at least 1, and every server of the
table has its buffers and connection list and is numbered by its index. The table is not
empty, and `lookups` is set, unless `init_by_defaults` failed: its status is overwritten by
that of `ares__init_servers_state`, which succeeds on an empty table
(`defaults_failure_ignored`). `init_ok_without_servers` is such a run: the copy of the
default `lookups` string fails.

A channel handed over with a server is the engine's first state `Channel.init`, under the
configuration it carries (`aresInitOptions_engine`): the engine's runs start from what
`ares_init_options` builds. -/

namespace CAres

variable {env : InitEnv}

theorem initServers_ok {addrs : List AresAddr} :
    ∀ {k i n gen : Nat} {servers : List InitServer} {g : Nat},
      initServers env addrs k i n gen = .ok (servers, g) →
      g = gen + k ∧ servers.length = k ∧ ∀ j (hj : j < servers.length),
        servers.get ⟨j, hj⟩ =
          { addr := addrs.getD (i + j) loopbackServer, idx := i + j, tcpParser := some [],
            tcpSend := some [], connections := some [], tcpConnectionGeneration := gen + j + 1 }
  | 0, i, n, gen, servers, g, h => by
    simp only [initServers, Except.ok.injEq, Prod.mk.injEq] at h
    obtain ⟨rfl, rfl⟩ := h
    simp
  | k + 1, i, n, gen, servers, g, h => by
    unfold initServers at h
    split at h
    · split at h
      · rename_i rest g' hrest
        simp only [Except.ok.injEq, Prod.mk.injEq] at h
        obtain ⟨rfl, rfl⟩ := h
        obtain ⟨rfl, hl, hs⟩ := initServers_ok hrest
        refine ⟨by omega, by simp [hl], fun j hj => ?_⟩
        cases j with
        | zero => simp
        | succ j =>
          have e₁ : i + 1 + j = i + (j + 1) := by omega
          have e₂ : gen + 1 + j + 1 = gen + (j + 1) + 1 := by omega
          simp only [List.get_cons_succ]
          rw [hs j (by simp at hj; omega), e₁, e₂]
      · cases h
    · cases h

/-- `c'` keeps the flags and the scalar settings of `c`. -/
structure SameScalars (c c' : InitConfig) : Prop where
  flags : c'.flags = c.flags
  timeout : c'.timeout = c.timeout
  tries : c'.tries = c.tries
  ndots : c'.ndots = c.ndots
  ednspsz : c'.ednspsz = c.ednspsz

theorem SameScalars.refl (c : InitConfig) : SameScalars c c := ⟨rfl, rfl, rfl, rfl, rfl⟩

theorem SameScalars.trans {c₁ c₂ c₃ : InitConfig} (s₁ : SameScalars c₁ c₂)
    (s₂ : SameScalars c₂ c₃) : SameScalars c₁ c₃ :=
  ⟨s₂.1.trans s₁.1, s₂.2.trans s₁.2, s₂.3.trans s₁.3, s₂.4.trans s₁.4, s₂.5.trans s₁.5⟩

theorem defaultServers_spec (env : InitEnv) (c : InitConfig) (n : Nat) :
    SameScalars c (defaultServers env c n).2.1 ∧
      (defaultServers env c n).2.1.lookups = c.lookups ∧
      ((defaultServers env c n).1 = .success → 1 ≤ (defaultServers env c n).2.1.nservers) := by
  unfold defaultServers
  split_ifs with h0 ha
  · exact ⟨⟨rfl, rfl, rfl, rfl, rfl⟩, rfl, fun _ => Nat.le_refl 1⟩
  · exact ⟨.refl c, rfl, fun h => nomatch h⟩
  · exact ⟨.refl c, rfl, fun _ => Nat.pos_of_ne_zero h0⟩

theorem hostDomains_spec (env : InitEnv) (c : InitConfig) (n : Nat) :
    SameScalars c (hostDomains env c n).2.1 ∧
      (hostDomains env c n).2.1.nservers = c.nservers ∧
      (hostDomains env c n).2.1.lookups = c.lookups := by
  unfold hostDomains
  split
  · split
    · exact ⟨.refl c, rfl, rfl⟩
    · split
      · split
        · split
          · exact ⟨⟨rfl, rfl, rfl, rfl, rfl⟩, rfl, rfl⟩
          · exact ⟨⟨rfl, rfl, rfl, rfl, rfl⟩, rfl, rfl⟩
        · exact ⟨.refl c, rfl, rfl⟩
      · exact ⟨.refl c, rfl, rfl⟩
  · exact ⟨.refl c, rfl, rfl⟩

theorem defaultLookups_spec (env : InitEnv) (c : InitConfig) (n : Nat) :
    SameScalars c (defaultLookups env c n).2.1 ∧
      (defaultLookups env c n).2.1.nservers = c.nservers ∧
      ((defaultLookups env c n).1 = .success → (defaultLookups env c n).2.1.lookups.isSome) := by
  unfold defaultLookups
  split
  · exact ⟨.refl c, rfl, fun _ => by simp [*]⟩
  · split
    · exact ⟨⟨rfl, rfl, rfl, rfl, rfl⟩, rfl, fun _ => rfl⟩
    · exact ⟨.refl c, rfl, fun h => nomatch h⟩

theorem initThen_success {r : Status × InitConfig × Nat}
    {f : InitConfig → Nat → Status × InitConfig × Nat} (h : (initThen r f).1 = .success) :
    r.1 = .success ∧ initThen r f = f r.2.1 r.2.2 := by
  unfold initThen at h ⊢
  split at h
  · exact ⟨‹_›, by rw [if_pos ‹_›]⟩
  · exact absurd h ‹_›

theorem initThen_scalars {r : Status × InitConfig × Nat} {c : InitConfig}
    {f : InitConfig → Nat → Status × InitConfig × Nat} (hr : SameScalars c r.2.1)
    (hf : ∀ c n, SameScalars c (f c n).2.1) : SameScalars c (initThen r f).2.1 := by
  unfold initThen
  split
  · exact hr.trans (hf _ _)
  · exact hr

theorem defaultsAlloc_spec (env : InitEnv) (c : InitConfig) (n : Nat) :
    SameScalars c (defaultsAlloc env c n).2.1 ∧
      ((defaultsAlloc env c n).1 = .success →
        1 ≤ (defaultsAlloc env c n).2.1.nservers ∧ (defaultsAlloc env c n).2.1.lookups.isSome) := by
  have hdom : ∀ c n,
      SameScalars c (if c.ndomains = 0 then hostDomains env c n else (.success, c, n)).2.1 ∧
      (if c.ndomains = 0 then hostDomains env c n else (.success, c, n)).2.1.nservers =
        c.nservers := by
    intro c n; split
    · exact ⟨(hostDomains_spec env c n).1, (hostDomains_spec env c n).2.1⟩
    · exact ⟨.refl c, rfl⟩
  refine ⟨initThen_scalars
    (initThen_scalars (defaultServers_spec env c n).1 fun c n => (hdom c n).1)
    fun c n => (defaultLookups_spec env c n).1, fun h => ?_⟩
  unfold defaultsAlloc at h ⊢
  generalize hr₂ : initThen (defaultServers env c n) _ = r₂ at h ⊢
  obtain ⟨h₂, e₂⟩ := initThen_success h
  rw [e₂] at h ⊢
  refine ⟨?_, (defaultLookups_spec env _ _).2.2 h⟩
  obtain ⟨h₁, e₁⟩ := initThen_success (hr₂ ▸ h₂)
  rw [(defaultLookups_spec env _ _).2.1, ← hr₂, e₁, (hdom _ _).2]
  exact (defaultServers_spec env c n).2.2 h₁

theorem initByDefaults_spec (env : InitEnv) (c : InitConfig) (n : Nat) :
    1 ≤ (initByDefaults env c n).2.1.timeout ∧ 1 ≤ (initByDefaults env c n).2.1.tries ∧
      1 ≤ (initByDefaults env c n).2.1.ndots ∧ (initByDefaults env c n).2.1.flags = c.flags ∧
      ((initByDefaults env c n).1 = .success →
        1 ≤ (initByDefaults env c n).2.1.nservers ∧ (initByDefaults env c n).2.1.lookups.isSome) ∧
      ((initByDefaults env c n).1 ≠ .success →
        (initByDefaults env c n).2.1.nservers = 0 ∧
          (initByDefaults env c n).2.1.lookups = none) := by
  unfold initByDefaults
  dsimp only
  generalize hc : { c with timeout := _, tries := _, ndots := _, ednspsz := _ } = c₁
  have h₁ : 1 ≤ c₁.timeout ∧ 1 ≤ c₁.tries ∧ 1 ≤ c₁.ndots ∧ c₁.flags = c.flags := by
    subst hc; dsimp only
    refine ⟨?_, ?_, ?_, rfl⟩ <;> split <;> first | decide | omega
  obtain ⟨s, hs⟩ := defaultsAlloc_spec env c₁ n
  split
  · exact ⟨s.2 ▸ h₁.1, s.3 ▸ h₁.2.1, s.4 ▸ h₁.2.2.1, s.1.trans h₁.2.2.2, hs, fun h => absurd ‹_› h⟩
  · exact ⟨s.2 ▸ h₁.1, s.3 ▸ h₁.2.1, s.4 ▸ h₁.2.2.1, s.1.trans h₁.2.2.2, fun h => absurd h ‹_›,
      fun _ => ⟨rfl, rfl⟩⟩

theorem aresInitOptions_ok {c : InitConfig} {ch : InitChannel}
    (h : aresInitOptions env c = .ok ch) :
    1 ≤ ch.timeout ∧ 1 ≤ ch.tries ∧ 1 ≤ ch.ndots ∧ ch.servers.length = ch.nservers ∧
      (∀ j (hj : j < ch.servers.length), (ch.servers.get ⟨j, hj⟩).idx = j ∧
        (ch.servers.get ⟨j, hj⟩).tcpParser.isSome ∧ (ch.servers.get ⟨j, hj⟩).tcpSend.isSome ∧
        (ch.servers.get ⟨j, hj⟩).connections.isSome) ∧
      ((1 ≤ ch.nservers ∧ ch.lookups.isSome) ∨
        (ch.nservers = 0 ∧ ch.lookups = none ∧ (initByDefaults env c 6).1 ≠ .success)) := by
  unfold aresInitOptions at h
  split_ifs at h
  obtain ⟨ht, htr, hnd, -, hok, hfail⟩ := initByDefaults_spec env c 6
  generalize initByDefaults env c 6 = r at h ht htr hnd hok hfail ⊢
  have trim : ∀ c₂ : InitConfig, c₂ = trimPrimary r.2.1 →
      c₂.timeout = r.2.1.timeout ∧ c₂.tries = r.2.1.tries ∧ c₂.ndots = r.2.1.ndots ∧
        c₂.lookups = r.2.1.lookups ∧ (1 ≤ c₂.nservers ↔ 1 ≤ r.2.1.nservers) ∧
        (c₂.nservers = 0 ↔ r.2.1.nservers = 0) := by
    rintro _ rfl; unfold trimPrimary; split
    · exact ⟨rfl, rfl, rfl, rfl, iff_of_true (Nat.le_refl 1) (by omega),
      iff_of_false Nat.one_ne_zero (by omega)⟩
    · exact ⟨rfl, rfl, rfl, rfl, Iff.rfl, Iff.rfl⟩
  obtain ⟨et, etr, ends, el, e1, e0⟩ := trim _ rfl
  dsimp only at h
  generalize trimPrimary r.2.1 = c₂ at h et etr ends el e1 e0
  split at h
  · cases h
  rename_i servers gen hs
  cases h
  obtain ⟨-, hl, hget⟩ := initServers_ok hs
  refine ⟨et ▸ ht, etr ▸ htr, ends ▸ hnd, hl, fun j hj => by rw [hget]; simp, ?_⟩
  by_cases hr : r.1 = .success
  · exact .inl ⟨e1.mpr (hok hr).1, el ▸ (hok hr).2⟩
  · exact .inr ⟨e0.mpr (hfail hr).1, el ▸ (hfail hr).2, hr⟩

/-- No server and no `lookups` configured, one search domain. -/
def bareConfig : InitConfig :=
  { flags := {}, timeout := 0, tries := 0, ndots := 0, ednspsz := 0, servers := [], nservers := 0,
    ndomains := 1, domains := some ["example"], lookups := none }

/-- Every allocation succeeds. -/
def allocOkEnv : InitEnv :=
  { libraryInitialized := true, alloc := fun _ => true, optionsStatus := .success,
    hostnames := [] }

theorem aresInitOptions_ok_allocOk :
    ∃ ch, aresInitOptions allocOkEnv bareConfig = .ok ch ∧ 1 ≤ ch.nservers ∧
      ch.servers.length = ch.nservers := by
  obtain ⟨ch, h⟩ : ∃ ch, aresInitOptions allocOkEnv bareConfig = .ok ch := ⟨_, rfl⟩
  obtain ⟨-, -, -, hl, -, hs⟩ := aresInitOptions_ok h
  exact ⟨ch, h, hs.elim And.left fun hd => absurd (by decide) hd.2.2, hl⟩

/-- A failed allocation in `init_by_defaults` is not reported: once the channel and its
indexes exist and the options are applied, `ares_init_options` returns `ARES_SUCCESS` with
an empty server table and no `lookups`. -/
theorem defaults_failure_ignored {c : InitConfig} (hlib : env.libraryInitialized = true)
    (hidx : ∀ k ≤ 5, env.alloc k = true) (hopt : env.optionsStatus = .success)
    (hd : (initByDefaults env c 6).1 ≠ .success) :
    ∃ ch, aresInitOptions env c = .ok ch ∧ ch.nservers = 0 ∧ ch.servers = [] ∧
      ch.lookups = none := by
  obtain ⟨-, -, -, -, -, hfail⟩ := initByDefaults_spec env c 6
  obtain ⟨h0, hl⟩ := hfail hd
  have htrim : trimPrimary (initByDefaults env c 6).2.1 = (initByDefaults env c 6).2.1 := by
    unfold trimPrimary; rw [if_neg (by omega)]
  unfold aresInitOptions
  simp only [hlib, hidx 0 (by omega), hidx 1 (by omega), hidx 2 (by omega), hidx 3 (by omega),
    hidx 4 (by omega), hidx 5 (by omega), hopt, htrim, h0, initServers, Bool.and_self,
    Bool.true_eq_false, ne_eq, not_true_eq_false, reduceIte]
  exact ⟨_, rfl, rfl, rfl, hl⟩

/-- Every allocation succeeds but call 7, the copy of the default `lookups` string. -/
def lookupsFailEnv : InitEnv :=
  { libraryInitialized := true, alloc := fun n => n != 7, optionsStatus := .success,
    hostnames := [] }

/-- `ares_init_options` returns `ARES_SUCCESS` with no server and no `lookups`, and with a
search domain count of 1 over a freed domain array. -/
theorem init_ok_without_servers :
    ∃ ch, aresInitOptions lookupsFailEnv bareConfig = .ok ch ∧ ch.nservers = 0 ∧ ch.servers = [] ∧
      ch.lookups = none ∧ ch.ndomains = 1 ∧ ch.domains = none :=
  ⟨_, rfl, rfl, rfl, rfl, rfl, rfl⟩

/-! ## The engine's first state -/

/-- The engine's configuration for a channel `ares_init_options` handed over with a server,
for the `rotate` and `udp_max_queries` the caller's options chose. -/
def InitChannel.config (ch : InitChannel) (hn : 0 < ch.nservers) (rotate : Bool)
    (udpMaxQueries : Nat) : Config :=
  { nservers := ch.nservers, nservers_pos := hn, tries := ch.tries, timeout := ch.timeout,
    rotate, udpMaxQueries, ednspsz := ch.ednspsz }

/-- A server of the handed-over table as the engine reads it: no TCP connection yet. -/
def InitServer.toServer (s : InitServer) : Server :=
  { idx := s.idx, addr := s.addr, connections := s.connections.getD [], tcpConn := none,
    tcpParser := s.tcpParser.getD [], tcpSend := s.tcpSend.getD [],
    tcpConnectionGeneration := s.tcpConnectionGeneration }

/-- The server table and the generation `ares_init_options` hands over are what
`ares__init_servers_state` builds. -/
theorem aresInitOptions_servers {c : InitConfig} {ch : InitChannel}
    (h : aresInitOptions env c = .ok ch) :
    ∃ addrs n,
      initServers env addrs ch.nservers 0 n 0 = .ok (ch.servers, ch.tcpConnectionGeneration) := by
  unfold aresInitOptions at h
  split_ifs at h
  dsimp only at h
  split at h
  · cases h
  · rename_i servers gen hs
    cases h
    exact ⟨_, _, hs⟩

/-- A channel `ares_init_options` hands over with a server is the engine's first state: under
its configuration, `Channel.init` with the table's addresses has the table's servers, numbered,
with no connection and empty buffers, and the channel's generation; every run of the engine
starts there. -/
theorem aresInitOptions_engine {c : InitConfig} {ch : InitChannel}
    (h : aresInitOptions env c = .ok ch) (hn : 0 < ch.nservers) (rotate : Bool)
    (udpMaxQueries : Nat) (engine : Env) :
    let cfg := ch.config hn rotate udpMaxQueries
    let ch₀ := Channel.init cfg ch.flags fun i =>
      (ch.servers.map InitServer.addr).getD i loopbackServer
    ch.servers.length = cfg.nservers ∧ ch.tcpConnectionGeneration = ch₀.tcpConnectionGeneration ∧
      (∀ i (hi : i < ch.servers.length), (ch.servers.get ⟨i, hi⟩).toServer = ch₀.servers i) ∧
      Reachable cfg engine ch₀ := by
  obtain ⟨addrs, n, hs⟩ := aresInitOptions_servers h
  obtain ⟨hg, hl, hget⟩ := initServers_ok hs
  refine ⟨hl, by rw [hg, Nat.zero_add]; rfl, fun i hi => ?_, .init _ _⟩
  have ha : (ch.servers.map InitServer.addr).getD i loopbackServer =
      (ch.servers.get ⟨i, hi⟩).addr := by
    rw [List.getD_eq_getElem?_getD, List.getElem?_map, List.getElem?_eq_getElem hi]; rfl
  simp only [Channel.init, ha]
  rw [hget]
  simp [InitServer.toServer]

end CAres
