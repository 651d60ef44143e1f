import LearnPg.Connection.Manager

/-! How the manager's three parts hang together in every state it reaches. -/
namespace LearnPg.Connection

open LearnPg.Basis.Runs

/-- The active node is connected, and what is connected is registered. -/
structure Wired (s : State) : Prop where
  active_mem : ∀ nodeId, s.active = some nodeId → nodeId ≠ "" → nodeId ∈ s.conns
  registered : ∀ nodeId ∈ s.conns, nodeId ∈ s.cfgStore

section

variable {s t : State} {nodeId k : String}

theorem mem_closeConn : k ∈ (s.closeConn nodeId).conns ↔ k ≠ nodeId ∧ k ∈ s.conns := by
  rw [Finmap.mem_iff, Finmap.mem_iff, lookup_closeConn]
  by_cases h : k = nodeId
  · simp [h]
  · simp [h]

theorem active_clearActive (h : (s.clearActive nodeId).active = some k) (hk : k ≠ "") :
    s.active = some k ∧ k ≠ nodeId := by
  unfold State.clearActive at h
  split at h
  next hactive =>
    rw [Option.some.injEq] at h
    exact absurd h.symm hk
  next hactive =>
    refine ⟨h, fun heq => hactive ?_⟩
    rw [← heq]
    exact h

theorem wired_newManager : Wired newManager where
  active_mem := fun _ h => by cases h
  registered := fun _ h => absurd h Finmap.notMem_empty

theorem Wired.register (h : Wired s) (cfg : Config) : Wired (s.register nodeId cfg) where
  active_mem := h.active_mem
  registered := fun k hk => Finmap.mem_insert.mpr (.inr (h.registered k hk))

theorem Wired.closeConn (hactive : ∀ k, s.active = some k → k ≠ "" → k ∈ s.conns)
    (hregistered : ∀ k ∈ s.conns, k ≠ nodeId → k ∈ s.cfgStore) :
    Wired ((s.closeConn nodeId).clearActive nodeId) where
  active_mem := by
    intro k hk hne
    obtain ⟨hk, hother⟩ := active_clearActive hk hne
    rw [active_closeConn] at hk
    exact mem_closeConn.mpr ⟨hother, hactive k hk hne⟩
  registered := by
    intro k hk
    obtain ⟨hother, hk⟩ := mem_closeConn.mp hk
    change k ∈ (s.closeConn nodeId).cfgStore
    rw [cfgStore_closeConn]
    exact hregistered k hk hother

theorem Wired.unregister (h : Wired s) : Wired (s.unregister nodeId) :=
  Wired.closeConn h.active_mem fun k hk hother =>
    Finmap.mem_erase.mpr ⟨hother, h.registered k hk⟩

theorem Wired.deactivate (h : Wired s) : Wired (s.deactivate nodeId) :=
  Wired.closeConn h.active_mem fun k hk _ => h.registered k hk

theorem Wired.activate (h : Wired s) (answer : Except String Unit) :
    Wired (s.activate nodeId answer).1 := by
  obtain ⟨err, hfail, -⟩ | ⟨cfg, hcfg, -, hok⟩ := activate_cases s nodeId answer
  · rw [hfail]
    exact h
  · rw [hok]
    constructor
    · intro k hk _
      cases hk
      exact Finmap.mem_insert.mpr (.inl rfl)
    · intro k hk
      obtain rfl | hk := Finmap.mem_insert.mp hk
      · exact Finmap.mem_of_lookup_eq_some hcfg
      · exact h.registered k hk

theorem wired_close : Wired s.close where
  active_mem := fun _ h hne => absurd (Option.some.inj h).symm hne
  registered := fun _ h => absurd h Finmap.notMem_empty

theorem Wired.apply (h : Wired s) (op : Op) : Wired (s.apply op) := by
  cases op with
  | register nodeId cfg => exact h.register cfg
  | unregister nodeId => exact h.unregister
  | activate nodeId answer => exact h.activate answer
  | deactivate nodeId => exact h.deactivate
  | close => exact wired_close

theorem run_wired {ops : List Op} (hrun : manager.run ops = some t) : Wired t := by
  apply run_keeps (M := manager) wired_newManager _ hrun
  intro s op t h hstep
  cases hstep
  exact h.apply op

theorem Wired.getActive (h : Wired s) :
    (∃ nodeId client, s.active = some nodeId ∧ s.conns.lookup nodeId = some client ∧
        s.getActive = (nodeId, some client)) ∨
      (∀ nodeId, s.active = some nodeId → nodeId = "") ∧ s.getActive = ("", none) := by
  unfold State.getActive
  cases hactive : s.active with
  | none => exact .inr ⟨nofun, rfl⟩
  | some nodeId =>
    by_cases hempty : nodeId = ""
    · refine .inr ⟨fun k hk => ?_, if_pos hempty⟩
      cases hk
      exact hempty
    · obtain ⟨client, hclient⟩ := Finmap.mem_iff.mp (h.active_mem nodeId hactive hempty)
      refine .inl ⟨nodeId, client, rfl, hclient, ?_⟩
      dsimp only
      rw [if_neg hempty, hclient]

/-- In every state the manager reaches, the active node is connected, what is
connected is registered, `GetActive` hands out the active node with its
connection or nothing, and an `Activate` that fails has changed nothing. -/
theorem manager_invariant {ops : List Op} (hrun : manager.run ops = some t) :
    Wired t ∧
      ((∃ nodeId client, t.active = some nodeId ∧ t.conns.lookup nodeId = some client ∧
          t.getActive = (nodeId, some client)) ∨
        (∀ nodeId, t.active = some nodeId → nodeId = "") ∧ t.getActive = ("", none)) ∧
      ∀ nodeId answer err, (t.activate nodeId answer).2 = .error err →
        (t.activate nodeId answer).1 = t := by
  have hwired := run_wired hrun
  refine ⟨hwired, hwired.getActive, fun nodeId answer err herr => ?_⟩
  obtain ⟨err', hfail, -⟩ | ⟨cfg, -, -, hok⟩ := activate_cases t nodeId answer
  · rw [hfail]
  · rw [hok] at herr
    cases herr

end

def local5432 : Config := ⟨"127.0.0.1", 5432, "postgres", "postgres", "postgres"⟩

def activateTwo : List Op :=
  [.register "n1" local5432, .activate "n1" (.ok ()), .activate "n2" (.ok ())]

theorem manager_invariant_activateTwo :
    ∃ t, manager.run activateTwo = some t ∧ Wired t ∧
      ((∃ nodeId client, t.active = some nodeId ∧ t.conns.lookup nodeId = some client ∧
          t.getActive = (nodeId, some client)) ∨
        (∀ nodeId, t.active = some nodeId → nodeId = "") ∧ t.getActive = ("", none)) ∧
      ∀ nodeId answer err, (t.activate nodeId answer).2 = .error err →
        (t.activate nodeId answer).1 = t := by
  have hrun : manager.run activateTwo = some _ := rfl
  exact ⟨_, hrun, manager_invariant hrun⟩

end LearnPg.Connection
