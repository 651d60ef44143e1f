import LearnPg.Api.Connect
import LearnPg.Connection.Wiring

/-! Which clients stay open with nobody to close them. A client is lost when the
manager's entry for its node is overwritten, and when a handler lets go of a
client of its own; nothing finds it again. -/
namespace LearnPg.Api

open Connection Workspace.Data LearnPg.Basis.Runs

inductive Action where
  | manager (op : Op)
  | serveConnect (req : ConnectRequest) (own managers : Except String Unit)
  | tryConnectNode (node : Node) (own managers : Except String Unit)

def act (config : ServerConfig) (s : State) : Action → State
  | .manager op => s.apply op
  | .serveConnect req own managers => (serveConnect config s req own managers).1
  | .tryConnectNode node own managers => (tryConnectNode s node own managers).1

def server (config : ServerConfig) : Machine State Action :=
  ⟨newManager, fun s action => some (act config s action)⟩

def NoLeak (s : State) : Prop :=
  ∀ client < s.opened.length, client ∈ s.closed ∨ ∃ nodeId, s.conns.lookup nodeId = some client

def openClients (s : State) : Finset Nat := Finset.range s.opened.length \ s.closed

/-- The manager connects no node a second time, and no handler's own client gets
connected. -/
def Tidy (config : ServerConfig) (s : State) : Action → Prop
  | .manager (.activate nodeId (.ok ())) => nodeId ∉ s.conns
  | .serveConnect req (.ok ()) _ => ∃ err, connectParams config req = .error err
  | .tryConnectNode _ (.ok ()) _ => False
  | _ => True

/-- The manager holds open clients, each under one node. -/
structure Tracked (s : State) : Prop where
  held_lt : ∀ nodeId client, s.conns.lookup nodeId = some client → client < s.opened.length
  held_open : ∀ nodeId client, s.conns.lookup nodeId = some client → client ∉ s.closed
  held_once : ∀ nodeId nodeId' client, s.conns.lookup nodeId = some client →
    s.conns.lookup nodeId' = some client → nodeId = nodeId'
  closed_lt : ∀ client ∈ s.closed, client < s.opened.length

section

variable {s t : State} {nodeId : String}

theorem tracked_newManager : Tracked newManager where
  held_lt := fun _ _ h => by cases h
  held_open := fun _ _ h => by cases h
  held_once := fun _ _ _ h => by cases h
  closed_lt := fun _ h => by cases h

theorem Tracked.closeConn (h : Tracked s) : Tracked (s.closeConn nodeId) where
  held_lt := by
    intro k client hk
    rw [lookup_closeConn] at hk
    split at hk
    · cases hk
    · rw [opened_closeConn]
      exact h.held_lt k client hk
  held_open := by
    intro k client hk hclosed
    rw [lookup_closeConn] at hk
    split at hk
    · cases hk
    next hother =>
      obtain hclosed | hclosed := closed_closeConn.mp hclosed
      · exact h.held_open k client hk hclosed
      · exact hother (h.held_once k nodeId client hk hclosed)
  held_once := by
    intro k k' client hk hk'
    rw [lookup_closeConn] at hk hk'
    split at hk
    · cases hk
    split at hk'
    · cases hk'
    exact h.held_once k k' client hk hk'
  closed_lt := by
    intro client hclosed
    rw [opened_closeConn]
    obtain hclosed | hclosed := closed_closeConn.mp hclosed
    · exact h.closed_lt client hclosed
    · exact h.held_lt nodeId client hclosed

theorem Tracked.close (h : Tracked s) : Tracked s.close where
  held_lt := fun _ _ h => by cases h
  held_open := fun _ _ h => by cases h
  held_once := fun _ _ _ h => by cases h
  closed_lt := by
    intro client hclosed
    obtain hclosed | hclosed := Finset.mem_union.mp hclosed
    · exact h.closed_lt client hclosed
    · obtain ⟨k, hk⟩ := mem_clients.mp hclosed
      exact h.held_lt k client hk

theorem Tracked.withOwn (h : Tracked s) (cfg : Config) : Tracked (withOwn s cfg) where
  held_lt := by
    intro k client hk
    change client < (s.opened ++ [cfg]).length
    rw [List.length_append]
    exact Nat.lt_add_right _ (h.held_lt k client hk)
  held_open := h.held_open
  held_once := h.held_once
  closed_lt := by
    intro client hclosed
    change client < (s.opened ++ [cfg]).length
    rw [List.length_append]
    exact Nat.lt_add_right _ (h.closed_lt client hclosed)

theorem Tracked.activate (h : Tracked s) (answer : Except String Unit) :
    Tracked (s.activate nodeId answer).1 := by
  obtain ⟨err, hfail, -⟩ | ⟨cfg, -, -, hok⟩ := activate_cases s nodeId answer
  · rw [hfail]
    exact h
  rw [hok]
  have hold {k : String} {client : Nat} (hother : k ≠ nodeId)
      (hk : (s.conns.insert nodeId s.opened.length).lookup k = some client) :
      s.conns.lookup k = some client := by
    rwa [Finmap.lookup_insert_of_ne _ hother] at hk
  have hnew {client : Nat}
      (hk : (s.conns.insert nodeId s.opened.length).lookup nodeId = some client) :
      client = s.opened.length := by
    rw [Finmap.lookup_insert] at hk
    exact (Option.some.inj hk).symm
  constructor
  case held_lt =>
    intro k client hk
    rw [List.length_append]
    by_cases hother : k = nodeId
    · subst hother
      rw [hnew hk]
      exact Nat.lt_succ_self _
    · exact Nat.lt_add_right _ (h.held_lt k client (hold hother hk))
  case held_open =>
    intro k client hk hclosed
    by_cases hother : k = nodeId
    · subst hother
      rw [hnew hk] at hclosed
      exact Nat.lt_irrefl _ (h.closed_lt _ hclosed)
    · exact h.held_open k client (hold hother hk) hclosed
  case held_once =>
    intro k k' client hk hk'
    by_cases hother : k = nodeId <;> by_cases hother' : k' = nodeId
    · rw [hother, hother']
    · subst hother
      have hlt := h.held_lt k' client (hold hother' hk')
      rw [hnew hk] at hlt
      exact absurd hlt (Nat.lt_irrefl _)
    · subst hother'
      have hlt := h.held_lt k client (hold hother hk)
      rw [hnew hk'] at hlt
      exact absurd hlt (Nat.lt_irrefl _)
    · exact h.held_once k k' client (hold hother hk) (hold hother' hk')
  case closed_lt =>
    intro client hclosed
    rw [List.length_append]
    exact Nat.lt_add_right _ (h.closed_lt client hclosed)

theorem noLeak_closeConn : NoLeak (s.closeConn nodeId) ↔ NoLeak s := by
  unfold NoLeak
  rw [opened_closeConn]
  apply forall₂_congr
  intro client _
  rw [closed_closeConn, or_assoc]
  apply or_congr_right
  simp only [lookup_closeConn]
  constructor
  · rintro (hk | ⟨k, hk⟩)
    · exact ⟨nodeId, hk⟩
    · split at hk
      · cases hk
      · exact ⟨k, hk⟩
  · rintro ⟨k, hk⟩
    by_cases hother : k = nodeId
    · rw [hother] at hk
      exact .inl hk
    · refine .inr ⟨k, ?_⟩
      rwa [if_neg hother]

theorem noLeak_close : NoLeak s.close ↔ NoLeak s := by
  apply forall₂_congr
  intro client _
  change client ∈ s.closed ∪ s.clients ∨ (∃ k, (∅ : Finmap fun _ => Nat).lookup k = some client) ↔ _
  rw [Finset.mem_union, mem_clients, or_iff_left]
  rintro ⟨k, hk⟩
  cases hk

theorem noLeak_activate (h : Tracked s) (hwired : Wired s) (answer : Except String Unit) :
    NoLeak (s.activate nodeId answer).1 ↔ NoLeak s ∧ (answer = .ok () → nodeId ∉ s.conns) := by
  obtain ⟨err, hfail, hwhy⟩ | ⟨cfg, -, rfl, hok⟩ := activate_cases s nodeId answer
  · rw [hfail, iff_self_and]
    rintro - rfl
    obtain ⟨cause, hcause⟩ | hcfg := hwhy
    · cases hcause
    · exact fun hmem => Finmap.lookup_eq_none.mp hcfg (hwired.registered nodeId hmem)
  rw [hok]
  unfold NoLeak
  dsimp only
  rw [List.length_append, List.length_singleton]
  constructor
  · intro hleak
    have hfree : nodeId ∉ s.conns := by
      intro hmem
      obtain ⟨client, hclient⟩ := Finmap.mem_iff.mp hmem
      have hlt := h.held_lt nodeId client hclient
      obtain hclosed | ⟨k, hk⟩ := hleak client (Nat.lt_add_right _ hlt)
      · exact h.held_open nodeId client hclient hclosed
      by_cases hother : k = nodeId
      · rw [hother, Finmap.lookup_insert, Option.some.injEq] at hk
        omega
      · rw [Finmap.lookup_insert_of_ne _ hother] at hk
        exact hother (h.held_once k nodeId client hk hclient)
    refine ⟨fun client hlt => ?_, fun _ => hfree⟩
    obtain hclosed | ⟨k, hk⟩ := hleak client (Nat.lt_add_right _ hlt)
    · exact .inl hclosed
    by_cases hother : k = nodeId
    · rw [hother, Finmap.lookup_insert, Option.some.injEq] at hk
      omega
    · rw [Finmap.lookup_insert_of_ne _ hother] at hk
      exact .inr ⟨k, hk⟩
  · rintro ⟨hleak, hfree⟩ client hlt
    obtain hlt | rfl := Nat.lt_succ_iff_lt_or_eq.mp hlt
    · obtain hclosed | ⟨k, hk⟩ := hleak client hlt
      · exact .inl hclosed
      · have hother : k ≠ nodeId := by
          rintro rfl
          exact hfree rfl (Finmap.mem_of_lookup_eq_some hk)
        exact .inr ⟨k, by rw [Finmap.lookup_insert_of_ne _ hother, hk]⟩
    · exact .inr ⟨nodeId, Finmap.lookup_insert _⟩

theorem not_noLeak_withOwn (h : Tracked s) (cfg : Config) : ¬ NoLeak (withOwn s cfg) := by
  intro hleak
  have hlt : s.opened.length < (withOwn s cfg).opened.length := by
    change s.opened.length < (s.opened ++ [cfg]).length
    simp
  obtain hclosed | ⟨k, hk⟩ := hleak s.opened.length hlt
  · exact Nat.lt_irrefl _ (h.closed_lt _ hclosed)
  · exact Nat.lt_irrefl _ (h.held_lt k _ hk)

theorem Tracked.register (h : Tracked s) (cfg : Config) : Tracked (s.register nodeId cfg) :=
  ⟨h.held_lt, h.held_open, h.held_once, h.closed_lt⟩

theorem Tracked.disconnect (h : Tracked s) :
    Tracked ((s.closeConn nodeId).clearActive nodeId) :=
  ⟨h.closeConn.held_lt, h.closeConn.held_open, h.closeConn.held_once, h.closeConn.closed_lt⟩

def Sound (s : State) : Prop := Tracked s ∧ Wired s

theorem Sound.withOwn (h : Sound s) (cfg : Config) : Sound (withOwn s cfg) :=
  ⟨h.1.withOwn cfg, h.2.active_mem, h.2.registered⟩

theorem Sound.apply (h : Sound s) (op : Op) : Sound (s.apply op) := by
  refine ⟨?_, h.2.apply op⟩
  cases op with
  | register nodeId cfg => exact h.1.register cfg
  | unregister nodeId =>
    have herase : Tracked { s with cfgStore := s.cfgStore.erase nodeId } :=
      ⟨h.1.held_lt, h.1.held_open, h.1.held_once, h.1.closed_lt⟩
    exact herase.disconnect
  | activate nodeId answer => exact h.1.activate answer
  | deactivate nodeId => exact h.1.disconnect
  | close => exact h.1.close

theorem Sound.connectTwice (h : Sound s) (own cfg : Config) (answer : Except String Unit) :
    Sound (((Api.withOwn s own).register nodeId cfg).activate nodeId answer).1 :=
  ((h.withOwn own).apply (.register nodeId cfg)).apply (.activate nodeId answer)

theorem not_noLeak_connectTwice (h : Sound s) (own cfg : Config) (answer : Except String Unit) :
    ¬ NoLeak (((withOwn s own).register nodeId cfg).activate nodeId answer).1 := by
  have hregistered := (h.withOwn own).apply (.register nodeId cfg)
  intro hleak
  exact not_noLeak_withOwn h.1 own
    ((noLeak_activate hregistered.1 hregistered.2 answer).mp hleak).1

variable {config : ServerConfig}

theorem Sound.act (h : Sound s) (action : Action) : Sound (act config s action) := by
  cases action with
  | manager op => exact h.apply op
  | serveConnect req own managers =>
    unfold Api.act
    dsimp only
    obtain ⟨err, hfail, -⟩ | ⟨cfg, -, -, hok⟩ := serveConnect_cases config s req own managers
    · rw [hfail]
      exact h
    · rw [hok]
      exact h.connectTwice cfg cfg managers
  | tryConnectNode node own managers =>
    unfold Api.act
    dsimp only
    obtain ⟨err, hfail, -⟩ | ⟨-, hok⟩ := tryConnectNode_cases s node own managers
    · rw [hfail]
      exact h
    · rw [hok]
      exact h.connectTwice (nodeConfig node) (nodeConfig node) managers

theorem noLeak_act (h : Sound s) (action : Action) :
    NoLeak (act config s action) ↔ NoLeak s ∧ Tidy config s action := by
  have hnothing {p : Prop} : p ↔ p ∧ True := (and_iff_left trivial).symm
  cases action with
  | manager op =>
    cases op with
    | register => exact hnothing
    | unregister | deactivate => exact noLeak_closeConn.trans hnothing
    | activate nodeId answer =>
      apply (noLeak_activate h.1 h.2 answer).trans
      cases answer <;> simp [Tidy]
    | close => exact noLeak_close.trans hnothing
  | serveConnect req own managers =>
    unfold act Tidy
    dsimp only
    obtain ⟨err, hfail, hwhy⟩ | ⟨cfg, hparams, rfl, hok⟩ :=
      serveConnect_cases config s req own managers
    · rw [hfail]
      cases own with
      | error cause => exact hnothing
      | ok =>
        obtain hparams | ⟨cause, hcause⟩ := hwhy
        · exact (and_iff_left hparams).symm
        · cases hcause
    · rw [hok]
      refine iff_of_false (not_noLeak_connectTwice h cfg cfg managers) ?_
      rintro ⟨-, err, herr⟩
      rw [hparams] at herr
      cases herr
  | tryConnectNode node own managers =>
    unfold act Tidy
    dsimp only
    obtain ⟨err, hfail, rfl⟩ | ⟨rfl, hok⟩ := tryConnectNode_cases s node own managers
    · rw [hfail]
      exact hnothing
    · rw [hok]
      refine iff_of_false ?_ fun hleak => hleak.2
      exact not_noLeak_connectTwice h (nodeConfig node) (nodeConfig node) managers

theorem clients_eq_image :
    s.clients = s.conns.keys.image fun nodeId => (s.conns.lookup nodeId).getD 0 := by
  ext client
  rw [mem_clients, Finset.mem_image]
  constructor
  · rintro ⟨k, hk⟩
    exact ⟨k, Finmap.mem_keys.mpr (Finmap.mem_of_lookup_eq_some hk), by rw [hk]; rfl⟩
  · rintro ⟨k, hk, rfl⟩
    obtain ⟨client, hclient⟩ := Finmap.mem_iff.mp (Finmap.mem_keys.mp hk)
    exact ⟨k, by rw [hclient]; rfl⟩

theorem Tracked.count_eq (h : Tracked s) : s.count = s.clients.card := by
  unfold State.count
  rw [clients_eq_image]
  symm
  apply Finset.card_image_of_injOn
  intro k hk k' hk' heq
  obtain ⟨client, hclient⟩ := Finmap.mem_iff.mp (Finmap.mem_keys.mp hk)
  obtain ⟨client', hclient'⟩ := Finmap.mem_iff.mp (Finmap.mem_keys.mp hk')
  dsimp only at heq
  rw [hclient, hclient'] at heq
  cases heq
  exact h.held_once k k' client hclient hclient'

theorem Tracked.clients_subset (h : Tracked s) : s.clients ⊆ openClients s := by
  intro client hclient
  obtain ⟨k, hk⟩ := mem_clients.mp hclient
  exact Finset.mem_sdiff.mpr
    ⟨Finset.mem_range.mpr (h.held_lt k client hk), h.held_open k client hk⟩

theorem noLeak_iff_subset : NoLeak s ↔ openClients s ⊆ s.clients := by
  unfold NoLeak openClients
  simp only [Finset.subset_iff, Finset.mem_sdiff, Finset.mem_range, and_imp, mem_clients,
    or_iff_not_imp_left]

/-- `Count` tells the open clients exactly when none was lost. -/
theorem Tracked.count_iff (h : Tracked s) : s.count = (openClients s).card ↔ NoLeak s := by
  rw [h.count_eq, noLeak_iff_subset]
  constructor
  · intro hcard
    exact (Finset.eq_of_subset_of_card_le h.clients_subset hcard.ge).ge
  · intro hsubset
    rw [Finset.Subset.antisymm h.clients_subset hsubset]

theorem close_iff :
    (∀ client < s.close.opened.length, client ∈ s.close.closed) ↔ NoLeak s := by
  apply forall₂_congr
  intro client _
  change client ∈ s.closed ∪ s.clients ↔ _
  rw [Finset.mem_union, mem_clients]

/-- After any sequence of operations every client that connected is closed or
held, closing the manager closes all, and its count is that of the open clients,
exactly when no node was connected a second time and no handler connected a
client of its own. -/
theorem noLeak_iff {actions : List Action} (hrun : (server config).run actions = some t) :
    (NoLeak t ∧ (∀ client < t.close.opened.length, client ∈ t.close.closed) ∧
        t.count = (openClients t).card) ↔
      (server config).Meets (Tidy config) newManager actions := by
  have hkeep : ∀ s action t, Sound s → (server config).step s action = some t → Sound t := by
    intro s action t h hstep
    cases hstep
    exact h.act action
  have hinit : Sound newManager := ⟨tracked_newManager, wired_newManager⟩
  have hsound : Sound t := run_keeps hinit hkeep hrun
  rw [close_iff, hsound.1.count_iff, and_self, and_self]
  refine run_monitored hkeep (fun s action t h hstep => ?_) hinit ?_ hrun
  · cases hstep
    exact noLeak_act h action
  · intro client hlt
    cases hlt

end

def localConfig : ServerConfig := ⟨"127.0.0.1", 5432, "postgres", "postgres", "postgres"⟩

def anyNode : Node :=
  ⟨"n1", "n1", "127.0.0.1", 5432, "postgres", "postgres", "postgres", "physical", "standby", "",
    "", none, none, "", "", "", ""⟩

def reconnect : List Action :=
  [.manager (.register "n1" (nodeConfig anyNode)), .manager (.activate "n1" (.ok ())),
    .manager (.deactivate "n1"), .manager (.activate "n1" (.ok ()))]

theorem noLeak_iff_reconnect :
    ∃ t, (server localConfig).run reconnect = some t ∧
      ((NoLeak t ∧ (∀ client < t.close.opened.length, client ∈ t.close.closed) ∧
          t.count = (openClients t).card) ↔
        (server localConfig).Meets (Tidy localConfig) newManager reconnect) := by
  have hrun : (server localConfig).run reconnect = some _ := rfl
  exact ⟨_, hrun, noLeak_iff hrun⟩

/-- A second activation of a connected node loses its first client. -/
theorem reactivate_leaks :
    ¬ ∀ (config : ServerConfig) (actions : List Action) (t : State),
      (server config).run actions = some t → NoLeak t := by
  intro h
  have hleak := h localConfig [.manager (.register "n1" (nodeConfig anyNode)),
    .manager (.activate "n1" (.ok ())), .manager (.activate "n1" (.ok ()))] _ rfl
  obtain hclosed | ⟨k, hk⟩ := hleak 0 (by decide)
  · revert hclosed
    decide
  · change ((((∅ : Finmap fun _ : String => Nat).insert "n1" 0).insert "n1" 1).lookup k) =
      some 0 at hk
    by_cases hother : k = "n1"
    · rw [hother, Finmap.lookup_insert] at hk
      cases hk
    · rw [Finmap.lookup_insert_of_ne _ hother, Finmap.lookup_insert_of_ne _ hother] at hk
      cases hk

end LearnPg.Api
