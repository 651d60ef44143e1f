import LearnPg.Api.Activation
import LearnPg.Workspace.AtRest
import LearnPg.Workspace.Edits
import LearnPg.Workspace.Writes

/-! When the statuses in the workspace file agree with the connections that the
manager holds, whatever the order of the handlers' steps. -/
namespace LearnPg.Api.Activation

open Connection Workspace.Data Workspace.Store Workspace.Places Workspace.Edits
  Workspace.Writes Workspace LearnPg.Basis.Runs

def statusAt (projects : Slice Project) (place : Place) : Option (String × String) :=
  (Places.nodeAt projects place).map fun n => (n.id, n.connectionStatus)

/-- The manager holds a connection for every node stored as ready. -/
def StatusAgrees (file : File) (manager : Connection.State) : Prop :=
  ∀ place nodeID, statusAt (storedProjects file) place = some (nodeID, "ready") →
    (manager.conns.lookup nodeID).isSome

def FirstOf (projects : Slice Project) (nodeID : String) (place : Place) : Prop :=
  ∀ earlier status, statusAt projects earlier = some (nodeID, status) → ¬ Before earlier place

section Status

variable {s : WorkspaceStore} {w : World} {file file' : File} {projects : Slice Project}

theorem statusAt_mapNodes {f : Node → Node} (hf : ∀ n, ∃ password, f n = { n with password })
    (place : Place) : statusAt (mapNodes f projects) place = statusAt projects place := by
  unfold statusAt
  rw [nodeAt_mapNodes, Option.map_map]
  congr 1
  funext n
  obtain ⟨password, hn⟩ := hf n
  rw [Function.comp, hn]

theorem statusAt_written {written : Slice Project} (h : OnNodes (WrittenAs s) projects written)
    (place : Place) : statusAt written place = statusAt projects place := by
  have hblank (n : Node) : ∃ password, { n with password := "" } = { n with password } := ⟨"", rfl⟩
  have hsame : mapNodes (fun n => { n with password := "" }) written =
      mapNodes (fun n => { n with password := "" }) projects := by
    apply h.mapNodes_eq
    intro n n' hn
    obtain ⟨password, rfl⟩ := writtenAs_same hn
    rfl
  rw [← statusAt_mapNodes hblank, hsame, statusAt_mapNodes hblank]

theorem statusAt_read (h : readAll s w file = .ok projects) (place : Place) :
    statusAt projects place = statusAt (storedProjects file) place := by
  obtain ⟨env, henv, rfl⟩ := read_of_readAll h
  rw [projects_of_read henv, statusAt_mapNodes readNode_same]
  unfold statusAt
  rw [nodeAt_normalize]

theorem setStatus_ok {nodeID status lastError : String}
    (h : setStatus s w nodeID status lastError file = .ok file') :
    CallsWork w ∧ ∃ first, FirstOf (storedProjects file) nodeID first ∧
      (∃ before, statusAt (storedProjects file) first = some (nodeID, before)) ∧
      ∀ place, statusAt (storedProjects file') place =
        if place = first then some (nodeID, status)
        else statusAt (storedProjects file) place := by
  obtain ⟨hwork, projects, hread⟩ := exec_read h
  obtain ⟨next, hnext, hwritten⟩ := exec_onProjects h hread
  obtain ⟨first, n, hn, hid, hfirst, hchange⟩ := updateNodeStatus_ok hnext
  refine ⟨hwork, first, ?_, ⟨n.connectionStatus, ?_⟩, fun place => ?_⟩
  · intro earlier status hearlier
    rw [← statusAt_read hread] at hearlier
    obtain ⟨m, hm, heq⟩ := Option.map_eq_some_iff.mp hearlier
    exact hfirst earlier m hm (Prod.mk.inj heq).1
  · rw [← statusAt_read hread, ← hid]
    unfold statusAt
    rw [hn]
    rfl
  · rw [statusAt_written hwritten, ← statusAt_read hread]
    unfold statusAt
    rw [hchange]
    split
    · rw [← hid]
      rfl
    · rfl

theorem setStatus_total {nodeID before : String} {place : Place} (hkey : KeyFits s)
    (hrandom : RandomWorks w) (hwork : CallsWork w) (status lastError : String)
    (h : statusAt (storedProjects file) place = some (nodeID, before)) :
    ∃ file', setStatus s w nodeID status lastError file = .ok file' := by
  obtain ⟨n, hn, -⟩ := Option.map_eq_some_iff.mp h
  obtain ⟨env, henv⟩ := read_of_nodeAt s hwork.read hn
  have hread : readAll s w file = .ok env.projects := bind_ok.mpr ⟨env, henv, rfl⟩
  rw [← statusAt_read hread] at h
  obtain ⟨m, hm, heq⟩ := Option.map_eq_some_iff.mp h
  obtain ⟨next, hnext⟩ := updateNodeStatus_total status lastError hm
  rw [(Prod.mk.inj heq).1] at hnext
  exact exec_total hkey hrandom hwork hread hnext

theorem firstOf_unique {nodeID before before' : String} {place place' : Place}
    (h : FirstOf projects nodeID place) (hplace : statusAt projects place = some (nodeID, before))
    (h' : FirstOf projects nodeID place')
    (hplace' : statusAt projects place' = some (nodeID, before')) : place = place' := by
  have hle := h place' before' hplace'
  have hge := h' place before hplace
  unfold Before at hle hge
  apply Place.ext <;> omega

/-- Another status than ready makes no node ready. -/
theorem ready_of_trySetStatus {nodeID status lastError : String} {place : Place} {id : String}
    (hstatus : status ≠ "ready")
    (h : statusAt (storedProjects (trySetStatus s w nodeID status lastError file)) place =
      some (id, "ready")) : statusAt (storedProjects file) place = some (id, "ready") := by
  unfold trySetStatus at h
  cases hset : setStatus s w nodeID status lastError file with
  | error err =>
    rw [hset] at h
    exact h
  | ok file' =>
    rw [hset] at h
    obtain ⟨-, first, -, -, hchange⟩ := setStatus_ok hset
    dsimp only at h
    rw [hchange] at h
    split at h
    · exact absurd (Prod.mk.inj (Option.some.inj h)).2 hstatus
    · exact h

end Status

section Run

variable {ι : Type} {s : WorkspaceStore} {requests : ι → Request} {st t : Server ι}

/-- A deactivation that has closed the node's connection and has not written the
node's status. -/
def Closing (requests : ι → Request) (st : Server ι) (nodeID : String) (i : ι) : Prop :=
  requests i = .deactivate nodeID ∧ st.pc i = .closed

def Held (st : Server ι) (nodeID : String) : Prop := (st.manager.conns.lookup nodeID).isSome

def Ready (st : Server ι) (place : Place) (nodeID : String) : Prop :=
  statusAt (storedProjects st.file) place = some (nodeID, "ready")

/-- Every node stored as ready is connected, or a deactivation of it has yet to
write its status. -/
def Backed (requests : ι → Request) (st : Server ι) : Prop :=
  ∀ place nodeID, Ready st place nodeID →
    Held st nodeID ∨ ∃ i, Closing requests st nodeID i

/-- What keeps the statuses right: a restart finds no node ready; the status ready
is written while the connection is there, or while a deactivation has yet to write
over it; and the last deactivation of a node to write its status can do so, the
node being the first with its id. -/
def Fits (requests : ι → Request) (st : Server ι) : Label ι → Prop
  | .next i w _ =>
    match requests i, st.pc i with
    | .activate nodeID, .connected _ =>
      Held st nodeID ∨ (∃ j, Closing requests st nodeID j) ∨ ¬ CallsWork w
    | .deactivate nodeID, .closed =>
      ∀ place, Ready st place nodeID →
        Held st nodeID ∨ (∃ j, j ≠ i ∧ Closing requests st nodeID j) ∨
          CallsWork w ∧ RandomWorks w ∧ FirstOf (storedProjects st.file) nodeID place
    | _, _ => True
  | .restart auto =>
    ∀ place nodeID, Ready st place nodeID → nodeID = "__auto__" ∧ ∃ cfg, auto = some (cfg, .ok ())

theorem Backed.mono (h : Backed requests st)
    (hready : ∀ place nodeID, Ready t place nodeID → Ready st place nodeID)
    (hheld : ∀ nodeID, Held st nodeID → Held t nodeID)
    (hclosing : ∀ nodeID i, Closing requests st nodeID i → Closing requests t nodeID i) :
    Backed requests t := by
  intro place nodeID hplace
  obtain hconn | ⟨i, hi⟩ := h place nodeID (hready place nodeID hplace)
  · exact .inl (hheld nodeID hconn)
  · exact .inr ⟨i, hclosing nodeID i hi⟩

variable [DecidableEq ι] {i : ι} {nodeID : String} {pc : Pc} {w : World}

theorem closing_move {k : String} {j : ι} (hi : st.pc i ≠ .closed ∨ ∃ id, requests i = .activate id)
    (hj : Closing requests st k j) : Closing requests (st.move i pc) k j := by
  have hne : j ≠ i := by
    rintro rfl
    obtain hpc | ⟨id, hid⟩ := hi
    · exact hpc hj.2
    · have hdeactivate := hj.1
      rw [hid] at hdeactivate
      cases hdeactivate
  exact ⟨hj.1, (Function.update_of_ne hne _ _).trans hj.2⟩

theorem held_activate {m m' : Connection.State} {answer : Except String Unit}
    {r : Except String Unit} (h : m.activate nodeID answer = (m', r)) {k : String}
    (hk : (m.conns.lookup k).isSome) : (m'.conns.lookup k).isSome := by
  obtain ⟨err, heq, -⟩ | ⟨cfg, -, -, heq⟩ := activate_cases m nodeID answer
  · rw [heq] at h
    cases h
    exact hk
  · rw [heq] at h
    cases h
    by_cases hid : k = nodeID
    · rw [hid, Finmap.lookup_insert]
      rfl
    · rw [Finmap.lookup_insert_of_ne _ hid]
      exact hk

theorem Backed.activate (h : Backed requests st) (hi : requests i = .activate nodeID)
    {answer : Except String Unit} (hfits : Fits requests st (.next i w answer))
    (hstep : serveNodeActivate s nodeID w answer st i = some t) : Backed requests t := by
  have hclosing {pc : Pc} : ∀ k j, Closing requests st k j →
      Closing requests (st.move i pc) k j := fun k j => closing_move (.inr ⟨nodeID, hi⟩)
  unfold serveNodeActivate at hstep
  split at hstep
  next hpc =>
    split at hstep <;> cases hstep <;> exact h.mono (fun _ _ => id) (fun _ => id) hclosing
  next targetNode hpc =>
    cases hstep
    exact h.mono (fun _ _ => id) (fun _ => id) hclosing
  next targetNode hpc =>
    split at hstep
    next err herr =>
      cases hstep
      exact h.mono (fun _ _ => id) (fun _ => id) hclosing
    next file hfile =>
      cases hstep
      refine h.mono (fun place k hready => ?_) (fun _ => id) hclosing
      have htry : trySetStatus s w nodeID "connecting" "" st.file = file := by
        unfold trySetStatus
        rw [hfile]
      have hconnecting : "connecting" ≠ "ready" := by decide
      apply ready_of_trySetStatus hconnecting
      rw [htry]
      exact hready
  next targetNode hpc =>
    split at hstep
    next manager err hactivate =>
      cases hstep
      exact h.mono (fun _ _ => id) (fun _ => held_activate hactivate) hclosing
    next manager hactivate =>
      cases hstep
      exact h.mono (fun _ _ => id) (fun _ => held_activate hactivate) hclosing
  next err hpc =>
    cases hstep
    exact h.mono (fun _ _ => ready_of_trySetStatus (by decide)) (fun _ => id) hclosing
  next targetNode hpc =>
    cases hstep
    simp only [Fits, hi, hpc] at hfits
    intro place k hready
    change statusAt (storedProjects (trySetStatus s w nodeID "ready" "" st.file)) place = _
      at hready
    unfold trySetStatus at hready
    cases hset : setStatus s w nodeID "ready" "" st.file with
    | error err =>
      rw [hset] at hready
      exact (h place k hready).imp id fun ⟨j, hj⟩ => ⟨j, hclosing k j hj⟩
    | ok file =>
      rw [hset] at hready
      obtain ⟨hwork, first, -, -, hchange⟩ := setStatus_ok hset
      dsimp only at hready
      rw [hchange] at hready
      split at hready
      · obtain rfl : nodeID = k := (Prod.mk.inj (Option.some.inj hready)).1
        obtain hheld | ⟨j, hj⟩ | hfails := hfits
        · exact .inl hheld
        · exact .inr ⟨j, hclosing nodeID j hj⟩
        · exact absurd hwork hfails
      · exact (h place k hready).imp id fun ⟨j, hj⟩ => ⟨j, hclosing k j hj⟩
  next => cases hstep

theorem held_deactivate {m : Connection.State} {k : String} (hne : k ≠ nodeID)
    (hk : (m.conns.lookup k).isSome) : ((m.deactivate nodeID).conns.lookup k).isSome := by
  change ((m.closeConn nodeID).conns.lookup k).isSome
  rw [lookup_closeConn, if_neg hne]
  exact hk

theorem Backed.deactivate (hkey : KeyFits s) (h : Backed requests st)
    (hi : requests i = .deactivate nodeID) {answer : Except String Unit}
    (hfits : Fits requests st (.next i w answer))
    (hstep : serveNodeDeactivate s nodeID w st i = some t) : Backed requests t := by
  unfold serveNodeDeactivate at hstep
  split at hstep
  next hpc =>
    have hclosing {pc : Pc} : ∀ k j, Closing requests st k j →
        Closing requests (st.move i pc) k j := fun k j => closing_move (.inl (by simp [hpc]))
    split at hstep
    · cases hstep
      exact h.mono (fun _ _ => id) (fun _ => id) hclosing
    · cases hstep
      intro place k hready
      by_cases hk : k = nodeID
      · refine .inr ⟨i, by rw [hk, hi], Function.update_self _ _ _⟩
      · obtain hheld | ⟨j, hj⟩ := h place k hready
        · exact .inl (held_deactivate hk hheld)
        · exact .inr ⟨j, hclosing k j hj⟩
  next hpc =>
    cases hstep
    simp only [Fits, hi, hpc] at hfits
    intro place k hready
    have hbefore : Ready st place k := ready_of_trySetStatus (by decide) hready
    by_cases hk : k = nodeID
    · rw [hk] at hready hbefore ⊢
      obtain hheld | ⟨j, hne, hj⟩ | ⟨hwork, hrandom, hfirst⟩ := hfits place hbefore
      · exact .inl hheld
      · exact .inr ⟨j, hj.1, (Function.update_of_ne hne _ _).trans hj.2⟩
      · obtain ⟨file, hset⟩ := setStatus_total hkey hrandom hwork "unknown" "" hbefore
        obtain ⟨-, first, hfirst', ⟨before, hbefore'⟩, hchange⟩ := setStatus_ok hset
        have heq : place = first :=
          firstOf_unique hfirst hbefore hfirst' hbefore'
        have hunknown : trySetStatus s w nodeID "unknown" "" st.file = file := by
          unfold trySetStatus
          rw [hset]
        change statusAt (storedProjects (trySetStatus s w nodeID "unknown" "" st.file)) place = _
          at hready
        rw [hunknown, hchange, if_pos heq] at hready
        exact absurd (Prod.mk.inj (Option.some.inj hready)).2 (by decide)
    · obtain hheld | ⟨j, hj⟩ := h place k hbefore
      · exact .inl hheld
      · have hne : j ≠ i := by
          rintro rfl
          have hid := hj.1
          rw [hi] at hid
          exact hk (Request.deactivate.inj hid).symm
        exact .inr ⟨j, hj.1, (Function.update_of_ne hne _ _).trans hj.2⟩
  next => cases hstep

theorem held_startManager {auto : Option (Config × Except String Unit)} {cfg : Config}
    (h : auto = some (cfg, .ok ())) : ((startManager auto).conns.lookup "__auto__").isSome := by
  obtain ⟨-, hnone⟩ | ⟨cfg', -, -, hconns⟩ := startManager_cases auto
  · exact absurd h (hnone cfg)
  · rw [hconns, Finmap.lookup_insert]
    rfl

theorem Backed.step (hkey : KeyFits s) (h : Backed requests st) {l : Label ι}
    (hfits : Fits requests st l) (hstep : step s requests st l = some t) : Backed requests t := by
  cases l with
  | next i w answer =>
    unfold Activation.step at hstep
    dsimp only at hstep
    split at hstep
    next nodeID hi => exact h.activate hi hfits hstep
    next nodeID hi => exact h.deactivate hkey hi hfits hstep
  | restart auto =>
    cases hstep
    intro place nodeID hready
    obtain ⟨rfl, cfg, hauto⟩ := hfits place nodeID hready
    exact .inl (held_startManager hauto)

/-- From statuses that agree, every run whose steps all fit leads to statuses that
agree, once no request is in progress. -/
theorem status_agrees (hkey : KeyFits s) {file : File} {manager : Connection.State}
    (hstart : StatusAgrees file manager) {labels : List (Label ι)}
    (hfits : (server s requests file manager).Meets (Fits requests)
      (server s requests file manager).init labels)
    (hrun : (server s requests file manager).run labels = some t)
    (hidle : ∀ i, (t.pc i).idle) : StatusAgrees t.file t.manager := by
  have hbacked : Backed requests t := by
    apply runFrom_keeps_of_meets _ _ hfits hrun
    · intro st l t h hfits hstep
      exact h.step hkey hfits hstep
    · intro place nodeID hready
      exact .inl (hstart place nodeID hready)
  intro place nodeID hready
  obtain hheld | ⟨i, -, hi⟩ := hbacked place nodeID hready
  · exact hheld
  · have hclosed := hidle i
    rw [hi] at hclosed
    cases hclosed

end Run

def oneFile : File := .envelope (AtRest.oneNode "")

/-- One request activates the node, the other one deactivates it. -/
def twoRequests : Bool → Request
  | true => .activate "n1"
  | false => .deactivate "n1"

theorem oneFile_agrees : StatusAgrees oneFile newManager := by
  intro place nodeID hready
  obtain ⟨n, hn, heq⟩ := Option.map_eq_some_iff.mp hready
  obtain ⟨p, hp, hn⟩ := Option.bind_eq_some_iff.mp hn
  obtain ⟨c, hc, hn⟩ := Option.bind_eq_some_iff.mp hn
  have hstatus : ∀ p ∈ (storedProjects oneFile).items, ∀ c ∈ p.clusters.items,
      ∀ n ∈ c.nodes.items, n.connectionStatus ≠ "ready" := by decide
  have hnode := hstatus p (List.mem_of_getElem? hp) c (List.mem_of_getElem? hc) n
    (List.mem_of_getElem? hn)
  exact absurd (Prod.mk.inj heq).2 hnode

def activation : List (Label Bool) := List.replicate 5 (.next true AtRest.zeros (.ok ()))

theorem status_agrees_activation :
    ∃ t, (server plainStore twoRequests oneFile newManager).run activation = some t ∧
      StatusAgrees t.file t.manager := by
  have hkey : KeyFits plainStore := nofun
  have hfits : (server plainStore twoRequests oneFile newManager).Meets (Fits twoRequests)
      (server plainStore twoRequests oneFile newManager).init activation := by
    refine (meets_cons rfl).mpr ⟨trivial, ?_⟩
    refine (meets_cons rfl).mpr ⟨trivial, ?_⟩
    refine (meets_cons rfl).mpr ⟨trivial, ?_⟩
    refine (meets_cons rfl).mpr ⟨trivial, ?_⟩
    exact (meets_cons rfl).mpr ⟨.inl rfl, trivial⟩
  obtain ⟨t, hrun⟩ : ∃ t,
    (server plainStore twoRequests oneFile newManager).run activation = some t := ⟨_, rfl⟩
  refine ⟨t, hrun, status_agrees hkey oneFile_agrees hfits hrun fun i => ?_⟩
  cases hrun
  cases i <;> rfl

/-- A node is deactivated while it is being activated: the connection is closed
before the status ready is written. -/
theorem ready_without_connection :
    ¬ ∀ (ι : Type) (_ : DecidableEq ι) (s : WorkspaceStore) (requests : ι → Request)
      (file : File) (manager : Connection.State) (labels : List (Label ι)) (t : Server ι),
      KeyFits s → StatusAgrees file manager →
      (server s requests file manager).run labels = some t → (∀ i, (t.pc i).idle) →
      StatusAgrees t.file t.manager := by
  intro h
  have hkey : KeyFits plainStore := nofun
  have hagrees := h Bool inferInstance plainStore twoRequests oneFile newManager
    (List.replicate 4 (.next true AtRest.zeros (.ok ())) ++
      List.replicate 2 (.next false AtRest.zeros (.ok ())) ++
      [.next true AtRest.zeros (.ok ())]) _ hkey oneFile_agrees rfl fun i => by cases i <;> rfl
  have hheld := hagrees ⟨0, 0, 0⟩ "n1" rfl
  cases hheld

end LearnPg.Api.Activation
