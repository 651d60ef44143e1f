import LearnPg.Api.Nodes

/-! What read requests do to the active node. An inspection of a node that is not
connected activates it, and no later read takes that back. -/
namespace LearnPg.Api

open Connection Workspace.Data Workspace.Store

/-- The read requests on a server's data, all of which ask the active node. -/
inductive DataRead where
  | wal
  | walSegments
  | clogStatus
  | clog
  | clogFile
  | snapshot

inductive Get where
  | clusterOverview (clusterID : String) (w : World) (probe : Nat → Probe)
  | nodeStatus (nodeID : String) (w : World) (ping : Nat → Except String Unit)
  | data (read : DataRead)

inductive Response where
  | overview (result : Except String (List NodeStatus))
  | nodeStatus (result : Except String (String × Bool × String))
  | data (client : Option Nat)

def serveGet (s : WorkspaceStore) (file : File) (m : State) : Get → State × Response
  | .clusterOverview clusterID w probe =>
    let (m, result) := serveClusterOverview s file m w probe clusterID
    (m, .overview result)
  | .nodeStatus nodeID w ping => (m, .nodeStatus (serveNodeStatus s file m w ping nodeID))
  | .data _ => (m, .data (dataClient m))

def serveGets (s : WorkspaceStore) (file : File) (m : State) (gets : List Get) : State :=
  gets.foldl (fun m get => (serveGet s file m get).1) m

/-- The inspections that a request makes, in order. -/
def inspections (s : WorkspaceStore) (file : File) : Get → List (Probe × String)
  | .clusterOverview clusterID w probe =>
    if clusterID = "" then []
    else match readAll s w file with
    | .error _ => []
    | .ok projects =>
      match overviewCluster projects clusterID with
      | none => []
      | some cluster => cluster.nodes.items.mapIdx fun i node => (probe i, node.id)
  | _ => []

/-- The inspection finds a node that the manager holds no connection for, and the
server it names answers. -/
def Connects (s : WorkspaceStore) (file : File) (m : State) (e : Probe × String) : Prop :=
  (inspectedNode s e.1.world file e.2).isSome ∧ e.2 ∉ m.conns ∧ e.1.answer = .ok ()

section

variable {s : WorkspaceStore} {file : File} {m m' : State} {active k : String} {client : Nat}

def inspectAll (s : WorkspaceStore) (file : File) (m : State) (events : List (Probe × String)) :
    State :=
  events.foldl (fun m e => (inspectNodeByID s file m e.1 e.2).1) m

theorem overviewNodes_eq (probe : Nat → Probe) (i : Nat) (nodes : List Node) (m : State) :
    (overviewNodes s file probe i nodes m).1 =
      inspectAll s file m (nodes.mapIdx fun j node => (probe (i + j), node.id)) := by
  induction nodes generalizing i m with
  | nil => rfl
  | cons node nodes ih =>
    rw [List.mapIdx_cons]
    unfold overviewNodes
    dsimp only
    rw [ih]
    simp only [Nat.add_zero, Nat.add_comm _ 1, ← Nat.add_assoc]
    rfl

theorem serveGet_eq (get : Get) :
    (serveGet s file m get).1 = inspectAll s file m (inspections s file get) := by
  cases get with
  | nodeStatus | data => rfl
  | clusterOverview clusterID w probe =>
    unfold serveGet serveClusterOverview inspections
    dsimp only
    by_cases hempty : clusterID = ""
    · rw [if_pos hempty, if_pos hempty]
      rfl
    · rw [if_neg hempty, if_neg hempty]
      cases readAll s w file with
      | error err => rfl
      | ok projects =>
        dsimp only
        cases overviewCluster projects clusterID with
        | none => rfl
        | some cluster =>
          dsimp only
          rw [overviewNodes_eq]
          simp only [Nat.zero_add]

theorem serveGets_eq (gets : List Get) :
    serveGets s file m gets = inspectAll s file m (gets.flatMap (inspections s file)) := by
  induction gets generalizing m with
  | nil => rfl
  | cons get gets ih =>
    rw [List.flatMap_cons]
    unfold inspectAll
    rw [List.foldl_append]
    change serveGets s file (serveGet s file m get).1 gets = _
    rw [ih, serveGet_eq]
    rfl

/-- The user's node is still connected, and another one is active. -/
structure Redirected (active : String) (m : State) : Prop where
  connected : active ∈ m.conns
  elsewhere : ∃ k, m.active = some k ∧ k ≠ active

theorem Redirected.inspect (h : Redirected active m) (e : Probe × String) :
    Redirected active (inspectNodeByID s file m e.1 e.2).1 := by
  obtain ⟨hconns, hactive, -, -⟩ | ⟨node, -, hfree, -, hstate⟩ :=
    inspectNodeByID_cases s file m e.1 e.2
  · exact ⟨by rw [hconns]; exact h.connected, by rw [hactive]; exact h.elsewhere⟩
  · rw [hstate]
    refine ⟨Finmap.mem_insert.mpr (.inr h.connected), e.2, rfl, ?_⟩
    rintro rfl
    exact hfree h.connected

theorem Redirected.inspectAll (h : Redirected active m) (events : List (Probe × String)) :
    Redirected active (inspectAll s file m events) := by
  induction events generalizing m with
  | nil => exact h
  | cons e events ih => exact ih (h.inspect e)

theorem Redirected.getActive (h : Redirected active m) : m.getActive ≠ (active, some client) := by
  obtain ⟨k, hk, hother⟩ := h.elsewhere
  unfold State.getActive
  rw [hk]
  dsimp only
  split
  · simp
  · split
    · simp
    · simp [hother]

theorem getActive_congr (hconns : m'.conns = m.conns) (hactive : m'.active = m.active) :
    m'.getActive = m.getActive := by
  unfold State.getActive
  rw [hconns, hactive]

theorem getActive_some (h : m.getActive = (active, some client)) :
    m.active = some active ∧ m.conns.lookup active = some client := by
  unfold State.getActive at h
  cases hactive : m.active with
  | none =>
    rw [hactive] at h
    cases h
  | some k =>
    rw [hactive] at h
    dsimp only at h
    split at h
    · cases h
    · cases hconn : m.conns.lookup k with
      | none =>
        rw [hconn] at h
        cases h
      | some c =>
        rw [hconn] at h
        cases h
        exact ⟨rfl, hconn⟩

/-- As long as nothing connects, the manager's connections stay as they are; the
first inspection that connects redirects. -/
theorem inspectAll_getActive_iff (h : m.getActive = (active, some client))
    (hconns : m'.conns = m.conns) (hactive : m'.active = m.active)
    (events : List (Probe × String)) :
    (inspectAll s file m' events).getActive = m.getActive ↔
      ∀ e ∈ events, ¬ Connects s file m e := by
  induction events generalizing m' with
  | nil => exact iff_of_true (getActive_congr hconns hactive) (List.forall_mem_nil _)
  | cons e events ih =>
    obtain ⟨hsome, hconn⟩ := getActive_some h
    rw [List.forall_mem_cons]
    obtain ⟨hconns', hactive', -, hwhy⟩ | ⟨node, hnode, hfree, hanswer, hstate⟩ :=
      inspectNodeByID_cases s file m' e.1 e.2
    · have hnot : ¬ Connects s file m e := by
        rintro ⟨hfound, hfree, hanswer⟩
        rw [← hconns] at hfree
        exact hwhy hfound hfree hanswer
      rw [and_iff_right hnot]
      exact ih (hconns'.trans hconns) (hactive'.trans hactive)
    · rw [hconns] at hfree
      have hconnects : Connects s file m e := ⟨by rw [hnode]; rfl, hfree, hanswer⟩
      refine iff_of_false ?_ fun hnone => hnone.1 hconnects
      have hmem := Finmap.mem_of_lookup_eq_some hconn
      have hredirected : Redirected active (inspectNodeByID s file m' e.1 e.2).1 := by
        rw [hstate]
        refine ⟨Finmap.mem_insert.mpr (.inr (by rw [hconns]; exact hmem)), e.2, rfl, ?_⟩
        rintro rfl
        exact hfree hmem
      rw [h]
      exact (hredirected.inspectAll events).getActive

/-- Read requests leave the active node and the client that statements run on as
they are exactly when no inspection among them connects a node that was not
connected. -/
theorem serveGets_getActive_iff (h : m.getActive.2.isSome) (gets : List Get) :
    ((serveGets s file m gets).getActive = m.getActive ∧
        serveExecute (serveGets s file m gets) = serveExecute m) ↔
      ∀ get ∈ gets, ∀ e ∈ inspections s file get, ¬ Connects s file m e := by
  obtain ⟨client, hclient⟩ := Option.isSome_iff_exists.mp h
  have hactive : m.getActive = (m.getActive.1, some client) := by rw [← hclient]
  have hexecute (hsame : (serveGets s file m gets).getActive = m.getActive) :
      serveExecute (serveGets s file m gets) = serveExecute m := by
    unfold serveExecute
    rw [hsame]
  rw [and_iff_left_of_imp hexecute, serveGets_eq, inspectAll_getActive_iff hactive rfl rfl]
  simp only [List.mem_flatMap, forall_exists_index, and_imp]
  exact forall_comm.trans (forall_congr' fun get => forall_comm)

end

def nodeAt (id : String) : Node :=
  ⟨id, id, "127.0.0.1", 5432, "postgres", "", "postgres", "physical", "standby", "", "", none,
    none, "", "", "", ""⟩

def primaryAndStandby : File :=
  .envelope ⟨currentWorkspaceSchemaVersion,
    .of [⟨"p1", "shop", .of [⟨"c1", "main", "streaming", 30, "", "", none,
      .of [nodeAt "n1", nodeAt "n2"]⟩], .of []⟩], .nil⟩

def onPrimary : State :=
  ((newManager.register "n1" (nodeConfig (nodeAt "n1"))).activate "n1" (.ok ())).1

def overviewRefused : Get :=
  .clusterOverview "c1" quiet fun _ => ⟨quiet, .error "connection refused"⟩

theorem serveGets_getActive_refused :
    ((serveGets plainStore primaryAndStandby onPrimary [overviewRefused]).getActive =
          onPrimary.getActive ∧
        serveExecute (serveGets plainStore primaryAndStandby onPrimary [overviewRefused]) =
          serveExecute onPrimary) ↔
      ∀ get ∈ [overviewRefused], ∀ e ∈ inspections plainStore primaryAndStandby get,
        ¬ Connects plainStore primaryAndStandby onPrimary e :=
  serveGets_getActive_iff (by decide) [overviewRefused]

/-- An overview of both nodes leaves the second one active. -/
theorem overview_redirects :
    ¬ ∀ (s : WorkspaceStore) (file : File) (m : State) (gets : List Get),
      m.getActive.2.isSome → serveExecute (serveGets s file m gets) = serveExecute m := by
  intro h
  have hsame := h plainStore primaryAndStandby onPrimary
    [.clusterOverview "c1" quiet fun _ => ⟨quiet, .ok ()⟩] (by decide)
  revert hsame
  decide

end LearnPg.Api
