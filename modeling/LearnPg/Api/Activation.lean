import LearnPg.Api.Connect
import LearnPg.Api.Crud

/-! The handlers that activate and deactivate nodes. Each changes the workspace
file and the connection manager in separate steps, between which the steps of
other requests may come, and the server may be restarted. -/
namespace LearnPg.Api.Activation

open Connection Workspace.Data Workspace.Store LearnPg.Basis.Runs

inductive Request where
  | activate (nodeID : String)
  | deactivate (nodeID : String)

/-- What a successful response carries besides `"success": true`. -/
inductive Answer where
  | activated (version dataDir : String)
  | deactivated

/-- Where a request is. Every constructor but the first and the last two names
what the request has just done. -/
inductive Pc where
  | waiting
  | found (targetNode : Node)
  | registered (targetNode : Node)
  | connecting (targetNode : Node)
  | connected (targetNode : Node)
  | refused (err : String)
  | closed
  | finished (answer : Except ApiError Answer)
  | lost

def Pc.idle : Pc → Bool
  | .waiting | .finished _ | .lost => true
  | _ => false

def Pc.kill : Pc → Pc
  | .waiting => .waiting
  | .finished answer => .finished answer
  | _ => .lost

structure Server (ι : Type) where
  file : File
  manager : Connection.State
  pc : ι → Pc

/-- `w` and `answer` are what the system and the node's database do to the step. -/
inductive Label (ι : Type) where
  | next (i : ι) (w : World) (answer : Except String Unit)
  | restart (auto : Option (Config × Except String Unit))

def metaOf (targetNode : Node) : Answer :=
  match targetNode.instanceMeta with
  | none => .activated "" ""
  | some m => .activated m.version m.dataDir

def setStatus (s : WorkspaceStore) (w : World) (nodeID status lastError : String) :
    File → Except String File :=
  (txn s w (.updateNodeStatus nodeID status lastError)).exec

/-- `UpdateNodeStatus` where its error is not looked at. -/
def trySetStatus (s : WorkspaceStore) (w : World) (nodeID status lastError : String)
    (file : File) : File :=
  match setStatus s w nodeID status lastError file with
  | .ok file => file
  | .error _ => file

/-- The manager of a new process, which connects to the server's own database if
one is configured. -/
def startManager : Option (Config × Except String Unit) → Connection.State
  | none => newManager
  | some (cfg, answer) => ((newManager.register "__auto__" cfg).activate "__auto__" answer).1

theorem startManager_cases (auto : Option (Config × Except String Unit)) :
    (startManager auto).conns = ∅ ∧ (∀ cfg, auto ≠ some (cfg, .ok ())) ∨
      ∃ cfg, auto = some (cfg, .ok ()) ∧ (startManager auto).opened = [cfg] ∧
        (startManager auto).conns = newManager.conns.insert "__auto__" 0 := by
  unfold startManager
  cases auto with
  | none => exact .inl ⟨rfl, nofun⟩
  | some own =>
    obtain ⟨cfg, answer⟩ := own
    dsimp only
    obtain ⟨err, hfail, hwhy⟩ | ⟨cfg', hcfg, rfl, hok⟩ :=
      activate_cases (newManager.register "__auto__" cfg) "__auto__" answer
    · rw [hfail]
      refine .inl ⟨rfl, ?_⟩
      rintro cfg' heq
      cases heq
      obtain ⟨cause, hcause⟩ | hnone := hwhy
      · cases hcause
      · rw [lookup_register, if_pos rfl] at hnone
        cases hnone
    · rw [lookup_register, if_pos rfl] at hcfg
      cases hcfg
      rw [hok]
      exact .inr ⟨cfg, rfl, rfl, rfl⟩

section Steps

variable {ι : Type} [DecidableEq ι]

def Server.move (st : Server ι) (i : ι) (pc : Pc) : Server ι :=
  { st with pc := Function.update st.pc i pc }

def serveNodeActivate (s : WorkspaceStore) (nodeID : String) (w : World)
    (answer : Except String Unit) (st : Server ι) (i : ι) : Option (Server ι) :=
  match st.pc i with
  | .waiting =>
    match findNode s w st.file nodeID with
    | .error err => some (st.move i (.finished (.error err)))
    | .ok (_, _, targetNode) => some (st.move i (.found targetNode))
  | .found targetNode =>
    some ({ st with manager := st.manager.register nodeID (nodeConfig targetNode) }.move i
      (.registered targetNode))
  | .registered targetNode =>
    match setStatus s w nodeID "connecting" "" st.file with
    | .error err =>
      some (st.move i (.finished (.error ⟨500, "failed to update node status: " ++ err⟩)))
    | .ok file => some ({ st with file }.move i (.connecting targetNode))
  | .connecting targetNode =>
    match st.manager.activate nodeID answer with
    | (manager, .error err) => some ({ st with manager }.move i (.refused err))
    | (manager, .ok ()) => some ({ st with manager }.move i (.connected targetNode))
  | .refused err =>
    some ({ st with file := trySetStatus s w nodeID "failed" err st.file }.move i
      (.finished (.error ⟨500, "activation failed: " ++ err⟩)))
  | .connected targetNode =>
    some ({ st with file := trySetStatus s w nodeID "ready" "" st.file }.move i
      (.finished (.ok (metaOf targetNode))))
  | _ => none

def serveNodeDeactivate (s : WorkspaceStore) (nodeID : String) (w : World) (st : Server ι)
    (i : ι) : Option (Server ι) :=
  match st.pc i with
  | .waiting =>
    if nodeID = "" then some (st.move i (.finished (.error ⟨400, "node id is required"⟩)))
    else some ({ st with manager := st.manager.deactivate nodeID }.move i .closed)
  | .closed =>
    some ({ st with file := trySetStatus s w nodeID "unknown" "" st.file }.move i
      (.finished (.ok .deactivated)))
  | _ => none

def step (s : WorkspaceStore) (requests : ι → Request) (st : Server ι) :
    Label ι → Option (Server ι)
  | .next i w answer =>
    match requests i with
    | .activate nodeID => serveNodeActivate s nodeID w answer st i
    | .deactivate nodeID => serveNodeDeactivate s nodeID w st i
  | .restart auto => some ⟨st.file, startManager auto, fun i => (st.pc i).kill⟩

def server (s : WorkspaceStore) (requests : ι → Request) (file : File)
    (manager : Connection.State) : Machine (Server ι) (Label ι) :=
  ⟨⟨file, manager, fun _ => .waiting⟩, step s requests⟩

end Steps

/-- `ServeNodeActivate` with nothing between its steps. -/
def serveNodeActivateAlone (s : WorkspaceStore) (w : Nat → World) (answer : Except String Unit)
    (nodeID : String) (file : File) (m : Connection.State) :
    File × Connection.State × Except ApiError Answer :=
  match findNode s (w 0) file nodeID with
  | .error err => (file, m, .error err)
  | .ok (_, _, targetNode) =>
    let m := m.register nodeID (nodeConfig targetNode)
    match setStatus s (w 1) nodeID "connecting" "" file with
    | .error err => (file, m, .error ⟨500, "failed to update node status: " ++ err⟩)
    | .ok file =>
      match m.activate nodeID answer with
      | (m, .error err) =>
        (trySetStatus s (w 2) nodeID "failed" err file, m,
          .error ⟨500, "activation failed: " ++ err⟩)
      | (m, .ok ()) =>
        (trySetStatus s (w 2) nodeID "ready" "" file, m, .ok (metaOf targetNode))

/-- `ServeNodeDeactivate` with nothing between its steps. -/
def serveNodeDeactivateAlone (s : WorkspaceStore) (w : World) (nodeID : String) (file : File)
    (m : Connection.State) : File × Connection.State × Except ApiError Answer :=
  if nodeID = "" then (file, m, .error ⟨400, "node id is required"⟩)
  else (trySetStatus s w nodeID "unknown" "" file, m.deactivate nodeID, .ok .deactivated)

section Alone

variable {ι : Type} [DecidableEq ι] {s : WorkspaceStore} {requests : ι → Request}
  {st next : Server ι} {i : ι} {nodeID : String} {w : World} {answer : Except String Unit}
  {result : File × Connection.State × Except ApiError Answer}

/-- Steps of the requests lead to a state in which request `i` has finished, with
this file, manager and answer. -/
def Ends (s : WorkspaceStore) (requests : ι → Request) (i : ι) (st : Server ι)
    (result : File × Connection.State × Except ApiError Answer) : Prop :=
  ∃ labels t, (server s requests .missing newManager).runFrom st labels = some t ∧
    t.file = result.1 ∧ t.manager = result.2.1 ∧ t.pc i = .finished result.2.2

theorem pc_move (pc : Pc) : (st.move i pc).pc i = pc := by
  unfold Server.move
  exact Function.update_self i pc st.pc

theorem Ends.finished {r : Except ApiError Answer} (hpc : st.pc i = .finished r) :
    Ends s requests i st (st.file, st.manager, r) :=
  ⟨[], st, rfl, rfl, rfl, hpc⟩

theorem Ends.activate (hi : requests i = .activate nodeID)
    (hstep : serveNodeActivate s nodeID w answer st i = some next)
    (h : Ends s requests i next result) : Ends s requests i st result := by
  obtain ⟨labels, t, hrun, hresult⟩ := h
  refine ⟨.next i w answer :: labels, t, runFrom_cons.mpr ⟨next, ?_, hrun⟩, hresult⟩
  change (match requests i with | .activate _ => _ | .deactivate _ => _) = _
  rw [hi]
  exact hstep

theorem Ends.deactivate (hi : requests i = .deactivate nodeID)
    (hstep : serveNodeDeactivate s nodeID w st i = some next)
    (h : Ends s requests i next result) : Ends s requests i st result := by
  obtain ⟨labels, t, hrun, hresult⟩ := h
  refine ⟨.next i w (.ok ()) :: labels, t, runFrom_cons.mpr ⟨next, ?_, hrun⟩, hresult⟩
  change (match requests i with | .activate _ => _ | .deactivate _ => _) = _
  rw [hi]
  exact hstep

theorem ends_connecting {targetNode : Node} (hi : requests i = .activate nodeID)
    (hpc : st.pc i = .connecting targetNode) (w : World) :
    Ends s requests i st (match st.manager.activate nodeID answer with
      | (m, .error err) =>
        (trySetStatus s w nodeID "failed" err st.file, m,
          .error ⟨500, "activation failed: " ++ err⟩)
      | (m, .ok ()) =>
        (trySetStatus s w nodeID "ready" "" st.file, m, .ok (metaOf targetNode))) := by
  cases hactivate : st.manager.activate nodeID answer with
  | mk m r =>
    cases r with
    | error err =>
      have hstep : serveNodeActivate s nodeID w answer st i =
          some ({ st with manager := m }.move i (.refused err)) := by
        unfold serveNodeActivate
        rw [hpc]
        dsimp only
        rw [hactivate]
      have hfail : serveNodeActivate s nodeID w answer
          ({ st with manager := m }.move i (.refused err)) i =
            some ({ { st with manager := m }.move i (.refused err) with
              file := trySetStatus s w nodeID "failed" err st.file }.move i
                (.finished (.error ⟨500, "activation failed: " ++ err⟩))) := by
        unfold serveNodeActivate
        rw [pc_move]
        rfl
      exact .activate hi hstep (.activate hi hfail (.finished (pc_move _)))
    | ok =>
      have hstep : serveNodeActivate s nodeID w answer st i =
          some ({ st with manager := m }.move i (.connected targetNode)) := by
        unfold serveNodeActivate
        rw [hpc]
        dsimp only
        rw [hactivate]
      have hready : serveNodeActivate s nodeID w answer
          ({ st with manager := m }.move i (.connected targetNode)) i =
            some ({ { st with manager := m }.move i (.connected targetNode) with
              file := trySetStatus s w nodeID "ready" "" st.file }.move i
                (.finished (.ok (metaOf targetNode)))) := by
        unfold serveNodeActivate
        rw [pc_move]
        rfl
      exact .activate hi hstep (.activate hi hready (.finished (pc_move _)))

theorem ends_registered {targetNode : Node} (hi : requests i = .activate nodeID)
    (hpc : st.pc i = .registered targetNode) (w : Nat → World) :
    Ends s requests i st (match setStatus s (w 1) nodeID "connecting" "" st.file with
      | .error err =>
        (st.file, st.manager, .error ⟨500, "failed to update node status: " ++ err⟩)
      | .ok file =>
        match st.manager.activate nodeID answer with
        | (m, .error err) =>
          (trySetStatus s (w 2) nodeID "failed" err file, m,
            .error ⟨500, "activation failed: " ++ err⟩)
        | (m, .ok ()) =>
          (trySetStatus s (w 2) nodeID "ready" "" file, m, .ok (metaOf targetNode))) := by
  cases hset : setStatus s (w 1) nodeID "connecting" "" st.file with
  | error err =>
    have hstep : serveNodeActivate s nodeID (w 1) answer st i = some (st.move i
        (.finished (.error ⟨500, "failed to update node status: " ++ err⟩))) := by
      unfold serveNodeActivate
      rw [hpc]
      dsimp only
      rw [hset]
    exact .activate hi hstep (.finished (pc_move _))
  | ok file =>
    have hstep : serveNodeActivate s nodeID (w 1) answer st i =
        some ({ st with file }.move i (.connecting targetNode)) := by
      unfold serveNodeActivate
      rw [hpc]
      dsimp only
      rw [hset]
    exact .activate hi hstep (ends_connecting hi (pc_move _) (w 2))

/-- The steps of an activation taken one after another do what the whole does. -/
theorem activate_alone (hi : requests i = .activate nodeID) (hpc : st.pc i = .waiting)
    (w : Nat → World) (answer : Except String Unit) :
    Ends s requests i st (serveNodeActivateAlone s w answer nodeID st.file st.manager) := by
  unfold serveNodeActivateAlone
  cases hfind : findNode s (w 0) st.file nodeID with
  | error err =>
    have hstep : serveNodeActivate s nodeID (w 0) answer st i =
        some (st.move i (.finished (.error err))) := by
      unfold serveNodeActivate
      rw [hpc]
      dsimp only
      rw [hfind]
    exact .activate hi hstep (.finished (pc_move _))
  | ok found =>
    obtain ⟨projectID, clusterID, targetNode⟩ := found
    have hstep : serveNodeActivate s nodeID (w 0) answer st i =
        some (st.move i (.found targetNode)) := by
      unfold serveNodeActivate
      rw [hpc]
      dsimp only
      rw [hfind]
    have hregister : serveNodeActivate s nodeID (w 0) answer (st.move i (.found targetNode)) i =
        some ({ st.move i (.found targetNode) with
          manager := st.manager.register nodeID (nodeConfig targetNode) }.move i
            (.registered targetNode)) := by
      unfold serveNodeActivate
      rw [pc_move]
      rfl
    exact .activate hi hstep (.activate hi hregister (ends_registered hi (pc_move _) w))

theorem deactivate_alone (hi : requests i = .deactivate nodeID) (hpc : st.pc i = .waiting)
    (w : World) :
    Ends s requests i st (serveNodeDeactivateAlone s w nodeID st.file st.manager) := by
  unfold serveNodeDeactivateAlone
  split
  next hempty =>
    have hstep : serveNodeDeactivate s nodeID w st i =
        some (st.move i (.finished (.error ⟨400, "node id is required"⟩))) := by
      unfold serveNodeDeactivate
      rw [hpc]
      exact if_pos hempty
    exact .deactivate hi hstep (.finished (pc_move _))
  next hid =>
    have hstep : serveNodeDeactivate s nodeID w st i =
        some ({ st with manager := st.manager.deactivate nodeID }.move i .closed) := by
      unfold serveNodeDeactivate
      rw [hpc]
      exact if_neg hid
    have hunknown : serveNodeDeactivate s nodeID w
        ({ st with manager := st.manager.deactivate nodeID }.move i .closed) i =
          some ({ { st with manager := st.manager.deactivate nodeID }.move i .closed with
            file := trySetStatus s w nodeID "unknown" "" st.file }.move i
              (.finished (.ok .deactivated))) := by
      unfold serveNodeDeactivate
      rw [pc_move]
      rfl
    exact .deactivate hi hstep (.deactivate hi hunknown (.finished (pc_move _)))

end Alone

end LearnPg.Api.Activation
