import LearnPg.Api.Connect
import LearnPg.Workspace.Store

/-! The handlers that read nodes from the workspace and ask the manager for
their connections. What a connected server answers to queries is left out: a
status names the client that it was read from. -/
namespace LearnPg.Api

open Connection Workspace.Data Workspace.Store

def allNodes (projects : Slice Project) : List Node :=
  projects.items.flatMap fun p => p.clusters.items.flatMap fun c => c.nodes.items

def projectNodes (p : Project) : List Node := p.clusters.items.flatMap (·.nodes.items)

structure NodeStatus where
  id : String
  name : String
  host : String
  port : Int
  database : String
  clusterType : String
  role : String
  connected : Bool
  error : String
  client : Option Nat
  deriving DecidableEq

def nodeStatus (node : Node) : NodeStatus :=
  ⟨node.id, node.name, node.host, node.port, node.database, node.clusterType, node.role, false,
    "", none⟩

def inspectNodeClient (node : Node) (client : Nat) : NodeStatus :=
  { nodeStatus node with connected := true, client := some client }

/-- What one inspection gets from outside: the file system and the server. -/
structure Probe where
  world : World
  answer : Except String Unit

/-- The node that an inspection finds: the last one with the id. A workspace that
cannot be read has none. -/
def inspectedNode (s : WorkspaceStore) (w : World) (file : File) (nodeID : String) :
    Option Node :=
  match readAll s w file with
  | .error _ => none
  | .ok projects =>
    (((allNodes projects).filter (·.id = nodeID)).getLast?).filter (·.id ≠ "")

def inspectNodeByID (s : WorkspaceStore) (file : File) (m : State) (probe : Probe)
    (nodeID : String) : State × NodeStatus :=
  match inspectedNode s probe.world file nodeID with
  | none => (m, ⟨nodeID, "", "", 0, "", "", "", false, "node not found in workspace", none⟩)
  | some node =>
    match m.get nodeID with
    | .ok client => (m, inspectNodeClient node client)
    | .error _ =>
      match (m.register nodeID (nodeConfig node)).activate nodeID probe.answer with
      | (m, .error err) => (m, { nodeStatus node with error := "activation failed: " ++ err })
      | (m, .ok ()) =>
        match m.get nodeID with
        | .ok client => (m, inspectNodeClient node client)
        | .error err =>
          (m, { nodeStatus node with
            error := "failed to get connection after activation: " ++ err })

/-- The inner loop stops at the first match, the outer one goes on. -/
def overviewCluster (projects : Slice Project) (clusterID : String) : Option Cluster :=
  (projects.items.filterMap fun p => p.clusters.items.find? (·.id = clusterID)).getLast?

def overviewNodes (s : WorkspaceStore) (file : File) (probe : Nat → Probe) :
    Nat → List Node → State → State × List NodeStatus
  | _, [], m => (m, [])
  | i, node :: nodes, m =>
    let (m, status) := inspectNodeByID s file m (probe i) node.id
    let status :=
      if status.id = "" then { status with id := "node-" ++ toString (i + 1) } else status
    let (m, statuses) := overviewNodes s file probe (i + 1) nodes m
    (m, status :: statuses)

def serveClusterOverview (s : WorkspaceStore) (file : File) (m : State) (w : World)
    (probe : Nat → Probe) (clusterID : String) : State × Except String (List NodeStatus) :=
  if clusterID = "" then (m, .error "cluster id required")
  else match readAll s w file with
  | .error err => (m, .error err)
  | .ok projects =>
    match overviewCluster projects clusterID with
    | none => (m, .error "cluster not found")
    | some cluster =>
      let (m, statuses) := overviewNodes s file probe 0 cluster.nodes.items m
      (m, .ok statuses)

/-- The status the workspace stores, whether the connection is alive, and the
stored error. The loop over a cluster's nodes stops at the first match, those
around it go on. -/
def serveNodeStatus (s : WorkspaceStore) (file : File) (m : State) (w : World)
    (ping : Nat → Except String Unit) (nodeID : String) :
    Except String (String × Bool × String) :=
  if nodeID = "" then .error "node id is required"
  else match readAll s w file with
  | .error err => .error ("failed to read workspace: " ++ err)
  | .ok projects =>
    let clusters := projects.items.flatMap fun p => p.clusters.items
    match (clusters.filterMap fun c => c.nodes.items.find? (·.id = nodeID)).getLast? with
    | none => .error "node not found"
    | some node =>
      .ok (node.connectionStatus, (m.health nodeID ping).toBool, node.lastError)

/-- The client that a WAL, CLOG or snapshot read asks for the data directory, the
current xid or the server's activity. -/
def dataClient (m : State) : Option Nat := m.getActive.2

/-- The client that `ServeExecute` runs a statement on. -/
def serveExecute (m : State) : Except String Nat :=
  match m.getActive.2 with
  | none => .error "not connected to PostgreSQL"
  | some client => .ok client

/-- An overview changes nothing and fails, or inspects the nodes of one cluster. -/
theorem serveClusterOverview_cases (s : WorkspaceStore) (file : File) (m : State) (w : World)
    (probe : Nat → Probe) (clusterID : String) :
    (∃ err, serveClusterOverview s file m w probe clusterID = (m, .error err)) ∨
      ∃ cluster : Cluster, serveClusterOverview s file m w probe clusterID =
        ((overviewNodes s file probe 0 cluster.nodes.items m).1,
          .ok (overviewNodes s file probe 0 cluster.nodes.items m).2) := by
  unfold serveClusterOverview
  split
  · exact .inl ⟨_, rfl⟩
  cases readAll s w file with
  | error err => exact .inl ⟨err, rfl⟩
  | ok projects =>
    dsimp only
    cases overviewCluster projects clusterID with
    | none => exact .inl ⟨_, rfl⟩
    | some cluster => exact .inr ⟨cluster, rfl⟩

section

variable {s : WorkspaceStore} {file : File}

theorem inspectNodeByID_cases (s : WorkspaceStore) (file : File) (m : State) (probe : Probe)
    (nodeID : String) :
    ((inspectNodeByID s file m probe nodeID).1.conns = m.conns ∧
      (inspectNodeByID s file m probe nodeID).1.active = m.active ∧
      (inspectNodeByID s file m probe nodeID).1.opened = m.opened ∧
      ((inspectedNode s probe.world file nodeID).isSome → nodeID ∉ m.conns →
        probe.answer ≠ .ok ())) ∨
    ∃ node, inspectedNode s probe.world file nodeID = some node ∧ nodeID ∉ m.conns ∧
      probe.answer = .ok () ∧
      (inspectNodeByID s file m probe nodeID).1 =
        { m.register nodeID (nodeConfig node) with
            opened := m.opened ++ [nodeConfig node]
            conns := m.conns.insert nodeID m.opened.length
            active := some nodeID } := by
  unfold inspectNodeByID
  cases hnode : inspectedNode s probe.world file nodeID with
  | none => exact .inl ⟨rfl, rfl, rfl, nofun⟩
  | some node =>
    cases hconn : m.conns.lookup nodeID with
    | some client =>
      have hmem := Finmap.mem_of_lookup_eq_some hconn
      have hget : m.get nodeID = .ok client := by
        unfold State.get
        rw [hconn]
      dsimp only
      rw [hget]
      exact .inl ⟨rfl, rfl, rfl, fun _ hfree => absurd hmem hfree⟩
    | none =>
      have hfree : nodeID ∉ m.conns := Finmap.lookup_eq_none.mp hconn
      have hget : m.get nodeID = .error ("node " ++ nodeID ++ ": not connected") := by
        unfold State.get
        rw [hconn]
      dsimp only
      rw [hget]
      dsimp only
      obtain ⟨err, hfail, hwhy⟩ | ⟨cfg, hcfg, hanswer, hok⟩ :=
        activate_cases (m.register nodeID (nodeConfig node)) nodeID probe.answer
      · rw [hfail]
        refine .inl ⟨rfl, rfl, rfl, fun _ _ hanswer => ?_⟩
        obtain ⟨cause, hcause⟩ | hcfg := hwhy
        · rw [hcause] at hanswer
          cases hanswer
        · rw [lookup_register, if_pos rfl] at hcfg
          cases hcfg
      · rw [lookup_register, if_pos rfl] at hcfg
        cases hcfg
        rw [hok]
        dsimp only
        refine .inr ⟨node, rfl, hfree, hanswer, ?_⟩
        unfold State.get
        dsimp only
        rw [Finmap.lookup_insert]
        rfl

end

end LearnPg.Api
