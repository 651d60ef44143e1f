import LearnPg.Workspace.Store

/-! The handlers that show and edit projects, clusters and nodes. A request's body
has been decoded; `w i` is what the system does to the handler's `i`-th call of
the store. -/
namespace LearnPg.Api

open Workspace.Data Workspace.Store

structure ApiError where
  status : Nat
  message : String
  deriving DecidableEq

/-- What a successful response carries besides `"success": true`. -/
inductive Body where
  | snapshot (schemaVersion : Int) (projects : Slice Project)
  | projects (projects : Slice Project)
  | project (project : Project)
  | cluster (cluster : Cluster)
  | node (node : Node)
  | empty
  deriving DecidableEq

def maskedPassword : String := "********"

def maskNode (n : Node) : Node := { n with password := maskedPassword }

def maskCluster (c : Cluster) : Cluster := { c with nodes := .of (c.nodes.items.map maskNode) }

def maskProject (p : Project) : Project :=
  { p with clusters := .of (p.clusters.items.map maskCluster) }

structure ProjectCreateRequest where
  id : String
  name : String

structure ProjectUpdateRequest where
  name : Option String

structure ClusterCreateRequest where
  id : String
  name : String
  replicationType : String
  alertThresholdSec : Int
  nodes : Slice Node

structure ClusterUpdateRequest where
  name : Option String
  replicationType : Option String
  alertThresholdSec : Option Int

structure NodeCreateRequest where
  id : String
  name : String
  host : String
  port : Int
  user : String
  password : String
  database : String
  clusterType : String
  role : String

structure NodeUpdateRequest where
  name : Option String
  host : Option String
  port : Option Int
  user : Option String
  password : Option String
  database : Option String

def ProjectUpdateRequest.patch (req : ProjectUpdateRequest) (p : Project) : Project :=
  { p with name := req.name.getD p.name }

def ClusterUpdateRequest.patch (req : ClusterUpdateRequest) (c : Cluster) : Cluster :=
  { c with
    name := req.name.getD c.name
    replicationType := req.replicationType.getD c.replicationType
    alertThresholdSec := req.alertThresholdSec.getD c.alertThresholdSec }

def NodeUpdateRequest.patch (req : NodeUpdateRequest) (n : Node) : Node :=
  { n with
    name := req.name.getD n.name
    host := req.host.getD n.host
    port := req.port.getD n.port
    user := req.user.getD n.user
    password := req.password.getD n.password
    database := req.database.getD n.database }

def NodeCreateRequest.node (req : NodeCreateRequest) : Node :=
  ⟨req.id, req.name, req.host, req.port, req.user, req.password, req.database, req.clusterType,
    req.role, "", "", none, none, "", "", "", ""⟩

/-- The first cluster with the id, in whichever project, and its project's id. -/
def locateCluster (projects : Slice Project) (clusterID : String) : Option (Cluster × String) :=
  projects.items.findSome? fun p =>
    (p.clusters.items.find? (·.id = clusterID)).map fun c => (c, p.id)

/-- The first node with the id, in whichever cluster, after the ids of its project
and its cluster. -/
def locateNode (projects : Slice Project) (nodeID : String) : Option (String × String × Node) :=
  projects.items.findSome? fun p => p.clusters.items.findSome? fun c =>
    (c.nodes.items.find? (·.id = nodeID)).map fun n => (p.id, c.id, n)

def projectByID (projects : Slice Project) (id : String) : Option Project :=
  projects.items.find? (·.id = id)

def clusterByIDs (projects : Slice Project) (projectID clusterID : String) : Option Cluster :=
  (projectByID projects projectID).bind (·.clusters.items.find? (·.id = clusterID))

def nodeByIDs (projects : Slice Project) (projectID clusterID nodeID : String) : Option Node :=
  (clusterByIDs projects projectID clusterID).bind (·.nodes.items.find? (·.id = nodeID))

section

variable (s : WorkspaceStore)

def getProject (w : World) (file : File) (id : String) : Except String (Option Project) :=
  (readAll s w file).map (projectByID · id)

def getNode (w : World) (file : File) (projectID clusterID nodeID : String) :
    Except String (Option Node) :=
  (readAll s w file).map (nodeByIDs · projectID clusterID nodeID)

/-- `findClusterByID` with the answers of its callers. -/
def findClusterByID (w : World) (file : File) (clusterID : String) :
    Except ApiError (Cluster × String) :=
  match readAll s w file with
  | .error err => .error ⟨500, "failed to find cluster: " ++ err⟩
  | .ok projects =>
    match locateCluster projects clusterID with
    | none => .error ⟨404, "cluster not found"⟩
    | some found => .ok found

/-- The search with which `ServeNodeByID` and `ServeNodeActivate` begin. -/
def findNode (w : World) (file : File) (nodeID : String) :
    Except ApiError (String × String × Node) :=
  if nodeID = "" then .error ⟨400, "node id is required"⟩
  else match readAll s w file with
  | .error err => .error ⟨500, "failed to read workspace: " ++ err⟩
  | .ok projects =>
    match locateNode projects nodeID with
    | none => .error ⟨404, "node not found"⟩
    | some found => .ok found

/-- A store operation of a handler, which goes on when it succeeds. -/
def store (w : World) (r : Request) (status : Nat) (file : File)
    (next : File → Except ApiError Body) : File × Except ApiError Body :=
  match (txn s w r).exec file with
  | .error err => (file, .error ⟨status, err⟩)
  | .ok file => (file, next file)

def serveWorkspaceProjects (w : World) (file : File) : Except ApiError Body :=
  match readEnvelopeNoLock s w file with
  | .error err => .error ⟨500, "failed to load workspace: " ++ err⟩
  | .ok env => .ok (.snapshot env.schemaVersion env.projects)

def serveProjectList (w : World) (file : File) : Except ApiError Body :=
  match readAll s w file with
  | .error err => .error ⟨500, "failed to read projects: " ++ err⟩
  | .ok projects => .ok (.projects (.of (projects.items.map maskProject)))

def serveProjectCreate (w : World) (req : ProjectCreateRequest) (file : File) :
    File × Except ApiError Body :=
  if isBlank req.id then (file, .error ⟨400, "id is required"⟩)
  else if isBlank req.name then (file, .error ⟨400, "name is required"⟩)
  else
    let project : Project := ⟨req.id, req.name, .of [], .of []⟩
    store s w (.upsert project) 400 file fun _ => .ok (.project (maskProject project))

def serveProjectGet (w : World) (id : String) (file : File) : Except ApiError Body :=
  if id = "" then .error ⟨400, "project id is required"⟩
  else match getProject s w file id with
  | .error err => .error ⟨500, "failed to get project: " ++ err⟩
  | .ok none => .error ⟨404, "project not found"⟩
  | .ok (some project) => .ok (.project (maskProject project))

def serveProjectUpdate (w : Nat → World) (id : String) (req : ProjectUpdateRequest)
    (file : File) : File × Except ApiError Body :=
  if id = "" then (file, .error ⟨400, "project id is required"⟩)
  else store s (w 0) (.updateProjectLocked id fun p => .ok (req.patch p)) 404 file fun file =>
    match getProject s (w 1) file id with
    | .ok (some project) => .ok (.project (maskProject project))
    | _ => .error ⟨404, "project not found"⟩

def serveClusterCreate (w : World) (projectID : String) (req : ClusterCreateRequest)
    (file : File) : File × Except ApiError Body :=
  if projectID = "" then (file, .error ⟨400, "project id is required"⟩)
  else if isBlank req.id then (file, .error ⟨400, "cluster id is required"⟩)
  else if isBlank req.name then (file, .error ⟨400, "cluster name is required"⟩)
  else
    let threshold := if req.alertThresholdSec ≤ 0 then 30 else req.alertThresholdSec
    let cluster : Cluster :=
      ⟨req.id, req.name, req.replicationType, threshold, "", "", none, req.nodes⟩
    store s w (.appendCluster projectID cluster) 400 file fun _ =>
      .ok (.cluster (maskCluster cluster))

def serveClusterUpdate (w : Nat → World) (clusterID : String) (req : ClusterUpdateRequest)
    (file : File) : File × Except ApiError Body :=
  if clusterID = "" then (file, .error ⟨400, "cluster id is required"⟩)
  else match findClusterByID s (w 0) file clusterID with
  | .error err => (file, .error err)
  | .ok (_, projectID) =>
    store s (w 1) (.updateClusterLocked projectID clusterID fun c => .ok (req.patch c)) 500 file
      fun file =>
        match findClusterByID s (w 2) file clusterID with
        | .ok (cluster, _) => .ok (.cluster (maskCluster cluster))
        | .error _ => .error ⟨404, "cluster not found"⟩

def serveClusterDelete (w : Nat → World) (clusterID : String) (file : File) :
    File × Except ApiError Body :=
  if clusterID = "" then (file, .error ⟨400, "cluster id is required"⟩)
  else match findClusterByID s (w 0) file clusterID with
  | .error err => (file, .error err)
  | .ok (_, projectID) =>
    store s (w 1) (.deleteClusterLocked projectID clusterID) 500 file fun _ => .ok .empty

def serveNodeCreate (w : Nat → World) (clusterID : String) (req : NodeCreateRequest)
    (file : File) : File × Except ApiError Body :=
  if clusterID = "" then (file, .error ⟨400, "cluster id is required"⟩)
  else match findClusterByID s (w 0) file clusterID with
  | .error err => (file, .error err)
  | .ok (_, projectID) =>
    if isBlank req.id then (file, .error ⟨400, "node id is required"⟩)
    else if isBlank req.name then (file, .error ⟨400, "node name is required"⟩)
    else store s (w 1) (.appendNode projectID clusterID req.node) 400 file fun _ =>
      .ok (.node (maskNode req.node))

def serveNodeGet (w : World) (nodeID : String) (file : File) : Except ApiError Body :=
  (findNode s w file nodeID).map fun found => .node (maskNode found.2.2)

def serveNodeUpdate (w : Nat → World) (nodeID : String) (req : NodeUpdateRequest)
    (file : File) : File × Except ApiError Body :=
  match findNode s (w 0) file nodeID with
  | .error err => (file, .error err)
  | .ok (projectID, clusterID, _) =>
    store s (w 1) (.updateNodeLocked projectID clusterID nodeID fun n => .ok (req.patch n)) 500
      file fun file =>
        match getNode s (w 2) file projectID clusterID nodeID with
        | .ok (some node) => .ok (.node (maskNode node))
        | _ => .error ⟨500, "failed to get updated node"⟩

def serveNodeDelete (w : Nat → World) (nodeID : String) (file : File) :
    File × Except ApiError Body :=
  match findNode s (w 0) file nodeID with
  | .error err => (file, .error err)
  | .ok (projectID, clusterID, _) =>
    store s (w 1) (.deleteNodeLocked projectID clusterID nodeID) 500 file fun _ => .ok .empty

end

section

variable {s : WorkspaceStore} {w : World} {file : File}

theorem map_ok {ε α β : Type} {f : α → β} {x : Except ε α} {b : β} (h : x.map f = .ok b) :
    ∃ a, x = .ok a ∧ f a = b := by
  cases x with
  | error err => cases h
  | ok a => exact ⟨a, rfl, Except.ok.inj h⟩

theorem store_ok {r : Request} {status : Nat} {next : File → Except ApiError Body} {body : Body}
    (h : (store s w r status file next).2 = .ok body) :
    ∃ file', (txn s w r).exec file = .ok file' ∧ next file' = .ok body := by
  unfold store at h
  cases hexec : (txn s w r).exec file with
  | error err =>
    rw [hexec] at h
    cases h
  | ok file' =>
    rw [hexec] at h
    exact ⟨file', rfl, h⟩

theorem findClusterByID_ok {id : String} {found : Cluster × String}
    (h : findClusterByID s w file id = .ok found) :
    ∃ back, readAll s w file = .ok back ∧ locateCluster back id = some found := by
  unfold findClusterByID at h
  cases hback : readAll s w file with
  | error err =>
    rw [hback] at h
    cases h
  | ok back =>
    rw [hback] at h
    dsimp only at h
    refine ⟨back, rfl, ?_⟩
    cases hfound : locateCluster back id with
    | none =>
      rw [hfound] at h
      cases h
    | some found =>
      rw [hfound] at h
      rw [Except.ok.inj h]

theorem findNode_ok {id : String} {found : String × String × Node}
    (h : findNode s w file id = .ok found) :
    id ≠ "" ∧ ∃ back, readAll s w file = .ok back ∧ locateNode back id = some found := by
  unfold findNode at h
  split at h
  · cases h
  next hid =>
    cases hback : readAll s w file with
    | error err =>
      rw [hback] at h
      cases h
    | ok back =>
      rw [hback] at h
      dsimp only at h
      refine ⟨hid, back, rfl, ?_⟩
      cases hfound : locateNode back id with
      | none =>
        rw [hfound] at h
        cases h
      | some found =>
        rw [hfound] at h
        rw [Except.ok.inj h]

end

end LearnPg.Api
