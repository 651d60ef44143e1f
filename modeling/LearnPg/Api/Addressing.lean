import LearnPg.Api.Nodes
import LearnPg.Api.Tasks
import LearnPg.Http.Mux
import Mathlib.Data.List.TakeWhile
import Mathlib.Tactic.SplitIfs

/-! From the path of a request to the entity that its handler acts on. -/
namespace LearnPg.Api.Addressing
open Workspace.Data Http.Mux Basis.Paths

def idFromPath (start path : String) : String :=
  let parts := (trimPrefix path start).toList
  if '/' ∈ parts then .ofList (parts.takeWhile (· ≠ '/')) else trimSpace (.ofList parts)

def projectIDFromPath : String → String := idFromPath "/api/projects/"

def clusterIDFromPath : String → String := idFromPath "/api/clusters/"

def nodeIDFromPath : String → String := idFromPath "/api/nodes/"

def extractNodeID : String → String := idFromPath "/api/nodes/"

def hasSuffix (text suffix : String) : Bool := decide (suffix.toList <:+ text.toList)

def trimSuffix (text suffix : String) : String :=
  if hasSuffix text suffix then .ofList (text.toList.take (text.length - suffix.length)) else text

/-- What a handler does with the id that it takes from the path. -/
inductive Operation where
  | getProject
  | updateProject
  | deleteProject
  | createCluster
  | updateCluster
  | deleteCluster
  | createNode
  | teardownCluster
  | getNode
  | updateNode
  | deleteNode
  | activateNode
  | deactivateNode
  | registerNode
  | nodeStatus
  deriving DecidableEq

inductive Outcome where
  | redirect
  | notFound
  | refused (err : ApiError)
  | runs (op : Operation) (id : String)
  /-- Another endpoint. -/
  | other
  deriving DecidableEq

def serveProjectByID (method path : String) : Outcome :=
  let id := projectIDFromPath path
  if id = "" then .refused ⟨400, "project id is required"⟩
  else if method = "GET" then .runs .getProject id
  else if method = "PUT" then .runs .updateProject id
  else if method = "DELETE" then .runs .deleteProject id
  else if method = "POST" then .runs .createCluster (projectIDFromPath path)
  else .refused ⟨405, "GET/PUT/DELETE/POST required"⟩

def serveClusterTeardown (path : String) : Outcome :=
  let clusterID := trimSpace (trimSuffix (trimPrefix path "/api/clusters/") "/teardown")
  if clusterID = "" then .refused ⟨400, "cluster id is required"⟩
  else .runs .teardownCluster clusterID

def serveClusterByID (method path : String) : Outcome :=
  let clusterID := clusterIDFromPath path
  if clusterID = "" then .refused ⟨400, "cluster id is required"⟩
  else if method = "PUT" then .runs .updateCluster clusterID
  else if method = "DELETE" then .runs .deleteCluster clusterID
  else if method = "POST" then .runs .createNode (clusterIDFromPath path)
  else .refused ⟨405, "PUT/DELETE/POST required"⟩

def serveNodeByID (method path : String) : Outcome :=
  let nodeID := nodeIDFromPath path
  if nodeID = "" then .refused ⟨400, "node id is required"⟩
  else if method = "GET" then .runs .getNode nodeID
  else if method = "PUT" then .runs .updateNode nodeID
  else if method = "DELETE" then .runs .deleteNode nodeID
  else .refused ⟨405, "PUT/DELETE required"⟩

def serveNodeAction (op : Operation) (path : String) : Outcome :=
  let nodeID := extractNodeID path
  if nodeID = "" then .refused ⟨400, "node id is required"⟩ else .runs op nodeID

def serveNodeRoute (method path : String) : Outcome :=
  if method = "POST" then
    if hasSuffix path "/activate" then serveNodeAction .activateNode path
    else if hasSuffix path "/deactivate" then serveNodeAction .deactivateNode path
    else if hasSuffix path "/register" then serveNodeAction .registerNode path
    else .refused ⟨404, "not found"⟩
  else if method = "GET" then
    if hasSuffix path "/status" then serveNodeAction .nodeStatus path
    else serveNodeByID method path
  else if method = "PUT" ∨ method = "DELETE" then serveNodeByID method path
  else .refused ⟨405, "POST/GET/PUT/DELETE required"⟩

/-- The handlers that take an id of the workspace from a path. -/
inductive Endpoint where
  | projects
  | clusters
  | nodes
  | other

def Endpoint.serve (method path : String) : Endpoint → Outcome
  | .projects => serveProjectByID method path
  | .clusters =>
    if hasSuffix path "/teardown" ∧ method = "POST" then serveClusterTeardown path
    else serveClusterByID method path
  | .nodes => serveNodeRoute method path
  | .other => .other

/-- The registrations of `SetupRoutes`. -/
def setupRoutes : List (Pattern × Endpoint) :=
  [(⟨["health"], false⟩, .other), (⟨["readyz"], false⟩, .other), (⟨["livez"], false⟩, .other),
    (⟨["version"], false⟩, .other), (⟨["api", "openapi.json"], false⟩, .other),
    (⟨["metrics"], false⟩, .other), (⟨["api", "connect"], false⟩, .other),
    (⟨["api", "execute"], false⟩, .other),
    (⟨["api", "workspace", "projects"], false⟩, .other),
    (⟨["api", "workspace", "projects"], true⟩, .other),
    (⟨["api", "projects"], false⟩, .other), (⟨["api", "projects"], true⟩, .projects),
    (⟨["api", "clusters"], true⟩, .clusters), (⟨["api", "cluster"], true⟩, .other),
    (⟨["api", "cluster", "node", "inspect"], false⟩, .other),
    (⟨["api", "wal"], false⟩, .other), (⟨["api", "wal", "segments"], false⟩, .other),
    (⟨["api", "clog", "status"], false⟩, .other), (⟨["api", "clog"], false⟩, .other),
    (⟨["api", "clog"], true⟩, .other), (⟨["api", "snapshot"], false⟩, .other),
    (⟨["api", "provision", "single"], false⟩, .other),
    (⟨["api", "provision", "physical"], false⟩, .other),
    (⟨["api", "provision", "logical"], false⟩, .other),
    (⟨["api", "provision", "tasks"], true⟩, .other),
    (⟨["api", "provision", "tasks"], false⟩, .other),
    (⟨["api", "discovery", "host", "scan"], false⟩, .other),
    (⟨["api", "discovery", "host", "import"], false⟩, .other),
    (⟨["api", "discovery", "dsn", "validate"], false⟩, .other),
    (⟨["api", "discovery", "dsn", "import"], false⟩, .other), (⟨["ws"], false⟩, .other),
    (⟨["api", "nodes"], true⟩, .nodes), (⟨["api", "hosts"], false⟩, .other),
    (⟨["api", "hosts"], true⟩, .other), (⟨["api", "tasks"], false⟩, .other),
    (⟨["api", "tasks"], true⟩, .other), (⟨["api", "telemetry", "errors"], false⟩, .other),
    (⟨["api", "telemetry", "errors", "top"], false⟩, .other),
    (⟨["api", "telemetry", "vitals"], false⟩, .other)]

def dispatch (method : String) (path : EscapedPath) : Outcome :=
  match findHandler setupRoutes path with
  | .redirect => .redirect
  | .notFound => .notFound
  | .handler endpoint => endpoint.serve method (decoded path)

/-! The routes by which an entity is reached. -/

/-- The operations on one project, cluster or node. -/
def entityOperations : List Operation :=
  [.getProject, .updateProject, .deleteProject, .updateCluster, .deleteCluster, .getNode,
    .updateNode, .deleteNode, .activateNode, .deactivateNode, .registerNode, .nodeStatus]

def Operation.method : Operation → String
  | .getProject | .getNode | .nodeStatus => "GET"
  | .updateProject | .updateCluster | .updateNode => "PUT"
  | .deleteProject | .deleteCluster | .deleteNode => "DELETE"
  | .createCluster | .createNode | .teardownCluster => "POST"
  | .activateNode | .deactivateNode | .registerNode => "POST"

def Operation.endpoint : Operation → Endpoint
  | .getProject | .updateProject | .deleteProject | .createCluster => .projects
  | .updateCluster | .deleteCluster | .createNode | .teardownCluster => .clusters
  | _ => .nodes

def Endpoint.word : Endpoint → String
  | .projects => "projects"
  | .clusters => "clusters"
  | .nodes => "nodes"
  | .other => ""

/-- What follows the id. -/
def Operation.action : Operation → Option String
  | .createCluster => some "clusters"
  | .createNode => some "nodes"
  | .teardownCluster => some "teardown"
  | .activateNode => some "activate"
  | .deactivateNode => some "deactivate"
  | .registerNode => some "register"
  | .nodeStatus => some "status"
  | _ => none

/-- The route of an operation with an id, as a request may spell the id. -/
def Operation.path (op : Operation) (written : EscapedPath) : EscapedPath :=
  literal ("/api/" ++ op.endpoint.word ++ "/") ++ written ++
    literal ((op.action.map ("/" ++ ·)).getD "")

inductive Entity where
  | project (p : Project)
  | cluster (c : Cluster)
  | node (n : Node)

def Entity.id : Entity → String
  | .project p => p.id
  | .cluster c => c.id
  | .node n => n.id

def Endpoint.entities (projects : Slice Project) : Endpoint → List Entity
  | .projects => projects.items.map .project
  | .clusters => (projects.items.flatMap (·.clusters.items)).map .cluster
  | .nodes => (allNodes projects).map .node
  | .other => []

/-- What the handlers look up by an id. -/
def Endpoint.find (projects : Slice Project) (id : String) : Endpoint → Option Entity
  | .projects => (projectByID projects id).map .project
  | .clusters => (locateCluster projects id).map fun found => .cluster found.1
  | .nodes => (locateNode projects id).map fun found => .node found.2.2
  | .other => none

/-- However a request spells the id in the route of the operation, the operation runs on the
entity that has the id. -/
def Addresses (op : Operation) (id : String) : Prop :=
  ∀ written, decoded written = id → ∀ projects, ∀ e ∈ op.endpoint.entities projects, e.id = id →
    (∀ e' ∈ op.endpoint.entities projects, e'.id = id → e' = e) →
      ∃ id', dispatch op.method (op.path written) = .runs op id' ∧
        op.endpoint.find projects id' = some e

/-- An id that its route keeps. -/
structure Clean (op : Operation) (id : String) : Prop where
  slash : '/' ∉ id.toList
  dot : id ≠ "."
  dots : id ≠ ".."
  trimmed : op.action = none → trimSpace id = id
  status : op = .getNode → id ≠ "status"

section

variable {op : Operation} {endpoint : Endpoint} {id : String} {written : EscapedPath}
  {projects : Slice Project} {e : Entity}

theorem find_some (h : endpoint.find projects id = some e) :
    e ∈ endpoint.entities projects ∧ e.id = id := by
  cases endpoint with
  | other => cases h
  | projects =>
    obtain ⟨p, hp, rfl⟩ := Option.map_eq_some_iff.mp h
    have hid := List.find?_some hp
    exact ⟨List.mem_map_of_mem (List.mem_of_find?_eq_some hp), by simpa [Entity.id] using hid⟩
  | clusters =>
    obtain ⟨found, hfound, rfl⟩ := Option.map_eq_some_iff.mp h
    obtain ⟨p, hp, hcluster⟩ := List.exists_of_findSome?_eq_some hfound
    obtain ⟨c, hc, rfl⟩ := Option.map_eq_some_iff.mp hcluster
    have hid := List.find?_some hc
    have hc := List.mem_of_find?_eq_some hc
    exact ⟨List.mem_map_of_mem (List.mem_flatMap.mpr ⟨p, hp, hc⟩), by simpa [Entity.id] using hid⟩
  | nodes =>
    obtain ⟨found, hfound, rfl⟩ := Option.map_eq_some_iff.mp h
    obtain ⟨p, hp, hcluster⟩ := List.exists_of_findSome?_eq_some hfound
    obtain ⟨c, hc, hnode⟩ := List.exists_of_findSome?_eq_some hcluster
    obtain ⟨n, hn, rfl⟩ := Option.map_eq_some_iff.mp hnode
    have hid := List.find?_some hn
    have hmem : n ∈ projectNodes p :=
      List.mem_flatMap.mpr ⟨c, hc, List.mem_of_find?_eq_some hn⟩
    exact ⟨List.mem_map_of_mem (List.mem_flatMap.mpr ⟨p, hp, hmem⟩), by simpa [Entity.id] using hid⟩

theorem word_ne (hop : op ∈ entityOperations) : op.endpoint.word ≠ "" := by
  revert op
  decide

def Operation.text (op : Operation) (id : String) : String :=
  "/api/" ++ op.endpoint.word ++ "/" ++ id ++ (op.action.map ("/" ++ ·)).getD ""

def lone (id : String) : Slice Project :=
  .of [⟨id, "", .of [⟨id, "", "", 0, "", "", none,
    .of [NodeCreateRequest.node ⟨id, "", "", 0, "", "", "", "", ""⟩]⟩], .of []⟩]

theorem entities_lone (hne : endpoint.word ≠ "") (id : String) :
    ∃ e, endpoint.entities (lone id) = [e] ∧ e.id = id := by
  cases endpoint with
  | other => exact absurd rfl hne
  | projects => simp [Endpoint.entities, lone, Slice.items, Entity.id]
  | clusters => simp [Endpoint.entities, lone, Slice.items, Entity.id]
  | nodes => simp [Endpoint.entities, lone, Slice.items, allNodes, Entity.id, NodeCreateRequest.node]

theorem Addresses.runs (h : Addresses op id) (hop : op ∈ entityOperations)
    (hwritten : decoded written = id) :
    dispatch op.method (op.path written) = .runs op id := by
  obtain ⟨e, hentities, hid⟩ := entities_lone (word_ne hop) id
  obtain ⟨id', hruns, hfind⟩ := h written hwritten (lone id) e (by simp [hentities]) hid
    (by simp [hentities])
  rw [hruns, ← hid, (find_some hfind).2]

end

end LearnPg.Api.Addressing
