import LearnPg.Basis.Sections
import LearnPg.Workspace.Secrets

/-! The workspace store: one file, read whole and replaced whole by a rename.
Every operation is given as its sections under `s.mu`. Most read, edit and write
in one; `upsert`, `deleteByID`, `appendCluster` and `appendNode` read in one and
write in another, through `readAll` and `writeAll`. All texts are UTF-8; of other
bytes `json.MarshalIndent` makes U+FFFD. -/
namespace LearnPg.Workspace.Store

open Data Secrets LearnPg.Basis.Sections

structure WorkspaceStore where
  crypto : Crypto
  encKey : Option (List UInt8)

/-- The file at `s.path`, by what `json.Unmarshal` makes of it. -/
inductive File where
  | missing
  | blank
  | malformed (err : String)
  | legacy (projects : Slice Project)
  | envelope (env : Envelope)
  deriving DecidableEq

/-- What one request gets from the system: failures of its calls, its random
nonces and its clock. -/
structure World where
  readError : Option String
  mkdirError : Option String
  writeError : Option String
  renameError : Option String
  nonce : Nat → Nat → Nat → Except String Nonce
  unixNano : Int
  unixMilli : Int

def check : Option String → Except String Unit
  | none => .ok ()
  | some err => .error err

def emptyEnvelope : Envelope := ⟨currentWorkspaceSchemaVersion, .of [], .nil⟩

def readEnvelopeNoLock (s : WorkspaceStore) (w : World) (file : File) : Except String Envelope := do
  check w.readError
  match file with
  | .missing | .blank => return emptyEnvelope
  | .malformed err => .error err
  | .legacy projects =>
    return ⟨0, decryptNodePasswords s.crypto s.encKey (normalizeProjects projects), .nil⟩
  | .envelope env =>
    return {
      schemaVersion :=
        if env.schemaVersion ≤ 0 then currentWorkspaceSchemaVersion else env.schemaVersion
      projects := decryptNodePasswords s.crypto s.encKey (normalizeProjects env.projects)
      hosts := env.hosts }

def writeEnvelopeLocked (s : WorkspaceStore) (w : World) (env : Envelope) : Except String File := do
  check w.mkdirError
  let projects ← encryptNodePasswords s.crypto s.encKey w.nonce env.projects
  check w.writeError
  check w.renameError
  return .envelope { env with projects }

def readAll (s : WorkspaceStore) (w : World) (file : File) : Except String (Slice Project) := do
  let env ← readEnvelopeNoLock s w file
  return env.projects

/-- A new envelope around the projects; the file it replaces is not read. -/
def writeAll (s : WorkspaceStore) (w : World) (projects : Slice Project) (_ : File) :
    Except String File :=
  writeEnvelopeLocked s w ⟨currentWorkspaceSchemaVersion, normalizeProjects projects, .nil⟩

section Edit

variable {α ε : Type}

/-- Replaces the first element that `f` answers for by what it answers. -/
def editFirst (f : α → Option (Except ε (List α))) : List α → Option (Except ε (List α))
  | [] => none
  | x :: xs =>
    match f x with
    | some r => some (r.map (· ++ xs))
    | none => (editFirst f xs).map (·.map (x :: ·))

def patched (patch : α → Except ε α) (x : α) : Except ε (List α) :=
  (patch x).map fun y => [y]

def deleted (_ : α) : Except ε (List α) := .ok []

/-- The loop over a slice with its `not found` error at the end. -/
def editSlice (f : α → Option (Except ε (List α))) (missing : ε) (xs : Slice α) :
    Except ε (Slice α) :=
  match editFirst f xs.items with
  | none => .error missing
  | some r => r.map .of

end Edit

def editProject (projectID : String) (f : Project → Except String (List Project)) :
    Slice Project → Except String (Slice Project) :=
  editSlice (fun p => if p.id = projectID then some (f p) else none)
    ("project not found: " ++ projectID)

def editCluster (clusterID : String) (f : Cluster → Except String (List Cluster)) (p : Project) :
    Except String Project := do
  let clusters ← editSlice (fun c => if c.id = clusterID then some (f c) else none)
    ("cluster not found: " ++ clusterID) p.clusters
  return { p with clusters }

def editNode (nodeID : String) (f : Node → Except String (List Node)) (c : Cluster) :
    Except String Cluster := do
  let nodes ← editSlice (fun n => if n.id = nodeID then some (f n) else none)
    ("node not found: " ++ nodeID) c.nodes
  return { c with nodes }

def editHost (hostID : String) (f : Host → Except String (List Host)) :
    Slice Host → Except String (Slice Host) :=
  editSlice (fun h => if h.id = hostID then some (f h) else none)
    ("host not found: " ++ hostID)

def updateProject (id : String) (patch : Project → Except String Project) :
    Slice Project → Except String (Slice Project) :=
  editProject id (patched patch)

def deleteProject (id : String) (projects : Slice Project) : Except String (Slice Project) :=
  let next := projects.items.filter (·.id ≠ id)
  if next.length = projects.items.length then .error ("project not found: " ++ id)
  else .ok (.of next)

def updateCluster (projectID clusterID : String) (patch : Cluster → Except String Cluster) :
    Slice Project → Except String (Slice Project) :=
  editProject projectID (patched (editCluster clusterID (patched patch)))

def deleteCluster (projectID clusterID : String) :
    Slice Project → Except String (Slice Project) :=
  editProject projectID (patched (editCluster clusterID deleted))

def updateNode (projectID clusterID nodeID : String) (patch : Node → Except String Node) :
    Slice Project → Except String (Slice Project) :=
  editProject projectID (patched (editCluster clusterID (patched (editNode nodeID
    (patched patch)))))

def deleteNode (projectID clusterID nodeID : String) :
    Slice Project → Except String (Slice Project) :=
  editProject projectID (patched (editCluster clusterID (patched (editNode nodeID deleted))))

/-- The first node with the id, in whichever project and cluster. -/
def updateNodeStatus (nodeId status lastError : String) :
    Slice Project → Except String (Slice Project) :=
  editSlice (fun p => (editFirst (fun c => (editFirst (fun n =>
        if n.id = nodeId then some (.ok [{ n with connectionStatus := status, lastError }])
        else none) c.nodes.items).map
      (·.map fun nodes => [{ c with nodes := .of nodes }])) p.clusters.items).map
    (·.map fun clusters => [{ p with clusters := .of clusters }]))
    ("node not found: " ++ nodeId)

def appendHost (w : World) (host : Host) (hosts : Slice Host) : Slice Host :=
  hosts.append { host with
    id := if host.id = "" then "host-" ++ toString w.unixNano else host.id
    createdAt := if host.createdAt = 0 then w.unixMilli else host.createdAt }

def upsertItem (p : Project) : List Project → List Project
  | [] => [p]
  | q :: qs => if q.id = p.id then p :: qs else q :: upsertItem p qs

def upsert (s : WorkspaceStore) (w : World) (p : Project) (file : File) :
    Except String (Slice Project) := do
  let items ← readAll s w file
  if isBlank p.id then .error "project id is required"
  else return .of (upsertItem p items.items)

def deleteByID (s : WorkspaceStore) (w : World) (id : String) (file : File) :
    Except String (Slice Project) := do
  if isBlank id then .error "project id is required"
  else
    let items ← readAll s w file
    return .of (items.items.filter (·.id ≠ id))

def appendCluster (s : WorkspaceStore) (w : World) (projectID : String) (cluster : Cluster)
    (file : File) : Except String (Slice Project) := do
  if isBlank projectID then .error "projectId is required"
  else
    let items ← readAll s w file
    editProject projectID (patched fun p =>
      if cluster.id = "" then .error "cluster id is required"
      else .ok { p with
        clusters := p.clusters.append { cluster with nodes := .of cluster.nodes.items } }) items

def appendNode (s : WorkspaceStore) (w : World) (projectID clusterID : String) (node : Node)
    (file : File) : Except String (Slice Project) := do
  if isBlank projectID ∨ isBlank clusterID then .error "projectId and clusterId are required"
  else
    let items ← readAll s w file
    editProject projectID (patched (editCluster clusterID (patched fun c =>
      if node.id = "" then .error "node id is required"
      else .ok { c with nodes := c.nodes.append node }))) items

def readHosts (s : WorkspaceStore) (w : World) (file : File) : Except String (Slice Host) := do
  let env ← readEnvelopeNoLock s w file
  return env.hosts

inductive Request where
  | upsert (p : Project)
  | deleteByID (id : String)
  | appendCluster (projectID : String) (cluster : Cluster)
  | appendNode (projectID clusterID : String) (node : Node)
  | writeAll (projects : Slice Project)
  | updateProjectLocked (id : String) (patch : Project → Except String Project)
  | deleteProjectLocked (id : String)
  | updateClusterLocked (projectID clusterID : String) (patch : Cluster → Except String Cluster)
  | deleteClusterLocked (projectID clusterID : String)
  | updateNodeLocked (projectID clusterID nodeID : String) (patch : Node → Except String Node)
  | updateNodeStatus (nodeId status lastError : String)
  | deleteNodeLocked (projectID clusterID nodeID : String)
  | writeHosts (hosts : Slice Host)
  | appendHost (host : Host)
  | updateHost (id : String) (patch : Host → Except String Host)
  | deleteHost (id : String)

/-- Read, edit and write in one section. -/
def locked (s : WorkspaceStore) (w : World) (edit : Envelope → Except String Envelope) :
    Txn File (Slice Project) String :=
  .whole fun file => do
    let env ← readEnvelopeNoLock s w file
    let env ← edit env
    writeEnvelopeLocked s w env

def onProjects (edit : Slice Project → Except String (Slice Project)) (env : Envelope) :
    Except String Envelope := do
  let projects ← edit env.projects
  return { env with projects }

def onHosts (edit : Slice Host → Except String (Slice Host)) (env : Envelope) :
    Except String Envelope := do
  let hosts ← edit env.hosts
  return { env with hosts }

def txn (s : WorkspaceStore) (w : World) : Request → Txn File (Slice Project) String
  | .upsert p => .split (upsert s w p) (writeAll s w)
  | .deleteByID id => .split (deleteByID s w id) (writeAll s w)
  | .appendCluster projectID cluster =>
    .split (appendCluster s w projectID cluster) (writeAll s w)
  | .appendNode projectID clusterID node =>
    .split (appendNode s w projectID clusterID node) (writeAll s w)
  | .writeAll projects => .whole (writeAll s w projects)
  | .updateProjectLocked id patch => locked s w (onProjects (updateProject id patch))
  | .deleteProjectLocked id => locked s w (onProjects (deleteProject id))
  | .updateClusterLocked projectID clusterID patch =>
    locked s w (onProjects (updateCluster projectID clusterID patch))
  | .deleteClusterLocked projectID clusterID =>
    locked s w (onProjects (deleteCluster projectID clusterID))
  | .updateNodeLocked projectID clusterID nodeID patch =>
    locked s w (onProjects (updateNode projectID clusterID nodeID patch))
  | .updateNodeStatus nodeId status lastError =>
    locked s w (onProjects (updateNodeStatus nodeId status lastError))
  | .deleteNodeLocked projectID clusterID nodeID =>
    locked s w (onProjects (deleteNode projectID clusterID nodeID))
  | .writeHosts hosts => locked s w (onHosts fun _ => .ok hosts)
  | .appendHost host => locked s w (onHosts fun hosts => .ok (appendHost w host hosts))
  | .updateHost id patch => locked s w (onHosts (editHost id (patched patch)))
  | .deleteHost id => locked s w (onHosts (editHost id deleted))

theorem bind_ok {ε α β : Type} {x : Except ε α} {f : α → Except ε β} {b : β} :
    x >>= f = .ok b ↔ ∃ a, x = .ok a ∧ f a = .ok b := by
  cases x with
  | error e => simp [bind, Except.bind]
  | ok a => simp [bind, Except.bind]

section

variable {s : WorkspaceStore} {w : World} {file file' : File} {env : Envelope}

theorem write_ok (h : writeEnvelopeLocked s w env = .ok file') :
    ∃ projects, encryptNodePasswords s.crypto s.encKey w.nonce env.projects = .ok projects ∧
      file' = .envelope { env with projects } := by
  unfold writeEnvelopeLocked at h
  obtain ⟨-, -, h⟩ := bind_ok.mp h
  obtain ⟨projects, hprojects, h⟩ := bind_ok.mp h
  obtain ⟨-, -, h⟩ := bind_ok.mp h
  obtain ⟨-, -, h⟩ := bind_ok.mp h
  cases h
  exact ⟨projects, hprojects, rfl⟩

/-- A section that succeeds has read, edited and written. -/
theorem locked_ok {edit : Envelope → Except String Envelope}
    (h : (locked s w edit).exec file = .ok file') :
    ∃ env next, readEnvelopeNoLock s w file = .ok env ∧ edit env = .ok next ∧
      writeEnvelopeLocked s w next = .ok file' := by
  obtain ⟨env, henv, h⟩ := bind_ok.mp h
  obtain ⟨next, hnext, hwrite⟩ := bind_ok.mp h
  exact ⟨env, next, henv, hnext, hwrite⟩

theorem onProjects_ok {edit : Slice Project → Except String (Slice Project)} {next : Envelope}
    (h : onProjects edit env = .ok next) :
    edit env.projects = .ok next.projects ∧ next = { env with projects := next.projects } := by
  obtain ⟨projects, hprojects, hnext⟩ := bind_ok.mp h
  cases hnext
  exact ⟨hprojects, rfl⟩

theorem onHosts_ok {edit : Slice Host → Except String (Slice Host)} {next : Envelope}
    (h : onHosts edit env = .ok next) :
    edit env.hosts = .ok next.hosts ∧ next = { env with hosts := next.hosts } := by
  obtain ⟨hosts, hhosts, hnext⟩ := bind_ok.mp h
  cases hnext
  exact ⟨hhosts, rfl⟩

theorem editCluster_ok {clusterID : String} {f : Cluster → Except String (List Cluster)}
    {p q : Project} (h : editCluster clusterID f p = .ok q) :
    ∃ clusters, editSlice (fun c => if c.id = clusterID then some (f c) else none)
      ("cluster not found: " ++ clusterID) p.clusters = .ok clusters ∧ q = { p with clusters } := by
  obtain ⟨clusters, hclusters, hq⟩ := bind_ok.mp h
  cases hq
  exact ⟨clusters, hclusters, rfl⟩

theorem editNode_ok {nodeID : String} {f : Node → Except String (List Node)} {c d : Cluster}
    (h : editNode nodeID f c = .ok d) :
    ∃ nodes, editSlice (fun n => if n.id = nodeID then some (f n) else none)
      ("node not found: " ++ nodeID) c.nodes = .ok nodes ∧ d = { c with nodes } := by
  obtain ⟨nodes, hnodes, hd⟩ := bind_ok.mp h
  cases hd
  exact ⟨nodes, hnodes, rfl⟩

end

/-- A store without a key, which never calls its `crypto`. -/
def plainStore : WorkspaceStore :=
  ⟨⟨fun _ _ _ => [], fun _ _ _ => .error "", fun _ => "", fun _ => .error ""⟩, none⟩

def quiet : World := ⟨none, none, none, none, fun _ _ _ => .error "", 0, 0⟩

end LearnPg.Workspace.Store
