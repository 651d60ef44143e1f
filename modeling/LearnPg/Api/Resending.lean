import LearnPg.Api.Operations
import LearnPg.Workspace.Locality

/-! What a client that reads a project, a node or the whole workspace and sends it
back as it is does to the workspace. The API answers with masked passwords and
stores the passwords that it is sent. All texts are UTF-8, so that JSON keeps them. -/
namespace LearnPg.Api.Resending

open Basis.Blanks Workspace.Data Workspace.Secrets Workspace.Store Workspace.Places Workspace.Edits
  Workspace.Writes Workspace.Erasure Workspace.AtRest Workspace.Locality Basis.Sections

/-- A request of a representation and the one that sends it back. A project of a
list is named by its position there. -/
inductive Exchange where
  /-- GET /api/nodes/{id}, PUT /api/nodes/{id} -/
  | node (id : String)
  /-- GET /api/projects/{id}, PUT /api/projects/{id} -/
  | projectName (id : String)
  /-- GET /api/projects/{id}, PUT /api/workspace/projects/{id} -/
  | project (id : String)
  /-- GET /api/projects, PUT /api/workspace/projects/{id} -/
  | listed (i : Nat)
  /-- GET /api/workspace/projects, PUT /api/workspace/projects/{id} -/
  | snapshotted (i : Nat)
  /-- GET /api/projects, PUT /api/workspace/projects -/
  | list
  /-- GET /api/workspace/projects, PUT /api/workspace/projects -/
  | snapshot

/-- How many bytes the PUT reads of a body at most. -/
def Exchange.limit : Exchange → Nat
  | .list | .snapshot => 4 * 1024 * 1024
  | .node _ | .projectName _ | .project _ | .listed _ | .snapshotted _ => 1024 * 1024

/-- The fields that `NodeUpdateRequest` takes from the JSON text of a node. -/
def resentNode (n : Node) : NodeUpdateRequest :=
  ⟨some n.name, some n.host, some n.port, some n.user, some n.password, some n.database⟩

section

variable (s : WorkspaceStore)

/-- The file after the exchange of a body within the limit; `g` is what the system does
to the GET and `w i` to the `i`-th call of the PUT. A GET that fails leaves nothing to
send. -/
def Exchange.run (g : World) (w : Nat → World) (file : File) : Exchange → File
  | .node id =>
    match serveNodeGet s g id file with
    | .ok (.node n) => (serveNodeUpdate s w id (resentNode n) file).1
    | _ => file
  | .projectName id =>
    match serveProjectGet s g id file with
    | .ok (.project p) => (serveProjectUpdate s w id ⟨some p.name⟩ file).1
    | _ => file
  | .project id =>
    match serveProjectGet s g id file with
    | .ok (.project p) => (serveWorkspaceProjectPut s (w 0) id p file).1
    | _ => file
  | .listed i =>
    match serveProjectList s g file with
    | .ok (.projects ps) =>
      match ps.items[i]? with
      | some p => (serveWorkspaceProjectPut s (w 0) p.id p file).1
      | none => file
    | _ => file
  | .snapshotted i =>
    match serveWorkspaceProjects s g file with
    | .ok (.snapshot _ ps) =>
      match ps.items[i]? with
      | some p => (serveWorkspaceProjectPut s (w 0) p.id p file).1
      | none => file
    | _ => file
  | .list =>
    match serveProjectList s g file with
    | .ok (.projects ps) => (serveWorkspaceProjectsSave s (w 0) ps file).1
    | _ => file
  | .snapshot =>
    match serveWorkspaceProjects s g file with
    | .ok (.snapshot _ ps) => (serveWorkspaceProjectsSave s (w 0) ps file).1
    | _ => file

/-- The file after the exchange of a body of which the handler has to read `size` bytes. A PUT
that cannot read its body writes nothing. -/
def Exchange.send (g : World) (w : Nat → World) (file : File) (e : Exchange) (size : Nat) :
    File :=
  if size ≤ e.limit then e.run s g w file else file

def Same (before : Envelope) (file : File) : Prop :=
  ∃ after, readEnvelopeNoLock s quiet file = .ok after ∧ after.projects = before.projects ∧
    after.hosts.items = before.hosts.items

/-- Whatever the system does to its calls, the exchange leaves the workspace as it was. -/
def Harmless (file : File) (e : Exchange) (size : Nat) : Prop :=
  ∀ before, readEnvelopeNoLock s quiet file = .ok before →
    ∀ g w, Same s before (e.send s g w file size)

/-- What is read stays as it is when it is written and read again: no password that
is read is itself a ciphertext under the store's key. -/
def Settled (env : Envelope) : Prop :=
  ∀ n ∈ allNodes env.projects, Workspace.Places.readNode s n = n

/-- The node has what the other one shows in the fields that a PUT sets, and for its
password the mask. -/
structure Shows (shown n : Node) : Prop where
  name : n.name = shown.name
  host : n.host = shown.host
  port : n.port = shown.port
  user : n.user = shown.user
  password : n.password = maskedPassword
  database : n.database = shown.database

def Masked (p : Project) : Prop := ∀ n ∈ projectNodes p, n.password = maskedPassword

/-- What the PUT of one project needs: no hosts, and the project as it is sent as the
first one with the id that the path is trimmed to. -/
def PutKeeps (env : Envelope) (id : String) (p : Project) : Prop :=
  trimSpace id = "" ∨ env.hosts.items = [] ∧ Settled s env ∧
    projectByID env.projects (trimSpace id) = some { p with id := trimSpace id }

/-- What the workspace has to be like for the exchange to leave it as it is. -/
def Keeps (env : Envelope) : Exchange → Prop
  | .node id => id = "" ∨ ∀ projectID clusterID shown,
    locateNode env.projects id = some (projectID, clusterID, shown) →
      ∀ n, nodeByIDs env.projects projectID clusterID id = some n → Settled s env ∧ Shows shown n
  | .projectName id => id = "" ∨ projectByID env.projects id = none ∨ Settled s env
  | .project id => id = "" ∨ ∀ p, projectByID env.projects id = some p →
    PutKeeps s env id (maskProject p)
  | .listed i => ∀ p, env.projects.items[i]? = some p → PutKeeps s env p.id (maskProject p)
  | .snapshotted i => ∀ p, env.projects.items[i]? = some p → PutKeeps s env p.id p
  | .list => env.hosts.items = [] ∧ ∀ p ∈ env.projects.items, Masked p
  | .snapshot => env.hosts.items = [] ∧ Settled s env

end

section Written

variable {s : WorkspaceStore} {g w : World} {file file' : File} {env : Envelope}

/-- What reading the projects yields after they have been written. -/
def seen (s : WorkspaceStore) (projects : Slice Project) : Slice Project :=
  mapNodes (Workspace.Places.readNode s) (normalizeProjects projects)

/-- The file after a request that is to write `plan`: the old one, or what writing
the plan has left. The calls that read can only fail where `calm` does not hold. -/
structure Wrote (s : WorkspaceStore) (w : World) (calm : Prop) (file : File)
    (plan : Option Envelope) (file' : File) : Prop where
  cases : file' = file ∨ ∃ next, plan = some next ∧ writeEnvelopeLocked s w next = .ok file'
  goes : calm → ∀ next written, plan = some next →
    writeEnvelopeLocked s w next = .ok written → file' = written

theorem Wrote.none {calm : Prop} : Wrote s w calm file none file :=
  ⟨.inl rfl, fun _ _ _ hplan _ => nomatch hplan⟩

theorem Wrote.mono {calm calm' : Prop} {plan : Option Envelope}
    (h : Wrote s w calm file plan file') (hcalm : calm' → calm) :
    Wrote s w calm' file plan file' :=
  ⟨h.cases, fun hc => h.goes (hcalm hc)⟩

theorem Wrote.failed {calm : Prop} {plan : Option Envelope} (h : ¬ calm) :
    Wrote s w calm file plan file :=
  ⟨.inl rfl, fun hcalm => absurd hcalm h⟩

/-- The file after an operation of the store. -/
def put (s : WorkspaceStore) (w : World) (r : Request) (file : File) : File :=
  match (txn s w r).exec file with
  | .error _ => file
  | .ok file' => file'

/-- What `writeAll` writes: it knows of no hosts. -/
def saved (projects : List Project) : Envelope :=
  ⟨currentWorkspaceSchemaVersion, normalizeProjects (.of projects), .nil⟩

/-- What the PUT of one project is to write. -/
def putPlan (env : Envelope) (id : String) (p : Project) : Option Envelope :=
  if trimSpace id = "" then none
  else some (saved (upsertItem { p with id := trimSpace id } env.projects.items))

/-- What the exchange is to write, when something is sent. -/
def Exchange.plan (env : Envelope) : Exchange → Option Envelope
  | .node id =>
    if id = "" then none
    else (locateNode env.projects id).bind fun found =>
      (onProjects (updateNode found.1 found.2.1 id fun n =>
        .ok ((resentNode (maskNode found.2.2)).patch n)) env).toOption
  | .projectName id =>
    if id = "" then none
    else (projectByID env.projects id).bind fun p =>
      (onProjects (updateProject id fun q => .ok { q with name := p.name }) env).toOption
  | .project id =>
    if id = "" then none
    else (projectByID env.projects id).bind fun p => putPlan env id (maskProject p)
  | .listed i => env.projects.items[i]?.bind fun p => putPlan env p.id (maskProject p)
  | .snapshotted i => env.projects.items[i]?.bind fun p => putPlan env p.id p
  | .list => some (saved (env.projects.items.map maskProject))
  | .snapshot => some (saved env.projects.items)

end Written

section Plans

variable {s : WorkspaceStore} {env : Envelope} {p q : Project} {items : List Project}

theorem projectNodes_mask (p : Project) :
    projectNodes (maskProject p) = (projectNodes p).map maskNode := by
  unfold projectNodes maskProject
  rw [items_of, List.flatMap_map, List.map_flatMap]
  rfl

theorem mask_eq_iff (h : normalizeProject p = p) : maskProject p = p ↔ Masked p := by
  constructor
  · intro hmask n hn
    rw [← hmask, projectNodes_mask] at hn
    obtain ⟨m, -, rfl⟩ := List.mem_map.mp hn
    rfl
  · intro hmasked
    have hcluster : ∀ c ∈ p.clusters.items, maskCluster c = c := fun c hc => by
      have hnodes : c.nodes.items.map maskNode = c.nodes.items := by
        refine (List.map_congr_left fun n hn => ?_).trans (List.map_id _)
        have hpassword := hmasked n (List.mem_flatMap.mpr ⟨c, hc, hn⟩)
        unfold maskNode
        rw [← hpassword]
        rfl
      have hof : .of c.nodes.items = c.nodes :=
        congrArg Cluster.nodes (clusters_normal h c hc)
      unfold maskCluster
      rw [hnodes, hof]
    have hof : .of (p.clusters.items.map normalizeCluster) = p.clusters :=
      congrArg Project.clusters h
    have hclusters : p.clusters.items.map maskCluster = p.clusters.items.map normalizeCluster :=
      List.map_congr_left fun c hc => (hcluster c hc).trans (clusters_normal h c hc).symm
    unfold maskProject
    rw [hclusters, hof]

end Plans

section Unchanged

variable {α ε : Type} {key : α → String} {id : String} {patch : α → Except ε α} {missing : ε}
  {xs : List α} {x : α}

variable {projects : Slice Project} {projectID clusterID nodeID : String}

end Unchanged

section Exchanges

variable {s : WorkspaceStore} {file : File} {env : Envelope} {id : String} {p : Project}

section

variable (hnormal : normalizeProjects env.projects = env.projects)
include hnormal

end

/-- A project that its path names is unchanged by its masked copy exactly when there
is nothing behind the mask. -/
theorem putKeeps_masked (hid : trimSpace id = id) (hne : id ≠ "")
    (hp : projectByID env.projects id = some p) (hnormal : normalizeProject p = p) :
    PutKeeps s env id (maskProject p) ↔
      env.hosts.items = [] ∧ Settled s env ∧ Masked p := by
  have hpid : p.id = id := by simpa using List.find?_some hp
  have hsame : ({ maskProject p with id } : Project) = maskProject p :=
    congrArg (fun id : String => { maskProject p with id }) hpid.symm
  unfold PutKeeps
  rw [hid, or_iff_right hne, hp, hsame, Option.some.injEq, eq_comm (a := p), mask_eq_iff hnormal]

end Exchanges

end LearnPg.Api.Resending
