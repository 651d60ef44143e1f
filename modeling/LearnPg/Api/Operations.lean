import LearnPg.Api.Activation
import LearnPg.Api.Teardown

/-! The handlers that save whole projects, hosts and discovered nodes, and with them
all operations of the API that write the workspace. -/
namespace LearnPg.Api

open Workspace.Data Workspace.Store Provision Basis.Calls

structure HostCreateRequest where
  name : String
  host : String
  port : Int
  sshUser : String
  sshKey : String

structure HostUpdateRequest where
  name : Option String
  host : Option String
  port : Option Int
  sshUser : Option String
  sshKey : Option String

def HostUpdateRequest.patch (req : HostUpdateRequest) (h : Host) : Host :=
  { h with
    name := req.name.getD h.name
    host := req.host.getD h.host
    port := req.port.getD h.port
    sshUser := req.sshUser.getD h.sshUser
    sshKey := req.sshKey.getD h.sshKey }

structure DiscoveryInstance where
  host : String
  port : Int
  version : String
  dataDir : String
  service : String

structure DiscoveryImportRequest where
  projectID : String
  clusterID : String
  inst : DiscoveryInstance
  autoConnect : Bool
  user : String
  password : String
  database : String

structure ParsedDSN where
  host : String
  port : Int
  user : String
  pass : String
  db : String

structure DSNImportRequest where
  projectID : String
  clusterID : String
  dsn : String
  autoConnect : Bool

structure Imported where
  nodeID : String
  connected : Bool
  deriving DecidableEq

section

variable (s : WorkspaceStore)

def stored {α : Type} (w : World) (r : Request) (status : Nat) (failure : String) (file : File)
    (next : File → Except ApiError α) : File × Except ApiError α :=
  match (txn s w r).exec file with
  | .error err => (file, .error ⟨status, failure ++ err⟩)
  | .ok file => (file, next file)

def serveWorkspaceProjectSave (w : World) (project : Project) (file : File) :
    File × Except ApiError Unit :=
  stored s w (.upsert project) 400 "" file fun _ => .ok ()

/-- PUT /api/workspace/projects, which answers with the number of projects. -/
def serveWorkspaceProjectsSave (w : World) (projects : Slice Project) (file : File) :
    File × Except ApiError Nat :=
  stored s w (.writeAll (.of projects.items)) 500 "failed to save workspace: " file fun _ =>
    .ok projects.items.length

/-- PUT /api/workspace/projects/{id} -/
def serveWorkspaceProjectPut (w : World) (part : String) (project : Project) (file : File) :
    File × Except ApiError Unit :=
  let id := trimSpace part
  if id = "" then (file, .error ⟨400, "project id is required"⟩)
  else stored s w (.upsert { project with id }) 400 "" file fun _ => .ok ()

/-- DELETE /api/workspace/projects/{id} -/
def serveWorkspaceProjectDelete (w : World) (part : String) (file : File) :
    File × Except ApiError Unit :=
  let id := trimSpace part
  if id = "" then (file, .error ⟨400, "project id is required"⟩)
  else stored s w (.deleteByID id) 500 "failed to delete project: " file fun _ => .ok ()

def serveProjectDelete (w : World) (id : String) (file : File) : File × Except ApiError Unit :=
  if id = "" then (file, .error ⟨400, "project id is required"⟩)
  else stored s w (.deleteProjectLocked id) 404 "" file fun _ => .ok ()

def hostByID (w : World) (file : File) (id : String) : Except String (Option Host) :=
  (readHosts s w file).map (·.items.find? (·.id = id))

/-- The host is fetched again by its address and its name, since its id has been
generated by the store. -/
def serveHostCreate (w : Nat → World) (req : HostCreateRequest) (file : File) :
    File × Except ApiError Host :=
  if isBlank req.name then (file, .error ⟨400, "name is required"⟩)
  else if isBlank req.host then (file, .error ⟨400, "host is required"⟩)
  else
    let port := orDefaultInt req.port 22
    if port < 1 ∨ 65535 < port then (file, .error ⟨400, "port must be between 1 and 65535"⟩)
    else
      let host : Host := ⟨"", req.name, req.host, port, orDefaultStr req.sshUser "root",
        req.sshKey, (w 0).unixMilli⟩
      stored s (w 1) (.appendHost host) 500 "" file fun file =>
        match readHosts s (w 2) file with
        | .error err => .error ⟨500, "failed to re-fetch host after creation: " ++ err⟩
        | .ok hosts =>
          match hosts.items.find? fun h => h.host = host.host ∧ h.name = host.name with
          | none => .error ⟨500, "host created but not found in re-fetch"⟩
          | some saved => .ok saved

def serveHostUpdate (w : Nat → World) (id : String) (req : HostUpdateRequest) (file : File) :
    File × Except ApiError Host :=
  if id = "" then (file, .error ⟨400, "host id is required"⟩)
  else if req.port.any fun port => port < 1 || 65535 < port then
    (file, .error ⟨400, "port must be between 1 and 65535"⟩)
  else stored s (w 0) (.updateHost id fun h => .ok (req.patch h)) 404 "" file fun file =>
    match hostByID s (w 1) file id with
    | .error err => .error ⟨500, "failed to re-fetch host after update: " ++ err⟩
    | .ok none => .error ⟨404, "host not found after update"⟩
    | .ok (some host) => .ok host

def serveHostDelete (w : World) (id : String) (file : File) : File × Except ApiError Unit :=
  if id = "" then (file, .error ⟨400, "host id is required"⟩)
  else stored s w (.deleteHost id) 404 "" file fun _ => .ok ()

/-- A discovered node is appended; `connects` is whether `tryConnectNode` succeeds. -/
def importNode (w : World) (projectID clusterID : String) (node : Node) (autoConnect : Bool)
    (connects : Node → Bool) (file : File) : File × Except ApiError Imported :=
  stored s w (.appendNode projectID clusterID node) 400 "" file fun _ =>
    .ok ⟨node.id, autoConnect && connects node⟩

def mintedNode (w : World) : String := "node-" ++ toString w.unixNano

def serveDiscoveryHostImport (cfg : PgConfig) (w : Nat → World) (req : DiscoveryImportRequest)
    (connects : Node → Bool) (file : File) : File × Except ApiError Imported :=
  if req.projectID = "" ∨ req.clusterID = "" then
    (file, .error ⟨400, "projectId and clusterId are required"⟩)
  else if req.inst.host = "" ∨ req.inst.port = 0 then
    (file, .error ⟨400, "instance host/port are required"⟩)
  else
    let node : Node := ⟨mintedNode (w 0), req.inst.host ++ ":" ++ toString req.inst.port,
      req.inst.host, req.inst.port, orDefaultStr req.user cfg.user,
      orDefaultStr req.password cfg.password, orDefaultStr req.database cfg.database, "physical",
      "standby", "discovered", "",
      some ⟨req.inst.service, req.inst.dataDir, req.inst.version⟩, some ⟨req.inst.host, 22, ""⟩,
      "", "", "", ""⟩
    importNode s (w 1) req.projectID req.clusterID node req.autoConnect connects file

def serveDiscoveryDSNImport (w : Nat → World) (req : DSNImportRequest)
    (parsed : Except String ParsedDSN) (connects : Node → Bool) (file : File) :
    File × Except ApiError Imported :=
  match parsed with
  | .error err => (file, .error ⟨400, err⟩)
  | .ok dsn =>
    let node : Node := ⟨mintedNode (w 0), dsn.host ++ ":" ++ toString dsn.port, dsn.host, dsn.port,
      dsn.user, dsn.pass, dsn.db, "physical", "standby", "dsn", req.dsn, none, none, "", "", "",
      ""⟩
    importNode s (w 1) req.projectID req.clusterID node req.autoConnect connects file

end

/-- The operations of the API that write the workspace. -/
inductive Operation where
  | saveProject (project : Project)
  | saveProjects (projects : Slice Project)
  | putProject (part : String) (project : Project)
  | dropProject (part : String)
  | createProject (req : ProjectCreateRequest)
  | updateProject (id : String) (req : ProjectUpdateRequest)
  | deleteProject (id : String)
  | createCluster (projectID : String) (req : ClusterCreateRequest)
  | updateCluster (clusterID : String) (req : ClusterUpdateRequest)
  | deleteCluster (clusterID : String)
  | teardownCluster (fate : Fate) (method part : String) (body : TeardownBody)
  | createNode (clusterID : String) (req : NodeCreateRequest)
  | updateNode (nodeID : String) (req : NodeUpdateRequest)
  | deleteNode (nodeID : String)
  | activateNode (nodeID : String) (m : Connection.State) (answer : Except String Unit)
  | deactivateNode (nodeID : String) (m : Connection.State)
  | provision (fate : Fate) (service : Service) (method : String) (request : ProvisionRequest)
  | importHost (req : DiscoveryImportRequest) (connects : Node → Bool)
  | importDSN (req : DSNImportRequest) (parsed : Except String ParsedDSN) (connects : Node → Bool)
  | createHost (req : HostCreateRequest)
  | updateHost (id : String) (req : HostUpdateRequest)
  | deleteHost (id : String)

/-- The file after an operation that has answered with success. -/
def succeeded {α : Type} (result : File × Except ApiError α) : Option File :=
  match result.2 with
  | .ok _ => some result.1
  | .error _ => none

def Operation.serve (s : WorkspaceStore) (cfg : PgConfig) (w : Nat → World) (file : File) :
    Operation → Option File
  | .saveProject project => succeeded (serveWorkspaceProjectSave s (w 0) project file)
  | .saveProjects projects => succeeded (serveWorkspaceProjectsSave s (w 0) projects file)
  | .putProject part project => succeeded (serveWorkspaceProjectPut s (w 0) part project file)
  | .dropProject part => succeeded (serveWorkspaceProjectDelete s (w 0) part file)
  | .createProject req => succeeded (serveProjectCreate s (w 0) req file)
  | .updateProject id req => succeeded (serveProjectUpdate s w id req file)
  | .deleteProject id => succeeded (serveProjectDelete s (w 0) id file)
  | .createCluster projectID req => succeeded (serveClusterCreate s (w 0) projectID req file)
  | .updateCluster clusterID req => succeeded (serveClusterUpdate s w clusterID req file)
  | .deleteCluster clusterID => succeeded (serveClusterDelete s w clusterID file)
  | .teardownCluster fate method part body =>
    let result := (serveClusterTeardown method part body).run (handle s fate)
      (.start file fun _ => none)
    succeeded (result.2.file, result.1)
  | .createNode clusterID req => succeeded (serveNodeCreate s w clusterID req file)
  | .updateNode nodeID req => succeeded (serveNodeUpdate s w nodeID req file)
  | .deleteNode nodeID => succeeded (serveNodeDelete s w nodeID file)
  | .activateNode nodeID m answer =>
    let result := Activation.serveNodeActivateAlone s w answer nodeID file m
    succeeded (result.1, result.2.2)
  | .deactivateNode nodeID m =>
    let result := Activation.serveNodeDeactivateAlone s (w 0) nodeID file m
    succeeded (result.1, result.2.2)
  | .provision fate service method request =>
    let result := (request.serve cfg service method).run (handle s fate)
      (.start file fun _ => none)
    succeeded (result.2.file, result.1)
  | .importHost req connects => succeeded (serveDiscoveryHostImport s cfg w req connects file)
  | .importDSN req parsed connects =>
    succeeded (serveDiscoveryDSNImport s w req parsed connects file)
  | .createHost req => succeeded (serveHostCreate s w req file)
  | .updateHost id req => succeeded (serveHostUpdate s w id req file)
  | .deleteHost id => succeeded (serveHostDelete s (w 0) id file)

end LearnPg.Api
