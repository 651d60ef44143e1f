import LearnPg.Provision.Providers

/-! The handlers that provision a cluster: they start its instances, save it in the
workspace and record the progress as a task. What was started is stopped again when a
later step fails. -/
namespace LearnPg.Api

open Workspace.Data Workspace.Store Provision Basis.Blanks Basis.Calls

/-- `strings.TrimSpace`. -/
def trimSpace (text : String) : String :=
  .ofList ((text.toList.dropWhile isSpace).reverse.dropWhile isSpace).reverse

/-- `strings.ToLower` on the ASCII letters. -/
def toLower (text : String) : String := .ofList (text.toList.map Char.toLower)

def orDefaultStr (val default : String) : String := if val = "" then default else val

def orDefaultInt (val default : Int) : Int := if val = 0 then default else val

/-- The settings of the server's own connection, which the new nodes get too. -/
structure PgConfig where
  port : Int
  user : String
  password : String
  database : String

structure ProvisionSingleRequest where
  projectID : String
  clusterName : String
  runtimeType : String
  pgVersion : String
  providerType : String

structure ReplicaProvisionRequest where
  projectID : String
  clusterName : String
  type : String
  runtimeType : String
  pgVersion : String
  primaryPort : Int
  secondaryPort : Int

structure ProvisionResponse where
  projectID : String
  clusterID : String
  nodeIDs : List String
  autoConnectedNodeID : String
  taskID : String
  deriving DecidableEq

def genID (kind : String) : Prog String := do
  let now ← invoke .unixNano
  return kind ++ "-" ++ toString now

/-- What the records of one run's task have in common. -/
def newTask (taskID taskType projectID clusterID : String) : ProvisionTask :=
  ⟨taskID, taskType, "", 0, "", projectID, clusterID, [], "", 0, 0⟩

def setRunning (task : ProvisionTask) (progress : Nat) (message : String) :
    Prog Unit := do
  let startedAt ← invoke .unixMilli
  invoke (.setProvisionTask { task with status := "running", progress, message, startedAt })

def setFailed (task : ProvisionTask) (message error : String) : Prog Unit := do
  let startedAt ← invoke .unixMilli
  let finishedAt ← invoke .unixMilli
  invoke (.setProvisionTask
    { task with status := "failed", progress := 100, message, startedAt, finishedAt, error })

def setSucceeded (task : ProvisionTask) (message : String) (nodeIDs : List String) :
    Prog Unit := do
  let startedAt ← invoke .unixMilli
  let finishedAt ← invoke .unixMilli
  invoke (.setProvisionTask
    { task with status := "success", progress := 100, message, nodeIDs, startedAt, finishedAt })

section

variable (cfg : PgConfig) (service : Service)

def provisionedNode (id name clusterType role : String) (info : InstanceInfo) : Node :=
  ⟨id, name, info.host, info.port, orDefaultStr cfg.user "postgres",
    orDefaultStr cfg.password "postgres", orDefaultStr cfg.database "postgres", clusterType, role,
    "provisioned", "", none, none, "", "", "", info.containerID⟩

def singleNode (nodeID : String) (info : InstanceInfo) : Node :=
  provisionedNode cfg nodeID "node-1" "physical" "primary" info

def singleCluster (req : ProvisionSingleRequest) (clusterID nodeID : String)
    (info : InstanceInfo) : Cluster :=
  ⟨clusterID, orDefaultStr (trimSpace req.clusterName) "单机集群", "physical", 30, "single", "",
    some ⟨orDefaultStr req.runtimeType "local", orDefaultStr req.pgVersion "16"⟩,
    .of [singleNode cfg nodeID info]⟩

/-- What follows once the ids are minted. -/
def provisionSingle (req : ProvisionSingleRequest) (task : ProvisionTask) (nodeID : String) :
    Prog (Except ApiError ProvisionResponse) := do
  setRunning task 5 "starting single-node provision"
  let providerType := orDefaultStr req.providerType "docker"
  let spec : InstanceSpec := ⟨orDefaultStr (trimSpace req.clusterName) "单机集群",
    orDefaultStr req.pgVersion "16", orDefaultInt cfg.port 5432, ""⟩
  setRunning task 10 "provisioning PostgreSQL instance"
  match ← service.startSingle spec providerType with
  | .error err =>
    setFailed task ("provision failed: " ++ err) err
    return .error ⟨500, "provision failed: " ++ err⟩
  | .ok info =>
    let cluster := singleCluster cfg req task.clusterID nodeID info
    setRunning task 70 "saving cluster to workspace"
    match ← invoke (.appendCluster req.projectID cluster) with
    | some err =>
      let _ ← Service.stopInstance info
      setFailed task ("failed to save cluster: " ++ err) err
      return .error ⟨400, err⟩
    | none =>
      setRunning task 90 "connecting to node"
      let connected ← invoke (.tryConnectNode (singleNode cfg nodeID info))
      setSucceeded task "single-node cluster ready" []
      return .ok ⟨req.projectID, task.clusterID, [nodeID], if connected then nodeID else "",
        task.taskID⟩

def serveProvisionSingle (method : String) (body : Option ProvisionSingleRequest) :
    Prog (Except ApiError ProvisionResponse) :=
  if method ≠ "POST" then return .error ⟨405, "POST required"⟩
  else match body with
  | none => return .error ⟨400, "invalid JSON"⟩
  | some req =>
    if isBlank req.projectID then return .error ⟨400, "projectId is required"⟩
    else do
      let taskID ← genID "task"
      let clusterID ← genID "cluster"
      let nodeID ← genID "node"
      provisionSingle cfg service req (newTask taskID "" req.projectID clusterID) nodeID

structure ReplicationNames where
  roleA : String
  roleB : String
  name : String

def replicationNames (replType : String) : ReplicationNames :=
  if replType = "logical" then ⟨"publisher", "subscriber", "逻辑复制集群"⟩
  else ⟨"primary", "standby", "物理复制集群"⟩

def primaryNode (replType nodeID : String) (info : InstanceInfo) : Node :=
  let role := (replicationNames replType).roleA
  provisionedNode cfg nodeID (role ++ "-1") replType role info

def secondaryNode (replType nodeID : String) (info : InstanceInfo) : Node :=
  let role := (replicationNames replType).roleB
  provisionedNode cfg nodeID (role ++ "-1") replType role info

def replicaCluster (req : ReplicaProvisionRequest)
    (replType taskID clusterID primaryNodeID standbyNodeID : String)
    (primaryInfo : InstanceInfo) (replicaInfo : ReplicaInfo) : Cluster :=
  ⟨clusterID, orDefaultStr (trimSpace req.clusterName) (replicationNames replType).name, replType,
    30, replType, taskID,
    some ⟨orDefaultStr req.runtimeType "docker", orDefaultStr req.pgVersion "16"⟩,
    .of [primaryNode cfg replType primaryNodeID primaryInfo,
      secondaryNode cfg replType standbyNodeID replicaInfo.secondaryInfo]⟩

/-- What follows once the replica is up. -/
def saveReplica (req : ReplicaProvisionRequest) (replType : String) (task : ProvisionTask)
    (primaryNodeID standbyNodeID : String) (primaryInfo : InstanceInfo)
    (replicaInfo : ReplicaInfo) : Prog (Except ApiError ProvisionResponse) := do
  setRunning task 60 "saving cluster to workspace"
  let cluster := replicaCluster cfg req replType task.taskID task.clusterID primaryNodeID
    standbyNodeID primaryInfo replicaInfo
  match ← invoke (.appendCluster req.projectID cluster) with
  | some err =>
    let _ ← DockerReplication.stopReplica replicaInfo
    let _ ← Service.stopInstance primaryInfo
    setFailed task ("failed to save cluster: " ++ err) err
    return .error ⟨400, err⟩
  | none =>
    setRunning task 70 "connecting to nodes"
    let connected ← invoke (.tryConnectNode (primaryNode cfg replType primaryNodeID primaryInfo))
    setSucceeded task "replicated cluster ready" [primaryNodeID, standbyNodeID]
    return .ok ⟨req.projectID, task.clusterID, [primaryNodeID, standbyNodeID],
      if connected then primaryNodeID else "", task.taskID⟩

/-- What follows once the primary is up. -/
def addReplica (req : ReplicaProvisionRequest) (replType : String) (task : ProvisionTask)
    (primaryNodeID standbyNodeID : String) (primaryPort : Int) (primaryInfo : InstanceInfo) :
    Prog (Except ApiError ProvisionResponse) := do
  setRunning task 30 "waiting for primary to be ready"
  match ← Provision.waitForPostgres primaryInfo.host primaryInfo.port with
  | some err =>
    let _ ← Service.stopInstance primaryInfo
    setFailed task ("primary not ready: " ++ err) err
    return .error ⟨500, "primary not ready: " ++ err⟩
  | none =>
    setRunning task 40 "starting standby/subscriber"
    if ¬ Service.hasReplicationProvider "docker-replication" then
      let _ ← Service.stopInstance primaryInfo
      setFailed task "docker-replication provider not available"
        "docker-replication provider not available"
      return .error ⟨500, "docker-replication provider not available"⟩
    else
      let secondaryPort := if req.secondaryPort = 0 then primaryPort + 1 else req.secondaryPort
      let spec : ReplicationSpec :=
        ⟨orDefaultStr (trimSpace req.clusterName) (replicationNames replType).name, replType,
          orDefaultStr req.pgVersion "16", primaryInfo.port, secondaryPort, "docker-replication"⟩
      match ← DockerReplication.startReplica service.compose spec primaryInfo with
      | .error err =>
        let _ ← Service.stopInstance primaryInfo
        setFailed task ("failed to start replica: " ++ err) err
        return .error ⟨500, "failed to start replica: " ++ err⟩
      | .ok replicaInfo =>
        saveReplica cfg req replType task primaryNodeID standbyNodeID primaryInfo
          replicaInfo

/-- What follows once the ids are minted. -/
def provisionReplica (req : ReplicaProvisionRequest) (replType : String) (task : ProvisionTask)
    (primaryNodeID standbyNodeID : String) : Prog (Except ApiError ProvisionResponse) := do
  let name := (replicationNames replType).name
  setRunning task 5 ("starting " ++ name)
  let providerType := orDefaultStr req.runtimeType "docker"
  let primaryPort := if req.primaryPort = 0 then orDefaultInt cfg.port 5432 else req.primaryPort
  let spec : InstanceSpec := ⟨orDefaultStr (trimSpace req.clusterName) name,
    orDefaultStr req.pgVersion "16", primaryPort, ""⟩
  setRunning task 10 "starting primary PostgreSQL"
  match ← service.startSingle spec providerType with
  | .error err =>
    setFailed task ("failed to start primary: " ++ err) err
    return .error ⟨500, "failed to start primary: " ++ err⟩
  | .ok primaryInfo =>
    addReplica cfg service req replType task primaryNodeID standbyNodeID primaryPort primaryInfo

def serveProvisionReplica (method : String) (req : ReplicaProvisionRequest) :
    Prog (Except ApiError ProvisionResponse) :=
  let replType := toLower (trimSpace req.type)
  if method ≠ "POST" then return .error ⟨405, "POST required"⟩
  else if replType ≠ "physical" ∧ replType ≠ "logical" then
    return .error ⟨400, "type must be 'physical' or 'logical'"⟩
  else if isBlank req.projectID then return .error ⟨400, "projectId is required"⟩
  else do
    let taskID ← genID "task"
    let clusterID ← genID "cluster"
    let primaryNodeID ← genID "node"
    let standbyNodeID ← genID "node"
    provisionReplica cfg service req replType
      (newTask taskID ("provision." ++ replType) req.projectID clusterID) primaryNodeID
      standbyNodeID

def serveProvisionPhysical (method : String) :
    Option ReplicaProvisionRequest → Prog (Except ApiError ProvisionResponse)
  | none => return .error ⟨400, "invalid JSON"⟩
  | some req => serveProvisionReplica cfg service method { req with type := "physical" }

def serveProvisionLogical (method : String) :
    Option ReplicaProvisionRequest → Prog (Except ApiError ProvisionResponse)
  | none => return .error ⟨400, "invalid JSON"⟩
  | some req => serveProvisionReplica cfg service method { req with type := "logical" }

inductive ProvisionRequest where
  | single (body : Option ProvisionSingleRequest)
  | physical (body : Option ReplicaProvisionRequest)
  | logical (body : Option ReplicaProvisionRequest)

def ProvisionRequest.serve (method : String) :
    ProvisionRequest → Prog (Except ApiError ProvisionResponse)
  | .single body => serveProvisionSingle cfg service method body
  | .physical body => serveProvisionPhysical cfg service method body
  | .logical body => serveProvisionLogical cfg service method body

end

end LearnPg.Api
