import LearnPg.Provision.Environment

/-! The providers that start and stop PostgreSQL instances, and the service that
chooses among them. An operation that may fail returns its error. -/
namespace LearnPg.Provision

open Basis.Calls

def invoke (c : Call) : Prog (Reply c) := ask c

def command (c : Command) : Prog (Option String) := invoke (.command c)

def isAlnum (c : Char) : Bool :=
  ('a' ≤ c && c ≤ 'z') || ('A' ≤ c && c ≤ 'Z') || ('0' ≤ c && c ≤ '9')

def sanitizeContainerName (name : String) : String :=
  let result := name.toList.map fun c => if isAlnum c || c ∈ ['_', '.', '-'] then c else '_'
  if result.head?.any isAlnum then .ofList result else .ofList ('p' :: 'g' :: result)

def splitPath : List Char → List (List Char)
  | [] => [[]]
  | c :: cs =>
    if c = '/' then [] :: splitPath cs
    else match splitPath cs with
    | [] => [[c]]
    | part :: parts => (c :: part) :: parts

/-- `filepath.Join` under a rooted directory. -/
def joinPath (dir name : String) : String :=
  let parts := (splitPath (dir.toList ++ '/' :: name.toList)).foldl (fun parts part =>
    if part = [] ∨ part = ['.'] then parts
    else if part = ['.', '.'] then parts.dropLast
    else parts ++ [part]) []
  if parts = [] then "/" else .ofList (parts.flatMap ('/' :: ·))

/-- The loops of the providers' `waitForPostgres`, which differ in the probe. -/
def waitReady (probe : Command) (timeout : String) : Nat → Prog (Option String)
  | 0 => return some timeout
  | attempts + 1 => do
    match ← invoke .ctxErr with
    | some err => return some err
    | none =>
      match ← command probe with
      | none => return none
      | some _ => waitReady probe timeout attempts

def maxAttempts : Nat := 30

namespace Docker

def waitForPostgres (containerID : String) : Prog (Option String) :=
  waitReady (.dockerPgIsReady containerID) "timeout waiting for PostgreSQL" maxAttempts

/-- The errors of the three commands are dropped. -/
def stop (info : InstanceInfo) : Prog (Option String) := do
  let _ ← command (.dockerStop info.containerID)
  let _ ← command (.dockerRm info.containerID)
  let _ ← command (.dockerVolumeRm info.dataDir)
  return none

def ensureImage (image : String) : Prog (Option String) := do
  if ← invoke (.hasLocalImage image) then return none
  else command (.dockerPull image)

/-- Zero when no port is available. -/
def choosePort (specPort : Int) : Prog Int := do
  let port := if specPort = 0 then 5432 else specPort
  if ← invoke (.isPortInUse port) then invoke (.findFreePort port)
  else return port

def start (spec : InstanceSpec) : Prog (Except String InstanceInfo) := do
  let now ← invoke .unixNano
  let containerName := "pgv-" ++ sanitizeContainerName spec.name ++ "-" ++ toString now
  let imageName := "docker.m.daocloud.io/library/postgres:" ++ spec.pgVersion
  match ← ensureImage imageName with
  | some err => return .error ("failed to pull image: " ++ err)
  | none =>
    let volumeName := containerName ++ "-data"
    -- not fatal: the volume may exist already
    let _ ← command (.dockerVolumeCreate volumeName)
    let port ← choosePort spec.port
    if port = 0 then return .error "no available port found"
    else
      match ← command (.dockerRun containerName volumeName port imageName) with
      | some err => return .error ("failed to create container: " ++ err)
      | none =>
        match ← waitForPostgres containerName with
        | some err =>
          let _ ← stop ⟨"docker", containerName, "", 0, volumeName, ""⟩
          return .error ("instance not ready: " ++ err)
        | none => return .ok ⟨"docker", containerName, "127.0.0.1", port, volumeName, spec.name⟩

end Docker

namespace Local

def waitForPostgres (port : Int) : Prog (Option String) :=
  waitReady (.pgIsReady port) ("timeout waiting for PostgreSQL on port " ++ toString port)
    maxAttempts

def stop (info : InstanceInfo) : Prog (Option String) := do
  match ← command (.pgCtlStop info.dataDir) with
  | some err => return some ("failed to stop PostgreSQL: " ++ err)
  | none =>
    let _ ← invoke (.removeAll info.dataDir)
    return none

/-- `initdb`, unless the directory holds a cluster already. -/
def ensureInitialized (dataDir : String) : Prog (Option String) := do
  match ← invoke (.statVersion dataDir) with
  | .found => return none
  | .failed err => return some ("failed to check data dir: " ++ err)
  | .notExist =>
    match ← command (.pgCtlInitdb dataDir) with
    | none => return none
    | some err =>
      let _ ← invoke (.removeAll dataDir)
      return some ("failed to initdb: " ++ err)

def chooseDataDir (spec : InstanceSpec) : Prog String := do
  if spec.dataDir = "" then
    let now ← invoke .unixNano
    return joinPath "/var/lib/pgv" (spec.name ++ "-" ++ toString now)
  else return spec.dataDir

/-- The placeholder for a container ID is the server's own process ID. -/
def start (pid : Nat) (spec : InstanceSpec) : Prog (Except String InstanceInfo) := do
  let dataDir ← chooseDataDir spec
  match ← invoke (.mkdirAll dataDir) with
  | some err => return .error ("failed to create data dir: " ++ err)
  | none =>
    match ← ensureInitialized dataDir with
    | some err => return .error err
    | none =>
      match ← command (.pgCtlStart dataDir spec.port) with
      | some err => return .error ("failed to start PostgreSQL: " ++ err)
      | none =>
        match ← waitForPostgres spec.port with
        | some err =>
          let _ ← stop ⟨"local", "", "", 0, dataDir, ""⟩
          return .error ("instance not ready: " ++ err)
        | none =>
          return .ok ⟨"local", toString pid, "127.0.0.1", spec.port, dataDir, spec.name⟩

end Local

/-- `waitForPostgres` of the package, which probes the port itself. -/
def waitForPort (host : String) (port : Int) : Nat → Prog (Option String)
  | 0 => return some ("postgres not ready at " ++ host ++ ":" ++ toString port)
  | attempts + 1 => do
    match ← invoke .ctxErr with
    | some err => return some err
    | none =>
      if ← invoke (.dial host port) then return none
      else waitForPort host port attempts

def waitForPostgres (host : String) (port : Int) : Prog (Option String) :=
  waitForPort host port maxAttempts

namespace DockerReplication

/-- `composeRunner.Up`. -/
def up (projectName content : String) : Prog (Option String) := do
  match ← invoke (.writeCompose projectName content) with
  | some err => return some ("failed to write compose file: " ++ err)
  | none =>
    match ← command (.composeUp projectName) with
    | some err => return some ("docker compose up failed: " ++ err)
    | none => return none

def down (projectName : String) : Prog (Option String) := do
  match ← command (.composeDown projectName) with
  | some err => return some ("docker compose down failed: " ++ err)
  | none => return none

/-- `compose` is what the generator makes of its template for the type. -/
def startReplica (compose : String → String) (spec : ReplicationSpec)
    (primaryInfo : InstanceInfo) : Prog (Except String ReplicaInfo) := do
  let now ← invoke .unix
  let projectName := "pgv-replica-" ++ spec.name ++ "-" ++ toString now
  match ← up projectName (compose spec.type) with
  | some err => return .error ("failed to start replica: " ++ err)
  | none =>
    let secondaryPort := if spec.secondaryPort = 0 then 5433 else spec.secondaryPort
    match ← Provision.waitForPostgres "127.0.0.1" secondaryPort with
    | some err =>
      let _ ← down projectName
      return .error ("secondary not ready: " ++ err)
    | none =>
      return .ok ⟨"docker-replication", projectName, primaryInfo,
        ⟨"docker-replication", projectName ++ "-standby", "127.0.0.1", secondaryPort, "",
          spec.name ++ "-secondary"⟩⟩

def stopReplica (replicaInfo : ReplicaInfo) : Prog (Option String) :=
  down replicaInfo.composeProject

end DockerReplication

/-- The process and the work of the compose generator. -/
structure Service where
  pid : Nat
  compose : String → String

namespace Service

variable (s : Service)

def unavailable (providerID : String) : String :=
  providerID ++ " provider unavailable: not registered"

/-- `RegisterProvider` is called for the docker and the local provider. -/
def startWith (spec : InstanceSpec) (providerID : String) : Prog (Except String InstanceInfo) :=
  if providerID = "docker" then Docker.start spec
  else if providerID = "local" then Local.start s.pid spec
  else return .error (unavailable providerID)

def startSingle (spec : InstanceSpec) (providerID : String) :
    Prog (Except String InstanceInfo) := do
  if spec.port = 0 then
    match ← invoke .findAvailablePort with
    | .error err => return .error err
    | .ok port => s.startWith { spec with port } providerID
  else s.startWith spec providerID

def stopInstance (info : InstanceInfo) : Prog (Option String) :=
  if info.providerID = "docker" then Docker.stop info
  else if info.providerID = "local" then Local.stop info
  else return some (unavailable info.providerID)

/-- `RegisterReplicationProvider` is called for one provider. -/
def hasReplicationProvider (id : String) : Bool := id = "docker-replication"

end Service

end LearnPg.Provision
