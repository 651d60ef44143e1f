import LearnPg.Basis.Calls
import LearnPg.Api.Crud

/-! What a request that provisions or tears down a cluster calls outside itself:
commands under the context of the request, the operating system, the task list and
the workspace. A run's resources are those that it created and nothing has removed. -/
namespace LearnPg.Provision

open Workspace.Data Workspace.Store Basis.Calls

inductive Resource where
  | container (name : String)
  | volume (name : String)
  | composeProject (name : String)
  | dataDir (path : String)
  deriving DecidableEq

/-- `exec.CommandContext` with the context of the request. -/
inductive Command where
  | dockerPull (image : String)
  | dockerVolumeCreate (volume : String)
  | dockerRun (container volume : String) (port : Int) (image : String)
  | dockerPgIsReady (container : String)
  | dockerStop (container : String)
  | dockerRm (container : String)
  | dockerVolumeRm (volume : String)
  | pgCtlInitdb (dataDir : String)
  | pgCtlStart (dataDir : String) (port : Int)
  | pgCtlStop (dataDir : String)
  | pgIsReady (port : Int)
  | composeUp (project : String)
  | composeDown (project : String)
  deriving DecidableEq

/-- `docker run` creates the volume that it is to mount where there is none. -/
def Command.effect : Command → List Resource → List Resource
  | .dockerVolumeCreate volume => List.insert (.volume volume)
  | .dockerRun container volume _ _ => fun made =>
    (made.insert (.volume volume)).insert (.container container)
  | .dockerRm container => List.filter (· ≠ .container container)
  | .dockerVolumeRm volume => List.filter (· ≠ .volume volume)
  | .composeUp project => List.insert (.composeProject project)
  | .composeDown project => List.filter (· ≠ .composeProject project)
  | _ => id

structure InstanceSpec where
  name : String
  pgVersion : String
  port : Int
  dataDir : String

structure InstanceInfo where
  providerID : String
  containerID : String
  host : String
  port : Int
  dataDir : String
  name : String
  deriving DecidableEq

structure ReplicationSpec where
  name : String
  type : String
  pgVersion : String
  primaryPort : Int
  secondaryPort : Int
  providerID : String

structure ReplicaInfo where
  providerID : String
  composeProject : String
  primaryInfo : InstanceInfo
  secondaryInfo : InstanceInfo

structure ProvisionTask where
  taskID : String
  taskType : String
  status : String
  progress : Nat
  message : String
  projectID : String
  clusterID : String
  nodeIDs : List String
  error : String
  startedAt : Int
  finishedAt : Int
  deriving DecidableEq

/-- What `os.Stat` says of a file. -/
inductive Stat where
  | found
  | notExist
  | failed (err : String)
  deriving DecidableEq

/-- The searches for a free port and the probe of one, for an image and for a
server stand for the commands and connections that they are made of: these change
nothing and are not under the context. -/
inductive Call where
  | unixNano
  | unixMilli
  | unix
  | ctxErr
  | command (c : Command)
  | hasLocalImage (image : String)
  | isPortInUse (port : Int)
  | findFreePort (port : Int)
  | findAvailablePort
  | mkdirAll (dir : String)
  | statVersion (dir : String)
  | removeAll (dir : String)
  | writeCompose (project content : String)
  | dial (host : String) (port : Int)
  | setProvisionTask (t : ProvisionTask)
  | appendCluster (projectID : String) (cluster : Cluster)
  | findClusterByID (clusterID : String)
  | deleteClusterLocked (projectID clusterID : String)
  | tryConnectNode (node : Node)

/-- A call that may fail replies with its error. -/
@[reducible] def Reply : Call → Type
  | .unixNano | .unixMilli | .unix | .findFreePort _ => Int
  | .ctxErr | .command _ | .mkdirAll _ | .removeAll _ | .writeCompose .. => Option String
  | .appendCluster .. | .deleteClusterLocked .. => Option String
  | .hasLocalImage _ | .isPortInUse _ | .dial .. | .tryConnectNode _ => Bool
  | .findAvailablePort => Except String Int
  | .statVersion _ => Stat
  | .setProvisionTask _ => Unit
  | .findClusterByID _ => Except String (Option (Cluster × String))

abbrev Prog := Program Call Reply

def Call.record : Call → Option ProvisionTask
  | .setProvisionTask t => some t
  | _ => none

/-- What happens to a request: the replies to its calls, by their number in the
run, and the number of calls after which the client disconnects. -/
structure Fate where
  reply : Nat → (c : Call) → Reply c
  /-- Whether a command that failed took effect all the same. -/
  tookEffect : Nat → Bool
  cancelAt : Option Nat
  store : Nat → World

def Fate.cancelled (f : Fate) (clock : Nat) : Bool :=
  f.cancelAt.any (· ≤ clock)

structure Env where
  clock : Nat
  made : List Resource
  tasks : String → Option ProvisionTask
  file : File
  /-- The clusters that the run has stored in the workspace. -/
  saved : List Cluster

def Env.start (file : File) (tasks : String → Option ProvisionTask) : Env :=
  ⟨0, [], tasks, file, []⟩

def Env.tick (e : Env) : Env := { e with clock := e.clock + 1 }

/-- `setProvisionTask` when its clock reads `now`. -/
def mergeTask (now : Int) (old : Option ProvisionTask) (t : ProvisionTask) : ProvisionTask :=
  let t := match old with
    | none => t
    | some old => { t with
      startedAt := if t.startedAt = 0 then old.startedAt else t.startedAt
      projectID := if t.projectID = "" then old.projectID else t.projectID
      clusterID := if t.clusterID = "" then old.clusterID else t.clusterID }
  { t with startedAt := if t.startedAt = 0 then now else t.startedAt }

def handle (s : WorkspaceStore) (f : Fate) (e : Env) : (c : Call) → Reply c × Env
  | .ctxErr => (if f.cancelled e.clock then some "context canceled" else none, e.tick)
  | .command c =>
    -- a command that starts under a cancelled context is not run; the text around its error is
    -- the caller's
    if f.cancelled e.clock then
      (some ((f.reply e.clock (.command c)).getD "context canceled"), e.tick)
    else
      let err := f.reply e.clock (.command c)
      (err, if err = none ∨ f.tookEffect e.clock then { e.tick with made := c.effect e.made }
        else e.tick)
  | .mkdirAll dir =>
    let err := f.reply e.clock (.mkdirAll dir)
    (err, if err = none then { e.tick with made := e.made.insert (.dataDir dir) } else e.tick)
  | .removeAll dir =>
    let err := f.reply e.clock (.removeAll dir)
    (err, if err = none then { e.tick with made := e.made.filter (· ≠ .dataDir dir) } else e.tick)
  | .setProvisionTask t =>
    let now := (f.store e.clock).unixMilli
    let task := mergeTask now (e.tasks t.taskID) t
    ((), { e.tick with tasks := Function.update e.tasks t.taskID (some task) })
  | .appendCluster projectID cluster =>
    match (txn s (f.store e.clock) (.appendCluster projectID cluster)).exec e.file with
    | .error err => (some err, e.tick)
    | .ok file => (none, { e.tick with file, saved := e.saved ++ [cluster] })
  | .findClusterByID clusterID =>
    ((readAll s (f.store e.clock) e.file).map (Api.locateCluster · clusterID), e.tick)
  | .deleteClusterLocked projectID clusterID =>
    match (txn s (f.store e.clock) (.deleteClusterLocked projectID clusterID)).exec e.file with
    | .error err => (some err, e.tick)
    | .ok file => (none, { e.tick with file })
  | c => (f.reply e.clock c, e.tick)

end LearnPg.Provision
