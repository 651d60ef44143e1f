import LearnPg.Basis.Blanks

/-! The workspace as the API server holds it: Go slices, which may be nil, and
the structures stored in the workspace file. -/
namespace LearnPg.Workspace.Data
open LearnPg.Basis.Blanks

/-- `nil` prints as `null`, `of []` as `[]`; ranging over either does nothing. -/
inductive Slice (α : Type) where
  | nil
  | of (items : List α)
  deriving DecidableEq

variable {α β ε : Type}

def Slice.items : Slice α → List α
  | .nil => []
  | .of items => items

def Slice.append (s : Slice α) (x : α) : Slice α := .of (s.items ++ [x])

def Slice.map (f : α → β) : Slice α → Slice β
  | .nil => .nil
  | .of items => .of (items.map f)

/-- A loop over the indices that may fail. -/
def mapIdx (f : Nat → α → Except ε β) : Nat → List α → Except ε (List β)
  | _, [] => .ok []
  | i, x :: xs => do
    let y ← f i x
    let ys ← mapIdx f (i + 1) xs
    return y :: ys

def Slice.mapIdx (f : Nat → α → Except ε β) : Slice α → Except ε (Slice β)
  | .nil => .ok .nil
  | .of items => Slice.of <$> Data.mapIdx f 0 items

structure InstanceMeta where
  service : String
  dataDir : String
  version : String
  deriving DecidableEq

structure SSHHint where
  host : String
  port : Int
  user : String
  deriving DecidableEq

structure Node where
  id : String
  name : String
  host : String
  port : Int
  user : String
  password : String
  database : String
  clusterType : String
  role : String
  source : String
  dsn : String
  instanceMeta : Option InstanceMeta
  sshHint : Option SSHHint
  connectionStatus : String
  lastError : String
  hostId : String
  containerID : String
  deriving DecidableEq

structure Runtime where
  type : String
  pgVersion : String
  deriving DecidableEq

structure Cluster where
  id : String
  name : String
  replicationType : String
  alertThresholdSec : Int
  provisionMode : String
  provisionTaskID : String
  runtime : Option Runtime
  nodes : Slice Node
  deriving DecidableEq

structure Component where
  id : String
  name : String
  componentType : String
  linkedClusterIDs : Slice String
  deriving DecidableEq

structure Project where
  id : String
  name : String
  clusters : Slice Cluster
  components : Slice Component
  deriving DecidableEq

structure Host where
  id : String
  name : String
  host : String
  port : Int
  sshUser : String
  sshKey : String
  createdAt : Int
  deriving DecidableEq

structure Envelope where
  schemaVersion : Int
  projects : Slice Project
  hosts : Slice Host
  deriving DecidableEq

def currentWorkspaceSchemaVersion : Int := 2

def normalizeComponent (m : Component) : Component :=
  { m with linkedClusterIDs := .of m.linkedClusterIDs.items }

def normalizeCluster (c : Cluster) : Cluster :=
  { c with
    nodes := .of c.nodes.items
    alertThresholdSec := if c.alertThresholdSec ≤ 0 then 30 else c.alertThresholdSec }

def normalizeProject (p : Project) : Project :=
  { p with
    clusters := .of (p.clusters.items.map normalizeCluster)
    components := .of (p.components.items.map normalizeComponent) }

def normalizeProjects (projects : Slice Project) : Slice Project :=
  .of (projects.items.map normalizeProject)

/-- `strings.TrimSpace(s) == ""`. -/
def isBlank (s : String) : Bool := s.toList.all isSpace

end LearnPg.Workspace.Data
