import LearnPg.Api.Provision
import LearnPg.Basis.Runs

/-! The task list while a handler provisions a cluster: its calls and the requests that
read, list and delete tasks, in any order. -/
namespace LearnPg.Api

open Workspace.Store Provision Basis.Calls Basis.Runs

/-- `strings.TrimPrefix`. -/
def trimPrefix (text start : String) : String :=
  if start.toList <+: text.toList then .ofList (text.toList.drop start.length) else text

/-- The task that a path under `/api/tasks/` names. -/
def pathTaskID (path : String) : String := trimSpace (trimPrefix path "/api/tasks/")

/-- The response, with the task if one was asked for, and the tasks after it. -/
def serveTaskByID (method path : String) (tasks : String → Option ProvisionTask) :
    Except ApiError (Option ProvisionTask) × (String → Option ProvisionTask) :=
  let taskID := pathTaskID path
  if taskID = "" then (.error ⟨400, "task id is required"⟩, tasks)
  else if method = "GET" then
    match tasks taskID with
    | none => (.error ⟨404, "task not found"⟩, tasks)
    | some task => (.ok (some task), tasks)
  else if method = "DELETE" then
    match tasks taskID with
    | none => (.error ⟨404, "task not found"⟩, tasks)
    | some _ => (.ok none, Function.update tasks taskID none)
  else (.error ⟨405, "GET/DELETE required"⟩, tasks)

/-- A handler's run with what is left of it, and the states of one task from the first
record that the handler wrote of it. -/
structure Provisioning where
  rest : Prog (Except ApiError ProvisionResponse)
  env : Env
  history : List (Option ProvisionTask)

/-- `list` stands for the requests that only read: `ServeTaskList`, `ServeProvisionTask` and
`ServeProvisionTasks`. -/
inductive TaskLabel where
  | handler
  | taskByID (method path : String)
  | list

section

variable (s : WorkspaceStore) (f : Fate) (taskID : String)

def Provisioning.step (p : Provisioning) : TaskLabel → Option Provisioning
  | .handler =>
    match p.rest with
    | .done _ => none
    | .call c next =>
      let (reply, env) := handle s f p.env c
      let written := c.record.any (·.taskID = taskID)
      let history := if p.history = [] ∧ ¬ written then [] else p.history ++ [env.tasks taskID]
      some ⟨next reply, env, history⟩
  | .taskByID method path =>
    let tasks := (serveTaskByID method path p.env.tasks).2
    let history := if p.history = [] then [] else p.history ++ [tasks taskID]
    some ⟨p.rest, { p.env with tasks }, history⟩
  | .list => some p

/-- A run of the handler of `request`, seen from the task `taskID`. -/
def provisioning (cfg : PgConfig) (service : Service) (method : String)
    (request : ProvisionRequest) (file : File) (tasks : String → Option ProvisionTask) :
    Machine Provisioning TaskLabel where
  init := ⟨request.serve cfg service method, .start file tasks, []⟩
  step := Provisioning.step s f taskID

end

/-! What is to hold of a task. -/

def Ended (t : ProvisionTask) : Prop := t.status = "success" ∨ t.status = "failed"

instance (t : ProvisionTask) : Decidable (Ended t) := inferInstanceAs (Decidable (_ ∨ _))

structure Continues (a b : ProvisionTask) : Prop where
  projectID : b.projectID = a.projectID
  clusterID : b.clusterID = a.clusterID
  taskType : b.taskType = a.taskType
  startedAt : a.startedAt = 0 ∨ b.startedAt = a.startedAt
  progress : a.progress ≤ b.progress
  status : Ended a → b.status = a.status

def Precedes : Option ProvisionTask → Option ProvisionTask → Prop
  | some a, some b => Continues a b
  | some _, none => True
  | none, b => b = none

def Provisioning.Returned (p : Provisioning) : Prop := ∃ r, p.rest = .done r

structure Lifecycle (p : Provisioning) : Prop where
  precedes : p.history.Pairwise Precedes
  typed : ∀ a, some a ∈ p.history → a.taskType ≠ ""
  ended : p.Returned → p.history ≠ [] → ∃ a, some a ∈ p.history ∧ Ended a

/-- The handlers whose records name the type of their task. -/
def ProvisionRequest.Typed : ProvisionRequest → Prop
  | .single _ => False
  | .physical _ | .logical _ => True

instance (request : ProvisionRequest) : Decidable request.Typed :=
  match request with
  | .single _ => .isFalse not_false
  | .physical _ | .logical _ => .isTrue trivial

def Provisioning.stored (p : Provisioning) : Option ProvisionTask := p.history.getLast?.join

/-- The record that the handler's next call writes. -/
def Provisioning.nextRecord (p : Provisioning) : Option ProvisionTask :=
  match p.rest with
  | .done _ => none
  | .call c _ => c.record

/-- The handler of a single node writes no record of the task; a later record is written
when the clock reads what the task has started at; and the task is deleted only when it has
ended. -/
def Undisturbed (taskID : String) (request : ProvisionRequest) (p : Provisioning) :
    TaskLabel → Prop
  | .handler => ∀ t ∈ p.nextRecord, t.taskID = taskID → request.Typed ∧
    ∀ x ∈ p.stored, x.startedAt = 0 ∨ t.startedAt = 0 ∨ t.startedAt = x.startedAt
  | .taskByID method path =>
    method = "DELETE" → pathTaskID path = taskID → ∀ x ∈ p.stored, Ended x
  | .list => True

instance (taskID : String) (request : ProvisionRequest) (p : Provisioning) (label : TaskLabel) :
    Decidable (Undisturbed taskID request p label) :=
  match label with
  | .handler => inferInstanceAs (Decidable (∀ _ ∈ _, _))
  | .taskByID .. => inferInstanceAs (Decidable (_ → _ → ∀ _ ∈ _, _))
  | .list => .isTrue trivial

end LearnPg.Api
