import LearnPg.Api.AllOrNothing
import LearnPg.Api.TaskRecords
import Mathlib.Data.List.Chain

/-! The life of a provision task: the handler's records are in order, so what disturbs the
states of the task is its clock and what comes in between. -/
namespace LearnPg.Api

open Workspace.Store Provision Basis.Calls Basis.Runs

/-- The task list holds `x` for the record `a`. -/
structure Stores (x a : ProvisionTask) : Prop where
  projectID : a.projectID = "" ∨ x.projectID = a.projectID
  clusterID : a.clusterID = "" ∨ x.clusterID = a.clusterID
  taskType : x.taskType = a.taskType
  progress : x.progress = a.progress
  status : x.status = a.status

section Records

variable {a b x : ProvisionTask} {now : Int}

theorem Stores.ended_iff (h : Stores x a) : Ended x ↔ Ended a := by
  unfold Ended
  rw [h.status]

theorem Continues.refl (a : ProvisionTask) : Continues a a :=
  ⟨rfl, rfl, rfl, .inr rfl, Nat.le_refl _, fun _ => rfl⟩

theorem Continues.trans {c : ProvisionTask} (h : Continues a b) (h' : Continues b c) :
    Continues a c where
  projectID := h'.projectID.trans h.projectID
  clusterID := h'.clusterID.trans h.clusterID
  taskType := h'.taskType.trans h.taskType
  startedAt := by
    have := h.startedAt
    have := h'.startedAt
    omega
  progress := Nat.le_trans h.progress h'.progress
  status := by
    intro ha
    have hb : Ended b := by
      unfold Ended
      rw [h.status ha]
      exact ha
    exact (h'.status hb).trans (h.status ha)

theorem precedes_refl (x : Option ProvisionTask) : Precedes x x := by
  cases x with
  | none => rfl
  | some a => exact .refl a

theorem precedes_trans {x y z : Option ProvisionTask} (h : Precedes x y) (h' : Precedes y z) :
    Precedes x z := by
  cases x with
  | none =>
    cases h
    exact h'
  | some a =>
    cases z with
    | none => trivial
    | some c =>
      cases y with
      | none => cases h'
      | some b => exact Continues.trans h h'

instance : Trans Precedes Precedes Precedes := ⟨precedes_trans⟩

theorem mergeTask_stores (now : Int) (old : Option ProvisionTask) (a : ProvisionTask) :
    Stores (mergeTask now old a) a := by
  cases old with
  | none => exact ⟨.inr rfl, .inr rfl, rfl, rfl, rfl⟩
  | some old =>
    refine ⟨?_, ?_, rfl, rfl, rfl⟩
    · by_cases h : a.projectID = "" <;> simp [mergeTask, h]
    · by_cases h : a.clusterID = "" <;> simp [mergeTask, h]

theorem Stores.continues (h : Stores x a) (hnext : Next a b)
    (hstart : x.startedAt = 0 ∨ b.startedAt = 0 ∨ b.startedAt = x.startedAt) :
    Continues x (mergeTask now (some x) b) where
  projectID := by
    have := h.projectID
    rw [← hnext.projectID] at this
    by_cases hb : b.projectID = "" <;> simp_all [mergeTask]
  clusterID := by
    have := h.clusterID
    rw [← hnext.clusterID] at this
    by_cases hb : b.clusterID = "" <;> simp_all [mergeTask]
  taskType := hnext.taskType.trans h.taskType.symm
  startedAt := by
    simp only [mergeTask]
    split_ifs <;> omega
  progress := h.progress ▸ hnext.progress
  status := fun hx => (hnext.running (h.ended_iff.mp hx)).elim

end Records

section Steps

variable {s : WorkspaceStore} {f : Fate} {taskID : String} {request : ProvisionRequest}
  {p q : Provisioning} {a : ProvisionTask} {last : Option ProvisionTask} {now : Int}

theorem handle_tasks {e : Env} {c : Call} (h : c.record = none) :
    (handle s f e c).2.tasks = e.tasks := by
  cases c with
  | setProvisionTask t => cases h
  | command c =>
    simp only [handle]
    split
    · rfl
    · split <;> rfl
  | mkdirAll dir =>
    simp only [handle]
    split <;> rfl
  | removeAll dir =>
    simp only [handle]
    split <;> rfl
  | appendCluster projectID cluster =>
    simp only [handle]
    split <;> rfl
  | deleteClusterLocked projectID clusterID =>
    simp only [handle]
    split <;> rfl
  | _ => rfl

theorem handle_write {e : Env} {c : Call} {t : ProvisionTask} (h : c.record = some t)
    (hid : t.taskID = taskID) : (handle s f e c).2.tasks taskID =
      some (mergeTask (f.store e.clock).unixMilli (e.tasks taskID) t) := by
  cases c with
  | setProvisionTask t =>
    cases h
    rw [← hid]
    exact Function.update_self ..
  | _ => cases h

theorem serveTaskByID_tasks (method path : String) (tasks : String → Option ProvisionTask)
    (id : String) :
    (serveTaskByID method path tasks).2 id = tasks id ∨
      method = "DELETE" ∧ pathTaskID path = id ∧
        (serveTaskByID method path tasks).2 id = none := by
  unfold serveTaskByID
  generalize pathTaskID path = taskID
  dsimp only
  split
  · exact .inl rfl
  split
  · left
    split <;> rfl
  split
  next hdelete =>
    split
    · exact .inl rfl
    · by_cases hid : id = taskID
      · right
        simp [hdelete, hid]
      · left
        exact Function.update_of_ne hid ..
  · exact .inl rfl

/-- The handler has written its record `a` of the task. -/
structure Begun (taskID : String) (request : ProvisionRequest) (p : Provisioning)
    (a : ProvisionTask) : Prop where
  named : a.taskID = taskID
  request : request.Typed
  last : p.history.getLast? = some (p.env.tasks taskID)
  stored : ∀ x, p.env.tasks taskID = some x → Stores x a
  deleted : p.env.tasks taskID = none → Ended a
  precedes : p.history.IsChain Precedes
  typed : ∀ b, some b ∈ p.history → b.taskType ≠ ""
  ended : Ended a → ∃ b, some b ∈ p.history ∧ Ended b

/-- The records of the handler, up to the last one, are among the states of the task. -/
structure InStep (taskID : String) (request : ProvisionRequest) (p : Provisioning)
    (last : Option ProvisionTask) : Prop where
  follows : Follows request.Typed p.rest LastEnded last
  task : (p.history = [] ∧ ∀ a ∈ last, a.taskID ≠ taskID) ∨
    ∃ a ∈ last, Begun taskID request p a

theorem InStep.nextRecord (h : InStep taskID request p last) {t : ProvisionTask}
    (ht : t ∈ p.nextRecord) :
    (request.Typed → t.taskType ≠ "") ∧ ∀ a ∈ last, Next a t := by
  have hfollows := h.follows
  unfold Provisioning.nextRecord at ht
  cases hrest : p.rest with
  | done r => simp [hrest] at ht
  | call c next =>
    rw [hrest] at hfollows ht
    exact hfollows.1 t ht

theorem Begun.history_ne (h : Begun taskID request p a) : p.history ≠ [] := by
  intro hnil
  have := h.last
  simp [hnil] at this

theorem Begun.stored_eq (h : Begun taskID request p a) : p.stored = p.env.tasks taskID := by
  simp [Provisioning.stored, h.last]

theorem Begun.typed_of_tasks (h : Begun taskID request p a) {x : ProvisionTask}
    (hx : p.env.tasks taskID = some x) : x.taskType ≠ "" :=
  h.typed x (hx ▸ List.mem_of_getLast? h.last)

theorem chain_concat (h : Begun taskID request p a) {y : Option ProvisionTask}
    (hy : Precedes (p.env.tasks taskID) y) : (p.history ++ [y]).IsChain Precedes := by
  refine h.precedes.append (List.isChain_singleton y) ?_
  simp [h.last, hy]

theorem Begun.kept (h : Begun taskID request p a)
    (htasks : q.env.tasks taskID = p.env.tasks taskID ∨
      Ended a ∧ q.env.tasks taskID = none)
    (hhistory : q.history = p.history ++ [q.env.tasks taskID]) : Begun taskID request q a where
  named := h.named
  request := h.request
  last := by simp [hhistory]
  stored := by
    obtain htasks | ⟨-, htasks⟩ := htasks
    · rw [htasks]
      exact h.stored
    · simp [htasks]
  deleted := by
    obtain htasks | ⟨hended, -⟩ := htasks
    · rw [htasks]
      exact h.deleted
    · exact fun _ => hended
  precedes := by
    rw [hhistory]
    apply chain_concat h
    obtain htasks | ⟨-, htasks⟩ := htasks
    · rw [htasks]
      exact precedes_refl _
    · rw [htasks]
      cases p.env.tasks taskID <;> trivial
  typed := by
    intro b hb
    rw [hhistory, List.mem_append, List.mem_singleton] at hb
    obtain hb | hb := hb
    · exact h.typed b hb
    · obtain htasks | ⟨-, htasks⟩ := htasks
      · exact h.typed_of_tasks (htasks.symm.trans hb.symm)
      · simp [htasks] at hb
  ended := by
    intro ha
    obtain ⟨b, hb, hended⟩ := h.ended ha
    exact ⟨b, by simp [hhistory, hb], hended⟩

/-- The record of a step is the one that the task list holds after it. -/
theorem begun_of_write {t x : ProvisionTask} (hnamed : t.taskID = taskID)
    (hrequest : request.Typed) (hx : q.env.tasks taskID = some x) (hstores : Stores x t)
    (hlast : q.history.getLast? = some (some x)) (hprecedes : q.history.IsChain Precedes)
    (htyped : ∀ b, some b ∈ q.history → b.taskType ≠ "") : Begun taskID request q t where
  named := hnamed
  request := hrequest
  last := hx ▸ hlast
  stored := by simp [hx, hstores]
  deleted := by simp [hx]
  precedes := hprecedes
  typed := htyped
  ended := fun ht => ⟨x, List.mem_of_getLast? hlast, hstores.ended_iff.mpr ht⟩

theorem InStep.write {t : ProvisionTask} (h : InStep taskID request p last)
    (hcond : Undisturbed taskID request p .handler) (ht : t ∈ p.nextRecord)
    (hid : t.taskID = taskID)
    (htasks : q.env.tasks taskID = some (mergeTask now (p.env.tasks taskID) t))
    (hhistory : q.history = p.history ++ [q.env.tasks taskID]) : Begun taskID request q t := by
  obtain ⟨htyped, hnext⟩ := h.nextRecord ht
  obtain ⟨hrequest, hstart⟩ := hcond t ht hid
  have hstores := mergeTask_stores now (p.env.tasks taskID) t
  have hlast : q.history.getLast? = some (some (mergeTask now (p.env.tasks taskID) t)) := by
    simp [hhistory, htasks]
  have htype : (mergeTask now (p.env.tasks taskID) t).taskType ≠ "" :=
    hstores.taskType ▸ htyped hrequest
  obtain ⟨hnil, -⟩ | ⟨a, ha, hbegun⟩ := h.task
  · -- the first record of the task
    refine begun_of_write hid hrequest htasks hstores hlast ?_ ?_
    · simp [hhistory, hnil]
    · simp [hhistory, hnil, htasks, htype]
  · have hnext := hnext a ha
    refine begun_of_write hid hrequest htasks hstores hlast ?_ ?_
    · rw [hhistory, htasks]
      apply chain_concat hbegun
      cases hstored : p.env.tasks taskID with
      | none => exact (hnext.running (hbegun.deleted hstored)).elim
      | some x =>
        have hstart := hstart x (hbegun.stored_eq.trans hstored)
        exact (hbegun.stored x hstored).continues hnext hstart
    · intro b hb
      simp only [hhistory, htasks, List.mem_append, List.mem_singleton, Option.some.injEq] at hb
      obtain hb | rfl := hb
      · exact hbegun.typed b hb
      · exact htype

theorem InStep.handler (h : InStep taskID request p last)
    (hcond : Undisturbed taskID request p .handler)
    (hstep : p.step s f taskID .handler = some q) : ∃ last, InStep taskID request q last := by
  cases hrest : p.rest with
  | done r => simp [Provisioning.step, hrest] at hstep
  | call c next =>
    have hfollows := h.follows
    have hnext : p.nextRecord = c.record := by simp [Provisioning.nextRecord, hrest]
    rw [hrest] at hfollows
    simp only [Provisioning.step, hrest, Option.some.injEq] at hstep
    subst hstep
    refine ⟨afterCall last c, hfollows.2 _, ?_⟩
    cases hc : c.record with
    | none =>
      have hsame : afterCall last c = last := by simp [afterCall, hc]
      rw [hsame]
      obtain ⟨hnil, hother⟩ | ⟨a, ha, hbegun⟩ := h.task
      · left
        exact ⟨by simp [hnil], hother⟩
      · right
        refine ⟨a, ha, hbegun.kept (.inl (congrFun (handle_tasks hc) taskID)) ?_⟩
        simp [hbegun.history_ne]
    | some t =>
      have ht : t ∈ p.nextRecord := hnext.trans hc
      have hlast : afterCall last c = some t := by simp [afterCall, hc]
      rw [hlast]
      by_cases hid : t.taskID = taskID
      · right
        exact ⟨t, rfl, h.write hcond ht hid (handle_write hc hid) (by simp [hid])⟩
      · left
        obtain ⟨hnil, -⟩ | ⟨a, ha, hbegun⟩ := h.task
        · simp [hnil, hid]
        · have hsame := ((h.nextRecord ht).2 a ha).taskID
          exact (hid (hsame.trans hbegun.named)).elim

theorem InStep.taskByID {method path : String} (h : InStep taskID request p last)
    (hcond : Undisturbed taskID request p (.taskByID method path))
    (hstep : p.step s f taskID (.taskByID method path) = some q) :
    InStep taskID request q last := by
  have htasks := serveTaskByID_tasks method path p.env.tasks taskID
  simp only [Provisioning.step, Option.some.injEq] at hstep
  generalize (serveTaskByID method path p.env.tasks).2 = tasks at htasks hstep
  subst hstep
  refine ⟨h.follows, ?_⟩
  obtain ⟨hnil, hother⟩ | ⟨a, ha, hbegun⟩ := h.task
  · left
    exact ⟨by simp [hnil], hother⟩
  · right
    refine ⟨a, ha, hbegun.kept ?_ (by simp [hbegun.history_ne])⟩
    obtain hsame | ⟨hdelete, hpath, hnone⟩ := htasks
    · exact .inl hsame
    · right
      refine ⟨?_, hnone⟩
      cases hstored : p.env.tasks taskID with
      | none => exact hbegun.deleted hstored
      | some x =>
        have hended := hcond hdelete hpath x (hbegun.stored_eq.trans hstored)
        exact (hbegun.stored x hstored).ended_iff.mp hended

theorem inStep_of_step {label : TaskLabel} (h : ∃ last, InStep taskID request p last)
    (hcond : Undisturbed taskID request p label) (hstep : p.step s f taskID label = some q) :
    ∃ last, InStep taskID request q last := by
  obtain ⟨last, h⟩ := h
  cases label with
  | handler => exact h.handler hcond hstep
  | taskByID method path => exact ⟨last, h.taskByID hcond hstep⟩
  | list =>
    cases hstep
    exact ⟨last, h⟩

theorem InStep.lifecycle (h : InStep taskID request p last) : Lifecycle p := by
  obtain ⟨hnil, -⟩ | ⟨a, ha, hbegun⟩ := h.task
  · constructor <;> simp [hnil]
  · refine ⟨List.isChain_iff_pairwise.mp hbegun.precedes, hbegun.typed, ?_⟩
    rintro ⟨r, hr⟩ -
    have hends := h.follows
    rw [hr] at hends
    exact hbegun.ended (hends a ha)

theorem Lifecycle.gone (h : Lifecycle p) :
    (p.history.map Option.isSome).Pairwise fun x y => x = false → y = false := by
  rw [List.pairwise_map]
  refine h.precedes.imp fun {x y} hxy => ?_
  cases x with
  | none =>
    cases hxy
    exact id
  | some a => exact nofun

end Steps

/-- In every run that nothing disturbs, whatever fails in it, the states of the task are
those of a task's life. -/
theorem lifecycle_of_undisturbed (s : WorkspaceStore) (f : Fate) (taskID : String)
    (cfg : PgConfig) (service : Service) (method : String) (request : ProvisionRequest)
    (file : File) (tasks : String → Option ProvisionTask) {labels : List TaskLabel}
    {p : Provisioning}
    (hmeets : (provisioning s f taskID cfg service method request file tasks).Meets
      (Undisturbed taskID request)
      (provisioning s f taskID cfg service method request file tasks).init labels)
    (hrun : (provisioning s f taskID cfg service method request file tasks).run labels =
      some p) :
    Lifecycle p := by
  have hinit : ∃ last, InStep taskID request
      (provisioning s f taskID cfg service method request file tasks).init last :=
    ⟨none, serve_follows method request, .inl ⟨rfl, nofun⟩⟩
  obtain ⟨last, hlast⟩ := @runFrom_keeps_of_meets _ _ _
    (fun p => ∃ last, InStep taskID request p last) _
    (fun _ _ _ => inStep_of_step) _ _ _ hinit hmeets hrun
  exact hlast.lifecycle

def unregistered : ProvisionRequest := .physical (some ⟨"p1", "main", "", "bare", "16", 5432, 0⟩)

/-- The task of `unregistered` in an environment in which nothing else fails. -/
def unregisteredTask : Machine Provisioning TaskLabel :=
  provisioning plainStore calm "task-7" serverConfig oneProcess "POST" unregistered oneProject
    fun _ => none

def failedThenDeleted : List TaskLabel :=
  List.replicate 8 .handler ++ [.list, .taskByID "GET" "/api/tasks/task-7"] ++
    List.replicate 3 .handler ++ [.taskByID "DELETE" "/api/tasks/task-7"]

theorem failedThenDeleted_lifecycle :
    ∃ p, unregisteredTask.run failedThenDeleted = some p ∧
      p.history.map (·.map ProvisionTask.status) =
        [some "running", some "running", some "running", some "running", some "running",
          some "running", some "failed", none] ∧ Lifecycle p :=
  ⟨_, rfl, by decide, @lifecycle_of_undisturbed plainStore calm "task-7" serverConfig oneProcess
    "POST" unregistered oneProject (fun _ => none) failedThenDeleted _ (by decide) rfl⟩

/-- The task is deleted between two records of it. -/
def deletedInBetween : List TaskLabel :=
  List.replicate 6 .handler ++ [.taskByID "DELETE" "/api/tasks/task-7"] ++
    List.replicate 2 .handler

/-- The record that the handler writes next brings the deleted task back. -/
theorem deletedInBetween_reappears :
    ¬ ∀ (s : WorkspaceStore) (f : Fate) (taskID : String) (cfg : PgConfig) (service : Service)
        (method : String) (request : ProvisionRequest) (file : File)
        (tasks : String → Option ProvisionTask) (labels : List TaskLabel) (p : Provisioning),
      (provisioning s f taskID cfg service method request file tasks).run labels = some p →
      Lifecycle p := by
  intro h
  have hshape : (unregisteredTask.run deletedInBetween).map
      (fun p => p.history.map Option.isSome) = some [true, false, false, true] := by decide
  obtain ⟨p, hrun, hhistory⟩ := Option.map_eq_some_iff.mp hshape
  have hlife := h plainStore calm "task-7" serverConfig oneProcess "POST" unregistered oneProject
    (fun _ => none) deletedInBetween p hrun
  have hgone := hlife.gone
  rw [hhistory] at hgone
  revert hgone
  decide

/-- A record of the single-node handler does not name the type of its task. -/
example : ((provisioning plainStore calm "task-7" serverConfig oneProcess "POST" dockerSingle
    oneProject fun _ => none).run (List.replicate 5 .handler)).map
    (·.history.map (·.map ProvisionTask.taskType)) = some [some ""] := by decide

/-- Each record says anew when the task has started. -/
example : ((provisioning plainStore { calm with reply := fun
      | n, .unixMilli => (n : Int)
      | _, c => calmReply c } "task-7" serverConfig oneProcess "POST" unregistered
    oneProject fun _ => none).run (List.replicate 8 .handler)).map
    (·.history.map (·.map ProvisionTask.startedAt)) = some [some 4, some 4, some 6] := by decide

end LearnPg.Api
