import LearnPg.Api.TaskLists
import LearnPg.Basis.JsonTypes
import LearnPg.Basis.Utf8
import Mathlib.Data.Finset.Sort

/-! The file that the server keeps its tasks in over a restart, and what the server does with
the map that it loads. -/
namespace LearnPg.Api.TaskFile
open LearnPg.Basis LearnPg.Basis.Json LearnPg.Basis.JsonTypes LearnPg.Basis.Maps LearnPg.Basis.Utf8
open TaskLists Workspace.Data
open LearnPg.Basis.Blanks (isSpace)

def taskFields : Fields :=
  .cons "taskId" false .string <| .cons "taskType" false .string <|
  .cons "status" false .string <| .cons "progress" false .int <|
  .cons "message" true .string <| .cons "result" true .string <| .cons "logs" true .string <|
  .cons "projectId" true .string <| .cons "clusterId" true .string <|
  .cons "nodeIDs" true (.slice .string) <| .cons "error" true .string <|
  .cons "startedAt" true .int <| .cons "finishedAt" true .int .nil

def taskType : Ty := .struct taskFields

def ofIDs (ids : List String) : Option (List String) := if ids = [] then none else some ids

def toTask : taskFields.Rep → StoredTask
  | (taskID, taskType, status, progress, message, result, logs, projectID, clusterID, nodeIDs,
      error, startedAt, finishedAt, _) =>
    ⟨taskID, taskType, status, progress, message, result, logs, projectID, clusterID,
      Option.getD nodeIDs [], error, startedAt, finishedAt⟩

def ofTask (t : StoredTask) : taskFields.Rep :=
  (t.taskID, t.taskType, t.status, t.progress, t.message, t.result, t.logs, t.projectID,
    t.clusterID, ofIDs t.nodeIDs, t.error, t.startedAt, t.finishedAt, ())

abbrev Tasks := Option (Map String StoredTask)

def sortedEntries (tasks : Map String StoredTask) : List (String × StoredTask) :=
  (tasks.keys.sort (· ≤ ·)).filterMap fun id => (tasks.lookup id).map (id, ·)

def encodeTasks : Tasks → Value
  | none => .null
  | some tasks =>
    .object ((sortedEntries tasks).map fun e => (e.1, taskType.encode (ofTask e.2)))

def insertDecoded (tasks : Map String StoredTask) (m : String × Value) :
    Option (Map String StoredTask) :=
  (taskType.decode taskType.zero m.2).map fun r => tasks.insert m.1 (toTask r)

def decodeTasks : Value → Option Tasks
  | .null => some none
  | .object members => (members.foldlM insertDecoded ∅).map some
  | _ => none

/-- What `json.Unmarshal` makes of a text for a `map[string]provisionTask`. -/
def unmarshalTasks (text : List Char) : Option Tasks := (parse text).bind decodeTasks

def contentOf (tasks : Tasks) : List UInt8 := encodeRunes ((encodeTasks tasks).render 0)

structure Handler where
  tasks : Tasks
  file : Option (List UInt8)

/-- The errors of the calls that replace the file. -/
structure Disk where
  mkdirError : Option String
  writeError : Option String
  renameError : Option String

inductive Panic where
  /-- `assignment to entry in nil map` -/
  | nilMap

section

variable (h : Handler)

/-- A file that cannot be read is `none`. -/
def loadProvisionTasks : Handler :=
  match h.file with
  | none => h
  | some b =>
    let text := decodeRunes b
    if text.all isSpace then h
    else match unmarshalTasks text with
    | none => h
    | some tasks => { h with tasks }

def persistProvisionTasksLocked (disk : Disk) : Handler :=
  if disk.mkdirError ≠ none then h
  else
    let b := contentOf h.tasks
    if disk.writeError ≠ none then h
    else if disk.renameError ≠ none then h
    else { h with file := some b }

/-- What `setProvisionTask` stores when its clock reads `now`. -/
def mergeStored (now : Int) (old : Option StoredTask) (t : StoredTask) : StoredTask :=
  let t := match old with
    | none => t
    | some old => { t with
      startedAt := if t.startedAt = 0 then old.startedAt else t.startedAt
      projectID := if t.projectID = "" then old.projectID else t.projectID
      clusterID := if t.clusterID = "" then old.clusterID else t.clusterID }
  { t with startedAt := if t.startedAt = 0 then now else t.startedAt }

/-- Looking a task up in a nil map finds none; storing one there panics. -/
def setProvisionTask (now : Int) (disk : Disk) (t : StoredTask) : Except Panic Handler :=
  let old := h.tasks.bind (·.lookup t.taskID)
  match h.tasks with
  | none => .error .nilMap
  | some tasks =>
    let tasks := tasks.insert t.taskID (mergeStored now old t)
    .ok (persistProvisionTasksLocked { h with tasks := some tasks } disk)

/-- `DELETE /api/tasks/{id}`, which looks the task up before it deletes it. -/
def deleteTask (disk : Disk) (taskID : String) : Handler :=
  match h.tasks.bind (·.lookup taskID) with
  | none => h
  | some _ =>
    persistProvisionTasksLocked { h with tasks := h.tasks.map (·.erase taskID) } disk

end

/-- The listings of `LearnPg.Api.TaskLists` loop over the map, and over a nil one not at all. -/
inductive Op where
  | set (now : Int) (disk : Disk) (t : StoredTask)
  | list
  | delete (disk : Disk) (taskID : String)

def Op.run (h : Handler) : Op → Except Panic Handler
  | .set now disk t => setProvisionTask h now disk t
  | .list => .ok h
  | .delete disk taskID => .ok (deleteTask h disk taskID)

def started (content : List UInt8) : Handler := loadProvisionTasks ⟨some ∅, some content⟩

def quiet : Disk := ⟨none, none, none⟩

/-- What the server wrote is what the next one loads. -/
def Restored (tasks : Map String StoredTask) : Prop :=
  ∀ h : Handler, h.tasks = some tasks → ∃ content,
    (persistProvisionTasksLocked h quiet).file = some content ∧
      (started content).tasks = some tasks

def Safe (content : List UInt8) : Prop :=
  ∀ ops : List Op, ∃ h, ops.foldlM Op.run (started content) = .ok h

def SaysNull (content : List UInt8) : Prop :=
  ∃ before after, decodeRunes content = before ++ "null".toList ++ after ∧
    ∀ c ∈ before ++ after, isWhite c = true

/-- The integers of the task are those of its Go type. -/
structure InRange (t : StoredTask) : Prop where
  progress : IsInt64 t.progress
  startedAt : IsInt64 t.startedAt
  finishedAt : IsInt64 t.finishedAt

def stored (t : Provision.ProvisionTask) : StoredTask :=
  ⟨t.taskID, t.taskType, t.status, t.progress, t.message, "", "", t.projectID, t.clusterID,
    t.nodeIDs, t.error, t.startedAt, t.finishedAt⟩

theorem mergeStored_stored (now : Int) (old : Option Provision.ProvisionTask)
    (t : Provision.ProvisionTask) : mergeStored now (old.map stored) (stored t) =
      stored (Provision.mergeTask now old t) := by
  cases old <;> rfl

section

variable {tasks : Map String StoredTask} {t : StoredTask} {content : List UInt8} {h h' : Handler}

theorem getD_ofIDs (ids : List String) : (ofIDs ids).getD [] = ids := by
  unfold ofIDs
  split
  next hnil => exact hnil.symm
  next => rfl

theorem toTask_ofTask (t : StoredTask) : toTask (ofTask t) = t :=
  congrArg (fun nodeIDs => { t with nodeIDs }) (getD_ofIDs t.nodeIDs)

theorem fits_ofTask (ht : InRange t) : taskType.Fits (ofTask t) := by
  have hids : (Ty.slice .string).IsEmpty (ofIDs t.nodeIDs) → ofIDs t.nodeIDs = none := fun hempty =>
    if_pos ((getD_ofIDs t.nodeIDs).symm.trans hempty)
  exact ⟨trivial, nofun, trivial, nofun, trivial, nofun, ht.progress, nofun, trivial, fun _ h => h,
    trivial, fun _ h => h, trivial, fun _ h => h, trivial, fun _ h => h, trivial, fun _ h => h,
    fun _ _ => trivial, fun _ => hids, trivial, fun _ h => h, ht.startedAt, fun _ h => h,
    ht.finishedAt, fun _ h => h, trivial⟩

theorem task_distinct : taskType.Distinct := by
  simp [taskType, taskFields, Ty.Distinct, Fields.Distinct, Fields.names]

theorem decode_ofTask (ht : InRange t) :
    (taskType.decode taskType.zero (taskType.encode (ofTask t))).map toTask = some t := by
  rw [taskType.decode_encode _ task_distinct (fits_ofTask ht)]
  exact congrArg some (toTask_ofTask t)

theorem mem_sortedEntries {e : String × StoredTask} :
    e ∈ sortedEntries tasks ↔ tasks.lookup e.1 = some e.2 := by
  unfold sortedEntries
  rw [List.mem_filterMap]
  constructor
  · rintro ⟨id, -, hid⟩
    obtain ⟨t, ht, rfl⟩ := Option.map_eq_some_iff.mp hid
    exact ht
  · intro he
    have hmem : e.1 ∈ tasks := Finmap.mem_of_lookup_eq_some he
    exact ⟨e.1, (Finset.mem_sort _).mpr (Finmap.mem_keys.mpr hmem), by rw [he]; rfl⟩

theorem lookup_foldl_insert {entries : List (String × StoredTask)}
    (hentries : ∀ e ∈ entries, tasks.lookup e.1 = some e.2) (acc : Map String StoredTask)
    (id : String) : (entries.foldl (fun acc e => acc.insert e.1 e.2) acc).lookup id =
      if id ∈ entries.map (·.1) then tasks.lookup id else acc.lookup id := by
  induction entries generalizing acc with
  | nil => rfl
  | cons e entries ih =>
    obtain ⟨he, hentries⟩ := List.forall_mem_cons.mp hentries
    rw [List.foldl_cons, ih hentries, List.map_cons]
    by_cases hid : id = e.1
    · rw [hid, Finmap.lookup_insert, he, if_pos List.mem_cons_self, ite_self]
    · simp only [List.mem_cons, hid, false_or, Finmap.lookup_insert_of_ne _ hid]

theorem foldlM_insertDecoded {entries : List (String × StoredTask)}
    (hrange : ∀ e ∈ entries, InRange e.2) (acc : Map String StoredTask) :
    (entries.map fun e => (e.1, taskType.encode (ofTask e.2))).foldlM insertDecoded acc =
      some (entries.foldl (fun acc e => acc.insert e.1 e.2) acc) := by
  induction entries generalizing acc with
  | nil => rfl
  | cons e entries ih =>
    obtain ⟨he, hrange⟩ := List.forall_mem_cons.mp hrange
    have hfirst : insertDecoded acc (e.1, taskType.encode (ofTask e.2)) =
        some (acc.insert e.1 e.2) := by
      obtain ⟨r, hr, ht⟩ := Option.map_eq_some_iff.mp (decode_ofTask he)
      unfold insertDecoded
      dsimp only
      rw [hr, Option.map_some, ht]
    rw [List.map_cons, List.foldlM_cons, hfirst]
    exact ih hrange _

theorem decode_encode_tasks (hrange : ∀ t ∈ values tasks, InRange t) :
    decodeTasks (encodeTasks (some tasks)) = some (some tasks) := by
  have hentries : ∀ e ∈ sortedEntries tasks, tasks.lookup e.1 = some e.2 :=
    fun e he => mem_sortedEntries.mp he
  have hinRange : ∀ e ∈ sortedEntries tasks, InRange e.2 :=
    fun e he => hrange e.2 (mem_values.mpr ⟨e.1, hentries e he⟩)
  have hsame : (sortedEntries tasks).foldl (fun acc e => acc.insert e.1 e.2) ∅ = tasks := by
    apply Finmap.ext_lookup
    intro id
    rw [lookup_foldl_insert hentries, Finmap.lookup_empty]
    split
    next => rfl
    next hnone =>
      cases hlookup : tasks.lookup id with
      | none => rfl
      | some t => exact absurd (List.mem_map_of_mem (mem_sortedEntries (e := (id, t)).mpr hlookup)) hnone
  unfold encodeTasks decodeTasks
  dsimp only
  rw [foldlM_insertDecoded hinRange, hsame]
  rfl

theorem membersWithin_map {entries : List (String × StoredTask)} {n : Nat} (h : 2 ≤ n) :
    MembersWithin n (entries.map fun e => (e.1, taskType.encode (ofTask e.2))) := by
  induction entries with
  | nil => trivial
  | cons e entries ih => exact ⟨taskType.within_encode _ h, ih⟩

theorem restored_of_inRange (hrange : ∀ t ∈ values tasks, InRange t) : Restored tasks := by
  intro h htasks
  have hwithin : (encodeTasks (some tasks)).Within maxNestingDepth :=
    ⟨by decide, membersWithin_map (by decide)⟩
  have htext : decodeRunes (contentOf (some tasks)) = (encodeTasks (some tasks)).render 0 :=
    decodeRunes_encodeRunes _
  have hload : unmarshalTasks ((encodeTasks (some tasks)).render 0) = some (some tasks) := by
    unfold unmarshalTasks
    rw [parse_render hwithin, Option.bind_some, decode_encode_tasks hrange]
  have hbrace : ((encodeTasks (some tasks)).render 0).head? = some '\x7b' := by
    unfold encodeTasks
    dsimp only
    cases (sortedEntries tasks).map fun e => (e.1, taskType.encode (ofTask e.2)) <;> rfl
  have hblank : ((encodeTasks (some tasks)).render 0).all isSpace = false := by
    rw [List.all_eq_false]
    exact ⟨'\x7b', List.mem_of_head? hbrace, by decide⟩
  refine ⟨contentOf (some tasks), ?_, ?_⟩
  · unfold persistProvisionTasksLocked quiet
    rw [htasks]
    rfl
  · simp only [started, loadProvisionTasks, htext, hblank, hload, Bool.false_eq_true, if_false]

theorem tasks_persist (disk : Disk) : (persistProvisionTasksLocked h disk).tasks = h.tasks := by
  unfold persistProvisionTasksLocked
  dsimp only
  split
  · rfl
  · split
    · rfl
    · split <;> rfl

/-- On a map that is not nil nothing panics, and none becomes nil. -/
theorem run_made (op : Op) (hmade : h.tasks.isSome = true) :
    ∃ next, op.run h = .ok next ∧ next.tasks.isSome = true := by
  obtain ⟨made, hmade⟩ := Option.isSome_iff_exists.mp hmade
  cases op with
  | set now disk t =>
    simp only [Op.run, setProvisionTask, hmade]
    exact ⟨_, rfl, by rw [tasks_persist]; rfl⟩
  | list => exact ⟨h, rfl, by rw [hmade]; rfl⟩
  | delete disk taskID =>
    refine ⟨_, rfl, ?_⟩
    unfold deleteTask
    rw [hmade]
    split
    · rw [hmade]
      rfl
    · rw [tasks_persist]
      rfl

theorem runs_made (ops : List Op) (hmade : h.tasks.isSome = true) :
    ∃ last, ops.foldlM Op.run h = .ok last := by
  induction ops generalizing h with
  | nil => exact ⟨h, rfl⟩
  | cons op ops ih =>
    obtain ⟨next, hnext, hmade⟩ := run_made op hmade
    rw [List.foldlM_cons, hnext]
    exact ih hmade

theorem decodeTasks_nil {v : Value} (h : decodeTasks v = some none) : v = .null := by
  cases v with
  | null => rfl
  | object members =>
    obtain ⟨made, -, hnone⟩ := Option.map_eq_some_iff.mp h
    cases hnone
  | _ => cases h

/-- The map is nil after the load exactly when the file says so. -/
theorem started_nil_iff : (started content).tasks = none ↔ SaysNull content := by
  unfold SaysNull
  rw [← parse_null_iff]
  constructor
  · intro hnone
    simp only [started, loadProvisionTasks] at hnone
    split at hnone
    · cases hnone
    · split at hnone
      · cases hnone
      next tasks htasks =>
        cases hnone
        obtain ⟨v, hv, hdecode⟩ := Option.bind_eq_some_iff.mp htasks
        rw [hv, decodeTasks_nil hdecode]
  · intro hnull
    have hblank : (decodeRunes content).all isSpace = false := by
      obtain ⟨before, after, htext, -⟩ := parse_null_iff.mp hnull
      rw [htext, List.all_eq_false]
      exact ⟨'n', by simp, by decide⟩
    have hload : unmarshalTasks (decodeRunes content) = some none := by
      unfold unmarshalTasks
      rw [hnull]
      rfl
    simp only [started, loadProvisionTasks, hblank, hload, Bool.false_eq_true, if_false]

theorem safe_iff : Safe content ↔ ¬ SaysNull content := by
  rw [← started_nil_iff, ← ne_eq, Option.ne_none_iff_isSome]
  constructor
  · intro hsafe
    by_contra hnil
    rw [Bool.not_eq_true, Option.isSome_eq_false_iff, Option.isNone_iff_eq_none] at hnil
    obtain ⟨last, hlast⟩ := hsafe [.set 0 quiet ⟨"", "", "", 0, "", "", "", "", "", [], "", 0, 0⟩]
    rw [List.foldlM_cons] at hlast
    simp only [Op.run, setProvisionTask, hnil] at hlast
    cases hlast
  · exact fun hmade ops => runs_made ops hmade

end

/-- The tasks that were written are loaded, and the server runs on, exactly if the file does
not say `null`. -/
theorem task_file_safe_iff (tasks : Map String StoredTask)
    (hrange : ∀ t ∈ values tasks, InRange t) (content : List UInt8) :
    (Restored tasks ∧ Safe content) ↔ ¬ SaysNull content := by
  rw [and_iff_right (restored_of_inRange hrange), safe_iff]

def oneTask : StoredTask :=
  ⟨"task-1", "provision.single", "success", 100, "", "", "", "p1", "c1", ["n1"], "", 7, 9⟩

def oneTasks : Map String StoredTask := Finmap.insert "task-1" oneTask ∅

theorem oneTasks_inRange : ∀ t ∈ values oneTasks, InRange t := by
  intro t ht
  obtain ⟨id, hid⟩ := mem_values.mp ht
  unfold oneTasks at hid
  by_cases heq : id = "task-1"
  · rw [heq, Finmap.lookup_insert] at hid
    cases hid
    exact ⟨by decide, by decide, by decide⟩
  · rw [Finmap.lookup_insert_of_ne _ heq, Finmap.lookup_empty] at hid
    cases hid

theorem task_file_safe_oneTasks :
    (Restored oneTasks ∧ Safe (contentOf (some oneTasks))) ↔ ¬ SaysNull (contentOf (some oneTasks)) :=
  task_file_safe_iff oneTasks oneTasks_inRange (contentOf (some oneTasks))

/-- After a file with `null` the first task that is set panics. -/
theorem null_panics : ¬ Safe (encodeRunes "null".toList) := by
  rw [safe_iff, not_not]
  exact ⟨[], [], decodeRunes_encodeRunes _, List.forall_mem_nil _⟩

end LearnPg.Api.TaskFile
