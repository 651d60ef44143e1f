import LearnPg.Api.Provision
import LearnPg.Api.WalEndpoint
import LearnPg.Basis.Maps
import LearnPg.Basis.Sorts
import Mathlib.Data.String.Basic

/-! The two endpoints that list the tasks. Each loops over a map, whose order is not known,
and sorts what it keeps. -/
namespace LearnPg.Api.TaskLists
open LearnPg.Basis LearnPg.Basis.Maps LearnPg.Basis.Sorts

/-- A task as the server's map and its file hold it. -/
structure StoredTask where
  taskID : String
  taskType : String
  status : String
  progress : Int
  message : String
  result : String
  logs : String
  projectID : String
  clusterID : String
  nodeIDs : List String
  error : String
  startedAt : Int
  finishedAt : Int
  deriving DecidableEq

abbrev Summary := String → Option Nat

def newSummary : Summary :=
  fun key => if key ∈ ["all", "running", "success", "failed"] then some 0 else none

def Summary.add (summary : Summary) (key : String) : Summary :=
  fun k => if k = key then (summary k).map (· + 1) else summary k

def passesStatus (statusFilter : String) (t : StoredTask) : Bool :=
  !(statusFilter ≠ "" ∧ statusFilter ≠ "all" ∧ t.status ≠ statusFilter)

def passesType (taskTypeFilter : String) (t : StoredTask) : Bool :=
  !(taskTypeFilter ≠ "" ∧ t.taskType ≠ taskTypeFilter)

def startedLater (x y : StoredTask) : Bool :=
  if x.startedAt = y.startedAt then decide (x.taskID > y.taskID)
  else decide (x.startedAt > y.startedAt)

def cutTo (limit : Int) (items : List StoredTask) : List StoredTask :=
  if limit > 0 ∧ (items.length : Int) > limit then items.take limit.toNat else items

/-- One round of the loop of `listProvisionTasks`. -/
def listRound (statusFilter : String) (acc : List StoredTask × Summary) (t : StoredTask) :
    List StoredTask × Summary :=
  let summary := (acc.2.add "all").add t.status
  if passesStatus statusFilter t then (acc.1 ++ [t], summary) else (acc.1, summary)

/-- `visited` is the order in which the loop comes upon the tasks. -/
def listProvisionTasks (σ : LessSort startedLater) (visited : List StoredTask) (limit : Int)
    (statusFilter : String) : List StoredTask × Summary :=
  let listed := visited.foldl (listRound statusFilter) ([], newSummary)
  (cutTo limit (σ.sort listed.1), listed.2)

/-- The parameters of a listing; one that is absent reads as the empty text. -/
structure TaskQuery where
  limit : String
  status : String
  taskType : String

def queryLimit (raw : String) (default : Int) : Int :=
  let raw := trimSpace raw
  if raw ≠ "" then
    match atoi raw with
    | some n => if n > 0 ∧ n ≤ 200 then n else default
    | none => default
  else default

structure TaskListing where
  tasks : List StoredTask
  count : Nat

structure ProvisionListing where
  tasks : List StoredTask
  count : Nat
  summary : Summary

section

variable (lower : String → String) (σ : LessSort startedLater) (visited : List StoredTask)
  (method : String) (q : TaskQuery)

/-- `lower` stands for `strings.ToLower`. -/
def TaskQuery.statusFilter : String := lower (trimSpace q.status)

def serveTaskList : Except ApiError TaskListing :=
  if method ≠ "GET" then .error ⟨405, "GET required"⟩
  else
    let limit := queryLimit q.limit 50
    let taskTypeFilter := trimSpace q.taskType
    let items := visited.filter fun t =>
      passesStatus (q.statusFilter lower) t && passesType taskTypeFilter t
    let items := cutTo limit (σ.sort items)
    .ok ⟨items, items.length⟩

def serveProvisionTasks : Except ApiError ProvisionListing :=
  if method ≠ "GET" then .error ⟨405, "GET required"⟩
  else
    let limit := queryLimit q.limit 20
    let listed := listProvisionTasks σ visited limit (q.statusFilter lower)
    .ok ⟨listed.1, listed.1.length, listed.2⟩

end

def Visits (tasks : Map String StoredTask) (visited : List StoredTask) : Prop :=
  (visited : Multiset StoredTask) = values tasks

def Keyed (tasks : Map String StoredTask) : Prop :=
  ∀ id t, tasks.lookup id = some t → t.taskID = id

def Newer (x y : StoredTask) : Prop :=
  y.startedAt < x.startedAt ∨ y.startedAt = x.startedAt ∧ y.taskID < x.taskID

/-- The request asks for the tasks that pass the filter, cut to `limit`, of every type. -/
structure Asks (lower : String → String) (q : TaskQuery) (limit : Int) (statusFilter : String) :
    Prop where
  limit : atoi (trimSpace q.limit) = some limit
  status : q.statusFilter lower = statusFilter
  taskType : trimSpace q.taskType = ""

def counted : List String := ["running", "success", "failed"]

/-- What the listings of a map are to be, in whatever order their loops come upon its tasks. -/
structure Agreement (lower : String → String) (tasks : Map String StoredTask) (limit : Int)
    (statusFilter : String) : Prop where
  order : ∀ σ τ visited visited', Visits tasks visited → Visits tasks visited' →
    listProvisionTasks σ visited limit statusFilter =
      listProvisionTasks τ visited' limit statusFilter
  agree : ∀ σ τ visited visited' q, Visits tasks visited → Visits tasks visited' →
    Asks lower q limit statusFilter →
      let listed := listProvisionTasks σ visited limit statusFilter
      serveTaskList lower τ visited' "GET" q = .ok ⟨listed.1, listed.1.length⟩ ∧
        serveProvisionTasks lower τ visited' "GET" q = .ok ⟨listed.1, listed.1.length, listed.2⟩
  sorted : ∀ σ visited, Visits tasks visited →
    (listProvisionTasks σ visited limit statusFilter).1.Pairwise Newer
  cut : ∀ σ visited, Visits tasks visited →
    (listProvisionTasks σ visited limit statusFilter).1 <+:
      (listProvisionTasks σ visited 0 statusFilter).1
  summary : (∀ t ∈ values tasks, t.status ∈ counted) → ∀ σ visited, Visits tasks visited →
    (listProvisionTasks σ visited limit statusFilter).2 "all" = some (len tasks) ∧
      ∀ status ∈ counted, (listProvisionTasks σ visited limit statusFilter).2 status =
        some ((values tasks).countP (·.status = status))

section

variable {tasks : Map String StoredTask} {visited visited' : List StoredTask}
  {statusFilter : String} {limit : Int} {x y : StoredTask}

theorem startedLater_iff : startedLater x y = true ↔ Newer x y := by
  unfold startedLater Newer
  split
  next h => simp [h]
  next h =>
    simp [Ne.symm h]

theorem listRound_fst (acc : List StoredTask × Summary) :
    (visited.foldl (listRound statusFilter) acc).1 =
      acc.1 ++ visited.filter (passesStatus statusFilter) := by
  induction visited generalizing acc with
  | nil => simp
  | cons t visited ih =>
    rw [List.foldl_cons, ih, listRound]
    by_cases h : passesStatus statusFilter t = true <;> simp [h]

theorem add_apply (summary : Summary) (k key : String) :
    summary.add k key = (summary key).map (· + if key = k then 1 else 0) := by
  unfold Summary.add
  by_cases h : key = k <;> simp [h]

theorem listRound_snd (acc : List StoredTask × Summary) (key : String) :
    (visited.foldl (listRound statusFilter) acc).2 key = (acc.2 key).map
      (· + (visited.countP (·.status = key) + if key = "all" then visited.length else 0)) := by
  induction visited generalizing acc with
  | nil => simp
  | cons t visited ih =>
    have hround : (listRound statusFilter acc t).2 = (acc.2.add "all").add t.status := by
      unfold listRound
      split <;> rfl
    rw [List.foldl_cons, ih, hround, add_apply, add_apply, Option.map_map, Option.map_map]
    congr 1
    funext n
    simp only [Function.comp_apply, List.countP_cons, List.length_cons, decide_eq_true_eq,
      eq_comm (a := t.status)]
    split <;> split <;> omega

theorem listProvisionTasks_fst (σ : LessSort startedLater) :
    (listProvisionTasks σ visited limit statusFilter).1 =
      cutTo limit (σ.sort (visited.filter (passesStatus statusFilter))) := by
  simp [listProvisionTasks, listRound_fst]

theorem listProvisionTasks_snd (σ : LessSort startedLater) (key : String) :
    (listProvisionTasks σ visited limit statusFilter).2 key = (newSummary key).map
      (· + (visited.countP (·.status = key) + if key = "all" then visited.length else 0)) :=
  listRound_snd _ _

theorem prefix_cutTo (items : List StoredTask) : cutTo limit items <+: items := by
  unfold cutTo
  split
  · exact List.take_prefix _ _
  · exact List.prefix_rfl

theorem Keyed.unique (h : Keyed tasks) (hx : x ∈ values tasks) (hy : y ∈ values tasks)
    (hid : x.taskID = y.taskID) : x = y := by
  obtain ⟨k, hx⟩ := mem_values.mp hx
  obtain ⟨k', hy⟩ := mem_values.mp hy
  have hk := h k x hx
  have hk' := h k' y hy
  rw [← hk', ← hid, hk, hx] at hy
  exact Option.some_inj.mp hy

theorem Visits.mem (hv : Visits tasks visited) : x ∈ visited ↔ x ∈ values tasks := by
  rw [← Multiset.mem_coe, hv]

theorem Visits.perm (hv : Visits tasks visited) (hv' : Visits tasks visited') :
    visited.Perm visited' :=
  Multiset.coe_eq_coe.mp (hv.trans hv'.symm)

theorem Keyed.told (h : Keyed tasks) (hv : Visits tasks visited) :
    Told startedLater (visited.filter (passesStatus statusFilter)) := by
  intro x hx y hy hxy hyx
  have hx := hv.mem.mp (List.mem_of_mem_filter hx)
  have hy := hv.mem.mp (List.mem_of_mem_filter hy)
  rw [← Bool.not_eq_true, startedLater_iff] at hxy hyx
  unfold Newer at hxy hyx
  push Not at hxy hyx
  have hstarted := le_antisymm hyx.1 hxy.1
  exact h.unique hx hy (le_antisymm (hxy.2 hstarted) (hyx.2 hstarted.symm))

theorem Keyed.nodup (h : Keyed tasks) (hv : Visits tasks visited) : visited.Nodup := by
  rw [← Multiset.coe_nodup, hv]
  refine Multiset.Nodup.map_on ?_ ?_ (s := tasks.entries)
  · rintro ⟨k, x⟩ hx ⟨k', y⟩ hy (rfl : x = y)
    rw [← h k x (mem_entries.mp hx), ← h k' x (mem_entries.mp hy)]
  · exact tasks.nodup_entries

/-- Every task is counted once under its own status. -/
theorem counts_of_counted (σ : LessSort startedLater) (hv : Visits tasks visited)
    (hstatus : ∀ t ∈ values tasks, t.status ∈ counted) :
    (listProvisionTasks σ visited limit statusFilter).2 "all" = some (len tasks) ∧
      ∀ status ∈ counted, (listProvisionTasks σ visited limit statusFilter).2 status =
        some ((values tasks).countP (·.status = status)) := by
  constructor
  · have hall : visited.countP (·.status = "all") = 0 := by
      rw [List.countP_eq_zero]
      intro t ht heq
      have hcounted := hstatus t (hv.mem.mp ht)
      rw [of_decide_eq_true heq] at hcounted
      revert hcounted
      decide
    rw [listProvisionTasks_snd, hall, ← card_values, ← hv]
    simp [newSummary]
  · intro status hmem
    rw [listProvisionTasks_snd, ← hv, Multiset.coe_countP]
    have hnew : newSummary status = some 0 ∧ status ≠ "all" := by
      revert status
      decide
    simp [hnew.1, hnew.2]

theorem queryLimit_eq {raw : String} (hraw : atoi (trimSpace raw) = some limit)
    (hlimit : 1 ≤ limit ∧ limit ≤ 200) (default : Int) : queryLimit raw default = limit := by
  have hne : trimSpace raw ≠ "" := by
    intro hempty
    rw [hempty] at hraw
    cases hraw
  have hpos : limit > 0 ∧ limit ≤ 200 := by omega
  simp [queryLimit, hne, hraw, hpos]

theorem serveTaskList_eq {lower : String → String} (σ : LessSort startedLater) {q : TaskQuery}
    (hq : Asks lower q limit statusFilter) (hlimit : 1 ≤ limit ∧ limit ≤ 200) :
    serveTaskList lower σ visited "GET" q =
      .ok ⟨(listProvisionTasks σ visited limit statusFilter).1,
        (listProvisionTasks σ visited limit statusFilter).1.length⟩ := by
  rw [listProvisionTasks_fst]
  simp [serveTaskList, queryLimit_eq hq.limit hlimit, hq.status, hq.taskType, passesType]

theorem serveProvisionTasks_eq {lower : String → String} (σ : LessSort startedLater)
    {q : TaskQuery} (hq : Asks lower q limit statusFilter) (hlimit : 1 ≤ limit ∧ limit ≤ 200) :
    serveProvisionTasks lower σ visited "GET" q =
      .ok ⟨(listProvisionTasks σ visited limit statusFilter).1,
        (listProvisionTasks σ visited limit statusFilter).1.length,
        (listProvisionTasks σ visited limit statusFilter).2⟩ := by
  simp [serveProvisionTasks, queryLimit_eq hq.limit hlimit, hq.status]

theorem listed_sorted (σ : LessSort startedLater) (hkeys : Keyed tasks)
    (hv : Visits tasks visited) :
    (listProvisionTasks σ visited limit statusFilter).1.Pairwise Newer := by
  rw [listProvisionTasks_fst]
  have hsorted := σ.strictly_sorted ((hkeys.nodup hv).filter (passesStatus statusFilter))
    (hkeys.told hv)
  exact (hsorted.imp startedLater_iff.mp).sublist (prefix_cutTo _).sublist

theorem listed_eq (σ τ : LessSort startedLater) (hkeys : Keyed tasks) (hv : Visits tasks visited)
    (hv' : Visits tasks visited') : listProvisionTasks σ visited limit statusFilter =
      listProvisionTasks τ visited' limit statusFilter := by
  have hperm := hv.perm hv'
  ext
  · rw [listProvisionTasks_fst, listProvisionTasks_fst,
      σ.sort_eq τ (hperm.filter _) (hkeys.told hv)]
  · rw [listProvisionTasks_snd, listProvisionTasks_snd, hperm.countP_eq, hperm.length_eq]

end

/-- The listings of a map agree, and do not depend on the order of its tasks. -/
theorem listings_agree (lower : String → String) (tasks : Map String StoredTask)
    (hkeys : Keyed tasks) (limit : Int) (hlimit : 1 ≤ limit ∧ limit ≤ 200)
    (statusFilter : String) : Agreement lower tasks limit statusFilter := by
  constructor
  · intro σ τ visited visited' hv hv'
    exact listed_eq σ τ hkeys hv hv'
  · intro σ τ visited visited' q hv hv' hq
    rw [listed_eq σ τ hkeys hv hv', serveTaskList_eq τ hq hlimit,
      serveProvisionTasks_eq τ hq hlimit]
    exact ⟨rfl, rfl⟩
  · intro σ visited hv
    exact listed_sorted σ hkeys hv
  · intro σ visited hv
    rw [listProvisionTasks_fst, listProvisionTasks_fst]
    exact prefix_cutTo _
  · intro hstatus σ visited hv
    exact counts_of_counted σ hv hstatus

def taskAt (taskID status : String) (startedAt : Int) : StoredTask :=
  ⟨taskID, "", status, 5, "", "", "", "p", "", [], "", startedAt, 0⟩

def threeTasks : Map String StoredTask :=
  ((Finmap.singleton "task-1" (taskAt "task-1" "success" 1600000000000)).insert "task-2"
    (taskAt "task-2" "running" 1700000000000)).insert "task-3"
      (taskAt "task-3" "running" 1700000000000)

theorem keyed_threeTasks : Keyed threeTasks := by
  intro id t hlookup
  have hmem : id ∈ threeTasks.keys := Finmap.mem_keys.mpr (Finmap.mem_of_lookup_eq_some hlookup)
  have hall : ∀ id ∈ threeTasks.keys, (threeTasks.lookup id).map (·.taskID) = some id := by decide
  have hid := hall id hmem
  rw [hlookup] at hid
  exact Option.some_inj.mp hid

theorem newer_total (x y : StoredTask) : startedLater x y = false ∨ startedLater y x = false := by
  simp only [← Bool.not_eq_true, startedLater_iff, Newer]
  by_contra h
  push Not at h
  rcases h with ⟨hlt | ⟨heq, hid⟩, hlt' | ⟨heq', hid'⟩⟩
  · exact lt_asymm hlt hlt'
  · exact hlt.ne heq'.symm
  · exact hlt'.ne heq.symm
  · exact lt_asymm hid hid'

theorem newer_trans (x y z : StoredTask) (hxy : startedLater y x = false)
    (hyz : startedLater z y = false) : startedLater z x = false := by
  simp only [← Bool.not_eq_true, startedLater_iff, Newer] at *
  push Not at *
  refine ⟨hyz.1.trans hxy.1, fun heq => ?_⟩
  have hsame : x.startedAt = y.startedAt := le_antisymm (heq ▸ hyz.1) hxy.1
  exact (hyz.2 (heq.symm.trans hsame).symm).trans (hxy.2 hsame)

def newestFirst : LessSort startedLater := insertionLess newer_total newer_trans

theorem listings_agree_threeTasks : Agreement toLower threeTasks 1 "running" ∧
    ∀ σ visited, Visits threeTasks visited →
      (listProvisionTasks σ visited 1 "running").1 = [taskAt "task-3" "running" 1700000000000] := by
  have hagree := listings_agree toLower threeTasks keyed_threeTasks 1 (by decide) "running"
  refine ⟨hagree, fun σ visited hv => ?_⟩
  have hvisits : Visits threeTasks [taskAt "task-1" "success" 1600000000000,
      taskAt "task-2" "running" 1700000000000, taskAt "task-3" "running" 1700000000000] := by
    unfold Visits
    decide
  rw [hagree.order σ newestFirst visited _ hv hvisits]
  decide

end LearnPg.Api.TaskLists
