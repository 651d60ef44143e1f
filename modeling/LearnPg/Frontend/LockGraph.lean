import Mathlib.Logic.Relation
import LearnPg.Basis.CycleSearch

/-! The lock graph of the frontend, and what its search for deadlocks finds in it. -/
namespace LearnPg.Frontend
open LearnPg.Basis

/-! The snapshot's rows, with the columns the graph is built from. -/

structure BackendRow where
  pid : Option String
deriving DecidableEq, Repr

structure LockRow where
  locktype : Option String
  relation : Option String
  virtualxid : Option String
  transactionid : Option String
  mode : Option String
  granted : Option String
  pid : Option String
deriving DecidableEq, Repr

inductive LockNodeType where
  | backend | lock
deriving DecidableEq, Repr

/-- A node; its numeric `pid` is kept as its numeral. -/
structure LockNode where
  id : String
  pid : String
  label : String
  type : LockNodeType
deriving DecidableEq, Repr

structure LockEdge where
  source : String
  target : String
  waitTimeUs : Nat
  mode : String
deriving DecidableEq, Repr

/-- `a || b`, where the empty text counts as absent. -/
def orElse (a : Option String) (b : String) : String :=
  match a with
  | none => b
  | some text => if text = "" then b else text

/-- The graph under construction. Later entries of a map come first and hide earlier ones. -/
structure LockGraph where
  nodes : List LockNode
  edges : List LockEdge
  lockNodeByKey : List (String × LockNode)

section
variable (numeral : String → String)

/-- `numeral` is `String(Number(text))`. -/
def backendNode (b : BackendRow) : LockNode where
  id := "pid-" ++ numeral (b.pid.getD "0")
  pid := numeral (b.pid.getD "0")
  label := "PID " ++ numeral (b.pid.getD "0")
  type := .backend

def backendByPID (backends : List BackendRow) : List (String × LockNode) :=
  backends.foldl (fun byPID b => (numeral (b.pid.getD "0"), backendNode numeral b) :: byPID) []

def lockKey (l : LockRow) : String :=
  "|".intercalate [l.locktype.getD "", l.relation.getD "", l.virtualxid.getD "",
    l.transactionid.getD "", l.mode.getD ""]

def newLockNode (l : LockRow) (count : Nat) : LockNode where
  id := "lock-" ++ toString (count + 1)
  pid := "0"
  label := l.locktype.getD "lock" ++ ":" ++
    orElse l.relation (orElse l.transactionid (orElse l.virtualxid "-"))
  type := .lock

/-- The node of the row's lock is made when the lock is first met. -/
def addLockNode (g : LockGraph) (l : LockRow) : LockGraph :=
  if (g.lockNodeByKey.lookup (lockKey l)).isSome then g
  else
    let node := newLockNode l g.lockNodeByKey.length
    { g with
      nodes := g.nodes ++ [node]
      lockNodeByKey := (lockKey l, node) :: g.lockNodeByKey }

/-- One row of the loop over the locks. -/
def addLock (byPID : List (String × LockNode)) (g : LockGraph) (l : LockRow) : LockGraph :=
  let g := addLockNode g l
  match byPID.lookup (l.pid.getD ""), g.lockNodeByKey.lookup (lockKey l) with
  | some backend, some lock =>
    { g with
      edges := g.edges ++ [{
        source := backend.id
        target := lock.id
        waitTimeUs := if l.granted = some "false" then 100000 else 0
        mode := l.mode.getD "unknown" }] }
  | _, _ => g

def buildLockGraphFromSnapshot (backends : List BackendRow) (locks : List LockRow) :
    List LockNode × List LockEdge :=
  let g := locks.foldl (addLock (backendByPID numeral backends))
    ⟨backends.map (backendNode numeral), [], []⟩
  (g.nodes, g.edges)

end

/-- The map of adjacent vertices: a link whose source is no node is dropped. -/
def adjacent (nodes : List LockNode) (links : List LockEdge) (id : String) : List String :=
  if id ∈ nodes.map LockNode.id then
    (links.filter fun l => l.source = id).map LockEdge.target
  else []

/-- `detectCycle`; there are no more vertices than nodes and links. -/
def detectCycle (nodes : List LockNode) (links : List LockEdge) : List (List String) :=
  (CycleSearch.detect (adjacent nodes links) (nodes.length + links.length + 1)
    (nodes.map LockNode.id)).getD []

theorem mem_adjacent {nodes : List LockNode} {links : List LockEdge} {id next : String}
    (h : next ∈ adjacent nodes links id) : ∃ l ∈ links, l.source = id ∧ l.target = next := by
  rw [adjacent] at h
  split at h
  · obtain ⟨l, hl, rfl⟩ := List.mem_map.mp h
    obtain ⟨hmem, hsource⟩ := List.mem_filter.mp hl
    exact ⟨l, hmem, of_decide_eq_true hsource, rfl⟩
  · cases h

def vertices (nodes : List LockNode) (links : List LockEdge) : Finset String :=
  (nodes.map LockNode.id ++ links.map LockEdge.target).toFinset

theorem vertices_card (nodes : List LockNode) (links : List LockEdge) :
    (vertices nodes links).card < nodes.length + links.length + 1 := by
  have h := List.toFinset_card_le (nodes.map LockNode.id ++ links.map LockEdge.target)
  rw [List.length_append, List.length_map, List.length_map] at h
  exact Nat.lt_succ_of_le h

theorem adjacent_vertices (nodes : List LockNode) (links : List LockEdge) (id : String) :
    ∀ next ∈ adjacent nodes links id, next ∈ vertices nodes links := by
  intro next hnext
  obtain ⟨l, hl, -, rfl⟩ := mem_adjacent hnext
  exact List.mem_toFinset.mpr (List.mem_append_right _ (List.mem_map_of_mem hl))

theorem nodes_vertices (nodes : List LockNode) (links : List LockEdge) :
    ∀ id ∈ nodes.map LockNode.id, id ∈ vertices nodes links :=
  fun _ hid => List.mem_toFinset.mpr (List.mem_append_left _ hid)

/-- On every graph the search ends within its fuel, and what it reports are cycles. -/
theorem detectCycle_spec (nodes : List LockNode) (links : List LockEdge) :
    CycleSearch.detect (adjacent nodes links) (nodes.length + links.length + 1)
      (nodes.map LockNode.id) = some (detectCycle nodes links) ∧
      ∀ c ∈ detectCycle nodes links, CycleSearch.IsCycle (adjacent nodes links) c := by
  obtain ⟨cycles, h⟩ := CycleSearch.detect_total (adjacent_vertices nodes links)
    (nodes_vertices nodes links) (vertices_card nodes links)
  rw [detectCycle, h]
  exact ⟨rfl, CycleSearch.detect_sound h⟩

/-! Edges lead from backends to locks only. -/

def IsBackendId (id : String) : Prop := ∃ text, id = "pid-" ++ text
def IsLockId (id : String) : Prop := ∃ text, id = "lock-" ++ text

theorem not_lock_of_backend {id : String} (hb : IsBackendId id) (hl : IsLockId id) : False := by
  obtain ⟨a, rfl⟩ := hb
  obtain ⟨b, hb⟩ := hl
  have hchars := congrArg String.toList hb
  simp only [String.toList_append] at hchars
  have hhead := congrArg List.head? hchars
  simp at hhead

structure Layered (g : LockGraph) : Prop where
  edges : ∀ e ∈ g.edges, IsBackendId e.source ∧ IsLockId e.target
  locks : ∀ entry ∈ g.lockNodeByKey, IsLockId entry.2.id

theorem mem_of_lookup {β : Type} {key : String} {value : β} {entries : List (String × β)}
    (h : entries.lookup key = some value) : (key, value) ∈ entries := by
  obtain ⟨before, after, rfl, -⟩ := List.lookup_eq_some_iff.mp h
  exact List.mem_append_right _ List.mem_cons_self

theorem backendByPID_ids (numeral : String → String) (backends : List BackendRow) :
    ∀ entry ∈ backendByPID numeral backends, IsBackendId entry.2.id := by
  suffices h : ∀ byPID : List (String × LockNode), (∀ entry ∈ byPID, IsBackendId entry.2.id) →
      ∀ entry ∈ backends.foldl
        (fun byPID b => (numeral (b.pid.getD "0"), backendNode numeral b) :: byPID) byPID,
        IsBackendId entry.2.id from h [] (List.forall_mem_nil _)
  induction backends with
  | nil => exact fun byPID h => h
  | cons b backends ih =>
    intro byPID h
    exact ih _ (List.forall_mem_cons.mpr ⟨⟨_, rfl⟩, h⟩)

theorem addLockNode_layered {g : LockGraph} (l : LockRow) (h : Layered g) :
    Layered (addLockNode g l) := by
  rw [addLockNode]
  split
  · exact h
  · exact ⟨h.edges, List.forall_mem_cons.mpr ⟨⟨_, rfl⟩, h.locks⟩⟩

theorem addLock_layered {byPID : List (String × LockNode)} {g : LockGraph} (l : LockRow)
    (hbackends : ∀ entry ∈ byPID, IsBackendId entry.2.id) (h : Layered g) :
    Layered (addLock byPID g l) := by
  have hnode := addLockNode_layered l h
  rw [addLock]
  split
  case h_1 backend lock hb hl =>
    refine ⟨List.forall_mem_append.mpr ⟨hnode.edges, List.forall_mem_singleton.mpr ⟨?_, ?_⟩⟩,
      hnode.locks⟩
    · exact hbackends _ (mem_of_lookup hb)
    · exact hnode.locks _ (mem_of_lookup hl)
  case h_2 => exact hnode

theorem buildLockGraph_edges (numeral : String → String) (backends : List BackendRow)
    (locks : List LockRow) :
    ∀ e ∈ (buildLockGraphFromSnapshot numeral backends locks).2,
      IsBackendId e.source ∧ IsLockId e.target := by
  suffices h : ∀ g, Layered g →
      Layered (locks.foldl (addLock (backendByPID numeral backends)) g) from
    (h _ ⟨List.forall_mem_nil _, List.forall_mem_nil _⟩).edges
  induction locks with
  | nil => exact fun g h => h
  | cons l locks ih =>
    exact fun g h => ih _ (addLock_layered l (backendByPID_ids numeral backends) h)

/-- The search finds nothing in any snapshot's graph. -/
theorem detectCycle_snapshot (numeral : String → String) (backends : List BackendRow)
    (locks : List LockRow) :
    detectCycle (buildLockGraphFromSnapshot numeral backends locks).1
      (buildLockGraphFromSnapshot numeral backends locks).2 = [] := by
  rw [detectCycle, CycleSearch.detect_eq_nil (adjacent_vertices _ _) (nodes_vertices _ _)
    (vertices_card _ _)]
  · rfl
  · intro a b hb
    obtain ⟨l, hl, -, rfl⟩ := mem_adjacent hb
    rw [List.eq_nil_iff_forall_not_mem]
    intro next hnext
    obtain ⟨l', hl', hsource, -⟩ := mem_adjacent hnext
    apply not_lock_of_backend (buildLockGraph_edges numeral backends locks l' hl').1
    rw [hsource]
    exact (buildLockGraph_edges numeral backends locks l hl).2

/-! Waiting, as the rows tell it. -/

def LockRow.object (l : LockRow) : Option String × Option String × Option String × Option String :=
  (l.locktype, l.relation, l.virtualxid, l.transactionid)

/-- A backend waits for another that was granted the same lock in a conflicting mode. -/
def WaitsFor (conflicts : Option String → Option String → Prop) (backends : List BackendRow)
    (locks : List LockRow) (waiter holder : BackendRow) : Prop :=
  waiter ∈ backends ∧ holder ∈ backends ∧ waiter ≠ holder ∧
    ∃ wanted ∈ locks, ∃ held ∈ locks, wanted.pid = waiter.pid ∧ held.pid = holder.pid ∧
      wanted.granted = some "false" ∧ held.granted = some "true" ∧
      wanted.object = held.object ∧ conflicts wanted.mode held.mode

/-- Backends wait for each other in a circle. -/
def Deadlocked (conflicts : Option String → Option String → Prop) (backends : List BackendRow)
    (locks : List LockRow) : Prop :=
  ∃ b, Relation.TransGen (WaitsFor conflicts backends locks) b b

/-- A deadlock is never shown: it is visible only in snapshots that have none. -/
theorem deadlock_visible_iff (numeral : String → String)
    (conflicts : Option String → Option String → Prop) (backends : List BackendRow)
    (locks : List LockRow) :
    (Deadlocked conflicts backends locks →
      detectCycle (buildLockGraphFromSnapshot numeral backends locks).1
        (buildLockGraphFromSnapshot numeral backends locks).2 ≠ []) ↔
      ¬ Deadlocked conflicts backends locks := by
  rw [detectCycle_snapshot]
  exact ⟨fun h hdead => h hdead rfl, fun h hdead => absurd hdead h⟩

def relationLock (oid pid granted : String) : LockRow where
  locktype := some "relation"
  relation := some oid
  virtualxid := some ""
  transactionid := some ""
  mode := some "AccessExclusiveLock"
  granted := some granted
  pid := some pid

def circleBackends : List BackendRow := [⟨some "10"⟩, ⟨some "20"⟩]

/-- Each of two backends holds a lock that the other waits for. -/
def circleLocks : List LockRow :=
  [relationLock "16384" "10" "true", relationLock "16385" "10" "false",
    relationLock "16385" "20" "true", relationLock "16384" "20" "false"]

theorem circle_not_visible :
    Deadlocked (fun a b => a = some "AccessExclusiveLock" ∨ b = some "AccessExclusiveLock")
      circleBackends circleLocks ∧
    detectCycle (buildLockGraphFromSnapshot id circleBackends circleLocks).1
      (buildLockGraphFromSnapshot id circleBackends circleLocks).2 = [] := by
  refine ⟨⟨⟨some "10"⟩, .tail (.single (b := ⟨some "20"⟩) ?_) ?_⟩, detectCycle_snapshot _ _ _⟩
  · refine ⟨by decide, by decide, by decide, relationLock "16385" "10" "false", by decide,
      relationLock "16385" "20" "true", by decide, rfl, rfl, rfl, rfl, rfl, .inl rfl⟩
  · refine ⟨by decide, by decide, by decide, relationLock "16384" "20" "false", by decide,
      relationLock "16384" "10" "true", by decide, rfl, rfl, rfl, rfl, rfl, .inl rfl⟩

end LearnPg.Frontend
