import LearnPg.Basis.CycleReports
import LearnPg.Frontend.LockGraph

/-! Which cycles the lock graph's view shows, and how often. -/
namespace LearnPg.Frontend
open LearnPg.Basis CycleSearch

def LinkedNodes (nodes : List LockNode) (links : List LockEdge) (a b : String) : Prop :=
  a ∈ nodes.map LockNode.id ∧ b ∈ nodes.map LockNode.id ∧
    ∃ l ∈ links, l.source = a ∧ l.target = b

/-- A directed cycle that passes no node twice. -/
structure IsLockCycle (nodes : List LockNode) (links : List LockEdge) (cycle : List String) :
    Prop where
  closes : Closes (LinkedNodes nodes links) cycle
  nodup : cycle.Nodup
  long : 2 ≤ cycle.length

def EachOnce (cycles : List (List String)) : Prop := cycles.Pairwise fun a b => ¬ a ~r b

section

variable {nodes : List LockNode} {links : List LockEdge} {cycle : List String} {a b : String}

theorem mem_adjacent_iff : b ∈ adjacent nodes links a ↔
    a ∈ nodes.map LockNode.id ∧ ∃ l ∈ links, l.source = a ∧ l.target = b := by
  unfold adjacent
  split
  next ha =>
    rw [and_iff_right ha]
    simp only [List.mem_map, List.mem_filter, decide_eq_true_eq, and_assoc]
  next ha =>
    exact iff_of_false List.not_mem_nil fun h => ha h.1

theorem isLockCycle_iff : IsLockCycle nodes links cycle ↔
    IsSimpleCycle (adjacent nodes links) cycle := by
  constructor
  · intro h
    obtain ⟨v, rest, heq, hchain⟩ := h.closes
    exact ⟨⟨v, rest, heq, hchain.imp fun _ _ hlinked => mem_adjacent_iff.mpr
      ⟨hlinked.1, hlinked.2.2⟩⟩, h.nodup, h.long⟩
  · intro h
    -- each node of the cycle has a link to the next one, and so is listed
    have hlisted : ∀ v ∈ cycle, v ∈ nodes.map LockNode.id := by
      intro v hv
      obtain ⟨next, -, -, hnext⟩ := h.next hv
      exact (mem_adjacent_iff.mp hnext).1
    obtain ⟨v, rest, rfl, hchain⟩ := h.isCycle
    refine ⟨⟨v, rest, rfl, ?_⟩, h.nodup, h.long⟩
    refine hchain.imp_of_mem_imp fun a b ha hb hadj => ?_
    have hmem : ∀ w ∈ v :: rest ++ [v], w ∈ nodes.map LockNode.id :=
      List.forall_mem_append.mpr
        ⟨hlisted, List.forall_mem_singleton.mpr (hlisted v List.mem_cons_self)⟩
    exact ⟨hmem a ha, hmem b hb, (mem_adjacent_iff.mp hadj).2⟩

theorem listed_of_adjacent (h : adjacent nodes links a ≠ []) : a ∈ nodes.map LockNode.id := by
  by_contra hnone
  exact h (if_neg hnone)

end

/-- The search ends; it lists directed cycles only, and none exactly if there is none. -/
theorem detectCycle_complete (nodes : List LockNode) (links : List LockEdge) :
    CycleSearch.detect (adjacent nodes links) (nodes.length + links.length + 1)
        (nodes.map LockNode.id) = some (detectCycle nodes links) ∧
      (∀ c ∈ detectCycle nodes links, IsLockCycle nodes links c) ∧
      (detectCycle nodes links ≠ [] ↔ ∃ c, IsLockCycle nodes links c) := by
  have hdetect := (detectCycle_spec nodes links).1
  refine ⟨hdetect, fun c hc => isLockCycle_iff.mpr (detect_simple hdetect c hc), ?_⟩
  simp only [detect_ne_nil_iff (fun _ => listed_of_adjacent) hdetect, isLockCycle_iff]

/-- Every node of a cycle is a start of its own, so that a cycle is listed once only where there
is none at all. -/
theorem eachOnce_iff (nodes : List LockNode) (links : List LockEdge) :
    EachOnce (detectCycle nodes links) ↔ ¬ ∃ c, IsLockCycle nodes links c := by
  unfold EachOnce
  rw [detect_distinct_iff (fun _ => listed_of_adjacent) (detectCycle_spec nodes links).1]
  simp only [isLockCycle_iff]

def pairNodes : List LockNode := [⟨"a", "1", "a", .backend⟩, ⟨"b", "2", "b", .backend⟩]

def pairLinks : List LockEdge := [⟨"a", "b", 0, "unknown"⟩, ⟨"b", "a", 0, "unknown"⟩]

/-- Two nodes that wait for each other are two cycles. -/
theorem pair_listed_twice : detectCycle pairNodes pairLinks = [["a", "b"], ["b", "a"]] ∧
    ¬ EachOnce (detectCycle pairNodes pairLinks) := by
  have hlisted : detectCycle pairNodes pairLinks = [["a", "b"], ["b", "a"]] := by decide
  refine ⟨hlisted, fun h => ?_⟩
  rw [hlisted] at h
  exact (List.pairwise_cons.mp h).1 ["b", "a"] List.mem_cons_self ⟨1, rfl⟩

end LearnPg.Frontend
