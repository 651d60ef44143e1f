import Mathlib.Data.List.DropRight

/-! The last elements of a list that grows at its end. -/
namespace LearnPg.Basis.Windows

variable {α : Type}

theorem rtake_rtake (n m : Nat) (xs : List α) : (xs.rtake m).rtake n = xs.rtake (min n m) := by
  simp only [List.rtake_eq_reverse_take_reverse, List.reverse_reverse, List.take_take]

theorem rtake_append (older newer : List α) {n : Nat} (h : n ≤ newer.length) :
    (older ++ newer).rtake n = newer.rtake n := by
  rw [List.rtake, List.rtake, List.length_append, Nat.add_sub_assoc h,
    List.drop_append]
  simp

theorem rtake_eq_nil {xs : List α} {n : Nat} (h : 0 < n) : xs.rtake n = [] ↔ xs = [] := by
  rw [List.rtake, List.drop_eq_nil_iff, ← List.length_eq_zero_iff]
  omega

theorem rtake_concat (n : Nat) (xs : List α) (x : α) :
    (xs.rtake n ++ [x]).rtake n = (xs ++ [x]).rtake n := by
  cases n with
  | zero => rw [List.rtake_zero, List.rtake_zero]
  | succ n =>
    rw [List.rtake_concat_succ, List.rtake_concat_succ, rtake_rtake, Nat.min_eq_left n.le_succ]

end LearnPg.Basis.Windows
