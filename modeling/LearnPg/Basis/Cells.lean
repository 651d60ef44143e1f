import LearnPg.Basis.Maps

/-! A shared map of cells, each made when it is first needed. An input reads and writes at
most the cell under its key, so that what comes out under one key does not depend on the
inputs under others. -/
namespace LearnPg.Basis.Cells

open Maps

/-- What an input does with its cell, if it has a key, and what comes out if it has none. -/
structure System (κ σ ι ο : Type) where
  key : ι → Option κ
  outside : ι → ο
  inside : Option σ → ι → σ × ο

section

variable {κ σ ι ο : Type} [DecidableEq κ]

def System.step (M : System κ σ ι ο) (cells : Map κ σ) (i : ι) : Map κ σ × ο :=
  (M.key i).elim (cells, M.outside i) fun k =>
    let result := M.inside (cells.lookup k) i
    (cells.insert k result.1, result.2)

def System.run (M : System κ σ ι ο) (cells : Map κ σ) : List ι → List (ι × ο)
  | [] => []
  | i :: is => (i, (M.step cells i).2) :: M.run (M.step cells i).1 is

omit [DecidableEq κ] in
def System.alone (M : System κ σ ι ο) (cell : Option σ) : List ι → List (ι × ο)
  | [] => []
  | i :: is => (i, (M.inside cell i).2) :: M.alone (some (M.inside cell i).1) is

def System.under (M : System κ σ ι ο) (k : κ) (i : ι) : Bool := M.key i = some k

variable {M : System κ σ ι ο} {cells : Map κ σ} {k : κ} {i : ι}

theorem step_under (h : M.key i = some k) :
    M.step cells i = (cells.insert k (M.inside (cells.lookup k) i).1,
      (M.inside (cells.lookup k) i).2) := by
  simp [System.step, h]

theorem lookup_step_other (h : M.key i ≠ some k) :
    (M.step cells i).1.lookup k = cells.lookup k := by
  unfold System.step
  cases hkey : M.key i with
  | none => rfl
  | some k' =>
    rw [hkey] at h
    exact Finmap.lookup_insert_of_ne _ fun hsame => h (by rw [hsame])

theorem outputs_under (k : κ) (cells : Map κ σ) (is : List ι) :
    (M.run cells is).filter (fun x => M.under k x.1) =
      M.alone (cells.lookup k) (is.filter (M.under k)) := by
  induction is generalizing cells with
  | nil => rfl
  | cons i is ih =>
    unfold System.run
    by_cases h : M.key i = some k
    · have hunder : M.under k i = true := decide_eq_true h
      simp only [List.filter_cons, hunder, if_true, ih, step_under h,
        Finmap.lookup_insert]
      rfl
    · have hunder : M.under k i = false := decide_eq_false h
      simp only [List.filter_cons, hunder, Bool.false_eq_true, if_false, ih, lookup_step_other h]

end

end LearnPg.Basis.Cells
