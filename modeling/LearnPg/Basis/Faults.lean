import Mathlib.Data.List.Basic

/-! Computations that stop at their first fault: an index or a slice out of range, or a
number that does not fit. -/
namespace LearnPg.Basis.Faults

inductive Fault where
  | index
  | slice
  | overflow
  deriving DecidableEq

abbrev Checked := Except Fault

variable {α β : Type}

/-- `l[i]`. -/
def index (l : List α) (i : Nat) : Checked α :=
  match l[i]? with
  | some a => .ok a
  | none => .error .index

/-- `l[lo:hi]`. -/
def cut (l : List α) (lo hi : Nat) : Checked (List α) :=
  if lo ≤ hi ∧ hi ≤ l.length then .ok ((l.drop lo).take (hi - lo)) else .error .slice

/-- The sum `n` is below the type's bound. -/
def fit (bound n : Nat) : Checked Unit := if n < bound then .ok () else .error .overflow

def sub (a b : Nat) : Checked Nat := if b ≤ a then .ok (a - b) else .error .overflow

@[simp] theorem ok_bind (a : α) (f : α → Checked β) : (Except.ok a >>= f : Checked β) = f a := rfl

@[simp] theorem error_bind (fault : Fault) (f : α → Checked β) :
    (Except.error fault >>= f : Checked β) = .error fault := rfl

@[simp] theorem pure_eq_ok (a : α) : (pure a : Checked α) = .ok a := rfl

theorem index_ok {l : List α} {i : Nat} (h : i < l.length) (default : α) :
    index l i = .ok (l.getD i default) := by
  simp [index, h, List.getD_eq_getElem?_getD]

theorem cut_ok {l : List α} {lo hi : Nat} (hlo : lo ≤ hi) (hhi : hi ≤ l.length) :
    cut l lo hi = .ok ((l.drop lo).take (hi - lo)) := if_pos ⟨hlo, hhi⟩

theorem fit_ok {bound n : Nat} (h : n < bound) : fit bound n = .ok () := if_pos h

theorem sub_ok {a b : Nat} (h : b ≤ a) : sub a b = .ok (a - b) := if_pos h

/-- The computation gives `a` where `p` holds, and does not fit elsewhere. -/
structure GivesIf (x : Checked α) (p : Prop) (a : α) : Prop where
  gives : p → x = .ok a
  overflows : ¬ p → x = .error .overflow

section
variable {x : Checked α} {f : α → Checked β} {p q : Prop} {a : α} {b : β}

theorem GivesIf.ok (a : α) (h : p) : GivesIf (.ok a) p a := ⟨fun _ => rfl, fun hn => absurd h hn⟩

theorem GivesIf.congr (h : GivesIf x p a) (hpq : p ↔ q) : GivesIf x q a :=
  ⟨fun hq => h.gives (hpq.mpr hq), fun hq => h.overflows (mt hpq.mp hq)⟩

theorem GivesIf.fit (bound n : Nat) : GivesIf (fit bound n) (n < bound) () :=
  ⟨fun h => if_pos h, fun h => if_neg h⟩

theorem GivesIf.bind (h : GivesIf x p a) (hf : p → GivesIf (f a) q b) :
    GivesIf (x >>= f) (p ∧ q) b := by
  constructor
  · rintro ⟨hp, hq⟩
    rw [h.gives hp, ok_bind, (hf hp).gives hq]
  · intro hpq
    by_cases hp : p
    · rw [h.gives hp, ok_bind, (hf hp).overflows fun hq => hpq ⟨hp, hq⟩]
    · rw [h.overflows hp, error_bind]

theorem GivesIf.map (h : GivesIf x p a) (f : α → β) :
    GivesIf (x >>= fun a => .ok (f a)) p (f a) :=
  ⟨fun hp => by rw [h.gives hp, ok_bind], fun hp => by rw [h.overflows hp, error_bind]⟩

theorem GivesIf.exists_iff (h : GivesIf x p a) : (∃ b, x = .ok b) ↔ p := by
  refine ⟨fun ⟨b, hb⟩ => ?_, fun hp => ⟨a, h.gives hp⟩⟩
  by_contra hp
  rw [h.overflows hp] at hb
  contradiction

end

end LearnPg.Basis.Faults
