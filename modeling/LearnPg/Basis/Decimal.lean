import Mathlib.Data.Bool.AllAny
import Mathlib.Tactic.IntervalCases

/-! Decimal numerals, as `toString` writes them. -/
namespace LearnPg.Basis.Decimal

variable {c : Char} {n : Nat} {P : Char → Prop}

theorem mem_digits (h : c.isDigit = true) : c ∈ "0123456789".toList := by
  have hc : Char.ofNat c.toNat = c := Char.ofNat_toNat c
  unfold Char.isDigit at h
  obtain ⟨hlow, hhigh⟩ := (Bool.and_eq_true ..).mp h
  replace hlow : 48 ≤ c.toNat := UInt32.le_iff_toNat_le.mp (of_decide_eq_true hlow)
  replace hhigh : c.toNat ≤ 57 := UInt32.le_iff_toNat_le.mp (of_decide_eq_true hhigh)
  interval_cases c.toNat <;> rw [← hc] <;> decide

theorem of_isDigit [DecidablePred P] (hall : ("0123456789".toList.all fun c => P c) = true)
    (h : c.isDigit = true) : P c :=
  List.all_iff_forall_prop.mp hall c (mem_digits h)

theorem isDigit_of_mem : ∀ c ∈ Nat.toDigits 10 n, c.isDigit = true :=
  fun _ hc => Nat.isDigit_of_mem_toDigits (by decide) (by decide) hc

theorem toList_ofNat (n : Nat) : (toString (Int.ofNat n)).toList = Nat.toDigits 10 n := by
  change (Nat.repr n).toList = _
  rw [Nat.toList_repr]

theorem toList_negSucc (n : Nat) :
    (toString (Int.negSucc n)).toList = '-' :: Nat.toDigits 10 (n + 1) := by
  change ("-" ++ Nat.repr (n + 1)).toList = _
  rw [String.toList_append, Nat.toList_repr]
  rfl

end LearnPg.Basis.Decimal
