import Mathlib.Data.List.TakeWhile
import Mathlib.Tactic.IntervalCases

/-! Hexadecimal text: unpadded and zero-padded numerals, and reading them back. -/
namespace LearnPg.Basis.HexText

def upperDigit (n : Nat) : Char :=
  if n < 10 then Char.ofNat (48 + n) else Char.ofNat (55 + n)

def lowerDigit (n : Nat) : Char :=
  if n < 10 then Char.ofNat (48 + n) else Char.ofNat (87 + n)

/-- Digits of either case, as parsers accept them. -/
def digitValue (c : Char) : Option Nat :=
  if '0' ≤ c ∧ c ≤ '9' then some (c.toNat - 48)
  else if 'A' ≤ c ∧ c ≤ 'F' then some (c.toNat - 55)
  else if 'a' ≤ c ∧ c ≤ 'f' then some (c.toNat - 87)
  else none

theorem digitValue_upperDigit {n : Nat} (h : n < 16) : digitValue (upperDigit n) = some n := by
  interval_cases n <;> decide

theorem digitValue_lowerDigit {n : Nat} (h : n < 16) : digitValue (lowerDigit n) = some n := by
  interval_cases n <;> decide

/-- The numeral without leading zeros; zero is one digit. -/
def numeral (n : Nat) : List Char :=
  if n < 16 then [upperDigit n] else numeral (n / 16) ++ [upperDigit (n % 16)]

theorem numeral_length {n width : Nat} (h : n < 16 ^ (width + 1)) :
    (numeral n).length ≤ width + 1 := by
  induction width generalizing n with
  | zero =>
    rw [numeral, if_pos (by simpa using h)]
    simp
  | succ width ih =>
    rw [numeral]
    split
    · simp
    · have hrest : n / 16 < 16 ^ (width + 1) := by
        rw [Nat.pow_succ] at h
        omega
      have := ih hrest
      simp only [List.length_append, List.length_singleton]
      omega

def padded (width n : Nat) : List Char :=
  List.replicate (width - (numeral n).length) '0' ++ numeral n

theorem padded_length {n width : Nat} (h : n < 16 ^ (width + 1)) :
    (padded (width + 1) n).length = width + 1 := by
  have := numeral_length h
  simp only [padded, List.length_append, List.length_replicate]
  omega

/-- The value of the longest prefix of digits. -/
def value (text : List Char) : Nat :=
  ((text.map digitValue).takeWhile Option.isSome).foldl (fun acc d => 16 * acc + d.getD 0) 0

theorem map_digitValue_numeral (n : Nat) :
    ∃ digits : List Nat, (numeral n).map digitValue = digits.map some ∧
      digits.foldl (fun acc d => 16 * acc + d) 0 = n ∧ digits.length = (numeral n).length := by
  induction n using Nat.strong_induction_on with
  | _ n ih =>
    rw [numeral]
    split
    next h => exact ⟨[n], by simp [digitValue_upperDigit h], by simp, by simp⟩
    next h =>
      obtain ⟨digits, hmap, hfold, hlen⟩ := ih (n / 16) (by omega)
      have hlast := digitValue_upperDigit (Nat.mod_lt n (show 16 > 0 by decide))
      refine ⟨digits ++ [n % 16], by simp [hmap, hlast], ?_, by simp [hlen]⟩
      rw [List.foldl_append, hfold, List.foldl_cons, List.foldl_nil]
      omega

theorem digit_of_mem {text : List Char} {digits : List Nat}
    (h : text.map digitValue = digits.map some) {c : Char} (hc : c ∈ text) :
    (digitValue c).isSome := by
  have hmem : digitValue c ∈ digits.map some := h ▸ List.mem_map_of_mem hc
  obtain ⟨d, -, hd⟩ := List.mem_map.mp hmem
  rw [← hd]
  rfl

theorem map_digitValue_padded (width n : Nat) :
    ∃ digits : List Nat, (padded width n).map digitValue = digits.map some ∧
      digits.foldl (fun acc d => 16 * acc + d) 0 = n := by
  obtain ⟨digits, hmap, hfold, -⟩ := map_digitValue_numeral n
  have hzeros (k : Nat) : (List.replicate k 0).foldl (fun acc d => 16 * acc + d) 0 = 0 := by
    induction k with
    | zero => rfl
    | succ k ih => simpa [List.replicate_succ] using ih
  refine ⟨List.replicate (width - (numeral n).length) 0 ++ digits, ?_, ?_⟩
  · have hzero : digitValue '0' = some 0 := by decide
    simp [padded, hmap, hzero]
  · rw [List.foldl_append, hzeros, hfold]

theorem value_of_digits {text rest : List Char} {digits : List Nat}
    (h : text.map digitValue = digits.map some)
    (hrest : ∀ c ∈ rest.head?, digitValue c = none) :
    value (text ++ rest) = digits.foldl (fun acc d => 16 * acc + d) 0 := by
  have hstop : (rest.map digitValue).takeWhile Option.isSome = [] := by
    cases rest with
    | nil => rfl
    | cons c rest => simp [hrest c rfl]
  have htake : ((digits.map some).takeWhile Option.isSome) = digits.map some := by
    simp
  rw [value, List.map_append, h, List.takeWhile_append_of_pos (by simp), hstop, List.append_nil,
    List.foldl_map]
  rfl

theorem value_numeral (n : Nat) (rest : List Char) (hrest : ∀ c ∈ rest.head?, digitValue c = none) :
    value (numeral n ++ rest) = n := by
  obtain ⟨digits, hmap, hfold, -⟩ := map_digitValue_numeral n
  rw [value_of_digits hmap hrest, hfold]

theorem value_padded (width n : Nat) : value (padded width n) = n := by
  obtain ⟨digits, hmap, hfold⟩ := map_digitValue_padded width n
  rw [← List.append_nil (padded width n), value_of_digits hmap (by simp), hfold]

theorem digitValue_lt {c : Char} {d : Nat} (h : digitValue c = some d) : d < 16 := by
  unfold digitValue at h
  simp only [Char.le_def, UInt32.le_iff_toNat_le, Char.reduceVal, UInt32.reduceToNat] at h
  have hval : c.toNat = c.val.toNat := rfl
  grind

theorem value_lt (text : List Char) : value text < 16 ^ text.length := by
  have hfold (digits : List (Option Nat)) (hdigits : ∀ d ∈ digits, d.getD 0 < 16) (acc : Nat) :
      digits.foldl (fun acc d => 16 * acc + d.getD 0) acc < (acc + 1) * 16 ^ digits.length := by
    induction digits generalizing acc with
    | nil => simp
    | cons d digits ih =>
      have hd := hdigits d List.mem_cons_self
      have hrest := ih (fun x hx => hdigits x (List.mem_cons_of_mem _ hx)) (16 * acc + d.getD 0)
      rw [List.foldl_cons, List.length_cons, Nat.pow_succ, Nat.mul_comm _ 16, ← Nat.mul_assoc]
      exact Nat.lt_of_lt_of_le hrest (Nat.mul_le_mul_right _ (by omega))
  have hlt := hfold ((text.map digitValue).takeWhile Option.isSome) (fun d hd => ?_) 0
  · rw [Nat.zero_add, Nat.one_mul] at hlt
    refine Nat.lt_of_lt_of_le hlt (Nat.pow_le_pow_right (by decide) ?_)
    have hle := (List.takeWhile_sublist (l := text.map digitValue) Option.isSome).length_le
    rwa [List.length_map] at hle
  · obtain ⟨c, -, rfl⟩ := List.mem_map.mp (List.takeWhile_sublist _ |>.mem hd)
    cases hc : digitValue c with
    | none => decide
    | some d => exact digitValue_lt hc

end LearnPg.Basis.HexText
