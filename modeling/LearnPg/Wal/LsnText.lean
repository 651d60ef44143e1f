import LearnPg.Basis.Blanks
import LearnPg.Wal.Bytes
import Mathlib.Data.List.Basic

/-! The text of an LSN and the scanner that reads it. A part that the scanner does not
recognise reads as zero. -/
namespace LearnPg.Wal
open LearnPg.Basis LearnPg.Basis.Blanks

/-- A newline is an error to the scanner. -/
def skipSpace : List Char → Option (List Char)
  | [] => some []
  | c :: rest =>
    if c = '\n' then none
    else if isSpace c then skipSpace rest
    else some (c :: rest)

/-- `fmt.Sscanf(text, "%X", &v)` with 32 bits for `v`. What follows the digits is not
looked at. -/
def sscanX (text : List Char) : Option UInt32 :=
  match skipSpace text with
  | none => none
  | some rest =>
    let tok := rest.takeWhile fun c => (HexText.digitValue c).isSome
    if tok ≠ [] ∧ HexText.value tok < 2 ^ 32 then some (UInt32.ofNat (HexText.value tok))
    else none

/-- The errors of the scanner are not looked at. -/
def parseLSN (lsn : String) : Except String (UInt32 × UInt32) :=
  match lsn.toList.splitOn '/' with
  | [hi, lo] => .ok ((sscanX hi).getD 0, (sscanX lo).getD 0)
  | _ => .error ("invalid LSN format: " ++ lsn)

structure IsHex32 (text : List Char) : Prop where
  ne_nil : text ≠ []
  digits : ∀ c ∈ text, (HexText.digitValue c).isSome
  fits : HexText.value text < 2 ^ 32

def IsLSN (lsn : String) : Prop :=
  ∃ hi lo, lsn.toList = hi ++ '/' :: lo ∧ IsHex32 hi ∧ IsHex32 lo

theorem not_space_of_digit {c : Char} (h : (HexText.digitValue c).isSome) :
    c ≠ '\n' ∧ isSpace c = false := by
  have hrange : 48 ≤ c.toNat ∧ c.toNat ≤ 102 := by
    unfold HexText.digitValue at h
    simp only [Char.le_def, UInt32.le_iff_toNat_le, Char.reduceVal, UInt32.reduceToNat] at h
    show 48 ≤ c.val.toNat ∧ c.val.toNat ≤ 102
    grind
  constructor
  · rintro rfl
    exact absurd hrange (by decide)
  · simp only [isSpace, decide_eq_false_iff_not]
    omega

section

variable {text hi lo : List Char} {lsn : String}

theorem sscanX_digits (h : IsHex32 text) :
    sscanX text = some (UInt32.ofNat (HexText.value text)) := by
  have hskip : skipSpace text = some text := by
    cases text with
    | nil => rfl
    | cons c rest =>
      obtain ⟨hnewline, hspace⟩ := not_space_of_digit (h.digits c List.mem_cons_self)
      simp [skipSpace, hnewline, hspace]
  have htok : text.takeWhile (fun c => (HexText.digitValue c).isSome) = text :=
    List.takeWhile_eq_self_iff.mpr h.digits
  unfold sscanX
  rw [hskip]
  dsimp only
  rw [htok, if_pos ⟨h.ne_nil, h.fits⟩]

theorem IsHex32.not_slash (h : IsHex32 text) : '/' ∉ text :=
  fun hslash => absurd (h.digits _ hslash) (by decide)

theorem splitOn_slash (hhi : IsHex32 hi) (hlo : IsHex32 lo) :
    (hi ++ '/' :: lo).splitOn '/' = [hi, lo] := by
  rw [List.splitOn_append_cons_self_of_not_mem hhi.not_slash,
    List.splitOn_eq_singleton hlo.not_slash]

theorem parseLSN_numbers (h : lsn.toList = hi ++ '/' :: lo) (hhi : IsHex32 hi) (hlo : IsHex32 lo) :
    parseLSN lsn = .ok (UInt32.ofNat (HexText.value hi), UInt32.ofNat (HexText.value lo)) := by
  unfold parseLSN
  rw [h, splitOn_slash hhi hlo]
  dsimp only
  rw [sscanX_digits hhi, sscanX_digits hlo]
  rfl

theorem isHex32_numeral (v : UInt32) : IsHex32 (HexText.numeral v.toNat) := by
  obtain ⟨digits, hmap, -, -⟩ := HexText.map_digitValue_numeral v.toNat
  have hvalue := HexText.value_numeral v.toNat [] nofun
  rw [List.append_nil] at hvalue
  refine ⟨?_, fun c => HexText.digit_of_mem hmap, ?_⟩
  · unfold HexText.numeral
    split <;> simp
  · rw [hvalue]
    exact v.toNat_lt

theorem isHex32_padded (v : UInt32) : IsHex32 (HexText.padded 8 v.toNat) := by
  obtain ⟨digits, hmap, -⟩ := HexText.map_digitValue_padded 8 v.toNat
  refine ⟨?_, fun c => HexText.digit_of_mem hmap, ?_⟩
  · exact fun h => (isHex32_numeral v).ne_nil (List.append_eq_nil_iff.mp h).2
  · rw [HexText.value_padded]
    exact v.toNat_lt

theorem parseLSN_formatLSN (hi lo : UInt32) : parseLSN (formatLSN hi lo) = .ok (hi, lo) := by
  have hvalue := HexText.value_numeral hi.toNat [] nofun
  rw [List.append_nil] at hvalue
  have htext : (formatLSN hi lo).toList = HexText.numeral hi.toNat ++ '/' ::
      HexText.padded 8 lo.toNat := String.toList_ofList
  rw [parseLSN_numbers htext (isHex32_numeral hi) (isHex32_padded lo), hvalue,
    HexText.value_padded, UInt32.ofNat_toNat, UInt32.ofNat_toNat]

theorem length_splitOn (a : Char) (text : List Char) :
    (text.splitOn a).length = text.count a + 1 := by
  induction text with
  | nil => rfl
  | cons c text ih =>
    rw [List.splitOn_cons_eq_if_modifyHead, List.count_cons]
    split <;> simp [ih]

/-- The number of slashes is all that is checked. -/
theorem parseLSN_error_iff : (∃ err, parseLSN lsn = .error err) ↔ lsn.toList.count '/' ≠ 1 := by
  have hparts := length_splitOn '/' lsn.toList
  unfold parseLSN
  split
  next hi lo h =>
    rw [h] at hparts
    simp only [reduceCtorEq, exists_false, false_iff, not_not]
    simpa using hparts.symm
  next h =>
    refine ⟨fun _ hone => ?_, fun _ => ⟨_, rfl⟩⟩
    rw [hone] at hparts
    obtain ⟨hi, lo, hpair⟩ := List.length_eq_two.mp hparts
    exact h hi lo hpair

end

end LearnPg.Wal
