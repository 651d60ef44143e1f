import Mathlib.Data.List.Basic

/-! Lists that are written one after another with a separator between them, as many as
the reader expects. -/
namespace LearnPg.Basis.Separated

variable {α : Type} [DecidableEq α] {x : α} {parts others : List (List α)}

theorem count_intercalate (x : α) (part : List α) (parts : List (List α)) :
    ([x].intercalate (part :: parts)).count x =
      (part :: parts).flatten.count x + parts.length := by
  induction parts generalizing part with
  | nil => simp [List.intercalate_singleton]
  | cons next parts ih =>
    rw [List.intercalate_cons_cons, List.count_append, List.count_append, ih]
    simp only [List.flatten_cons, List.count_append, List.count_singleton_self, List.length_cons]
    omega

theorem count_flatten_eq_zero : parts.flatten.count x = 0 ↔ ∀ part ∈ parts, x ∉ part := by
  simp [List.count_eq_zero, List.mem_flatten]

/-- Parts without the separator are read back. -/
theorem parts_unique (hfree : ∀ part ∈ parts, x ∉ part) (hlength : others.length = parts.length)
    (hjoined : [x].intercalate others = [x].intercalate parts) : others = parts := by
  cases parts with
  | nil => exact List.length_eq_zero_iff.mp hlength
  | cons part parts =>
    cases others with
    | nil => cases hlength
    | cons other others =>
      have hcount := congrArg (List.count x) hjoined
      rw [count_intercalate, count_intercalate, count_flatten_eq_zero.mpr hfree] at hcount
      have hotherFree : ∀ p ∈ other :: others, x ∉ p := by
        apply count_flatten_eq_zero.mp
        simp only [List.length_cons] at hlength
        omega
      rw [← List.splitOn_intercalate x hotherFree (by simp), hjoined,
        List.splitOn_intercalate x hfree (by simp)]

theorem exists_other_parts (hmany : 2 ≤ parts.length) (hin : ∃ part ∈ parts, x ∈ part) :
    ∃ others, others.length = parts.length ∧ [x].intercalate others = [x].intercalate parts ∧
      others ≠ parts := by
  induction parts with
  | nil => cases hmany
  | cons part parts ih =>
    cases parts with
    | nil => cases hmany with | step h => cases h
    | cons next rest =>
      by_cases hfirst : x ∈ part
      · obtain ⟨u, v, rfl⟩ := List.append_of_mem hfirst
        refine ⟨u :: (v ++ x :: next) :: rest, rfl, ?_, by simp⟩
        cases rest <;> simp [List.intercalate_cons_cons]
      · obtain ⟨p, hp, hx⟩ := hin
        have hlater : p ∈ next :: rest := by
          obtain rfl | hlater := List.mem_cons.mp hp
          · exact absurd hx hfirst
          · exact hlater
        cases rest with
        | nil =>
          obtain rfl := List.mem_singleton.mp hlater
          obtain ⟨u, v, rfl⟩ := List.append_of_mem hx
          exact ⟨[part ++ x :: u, v], rfl, by simp [List.intercalate_cons_cons], by simp⟩
        | cons third rest =>
          obtain ⟨others, hlength, hjoined, hne⟩ := ih (by simp) ⟨p, hlater, hx⟩
          refine ⟨part :: others, by simp [hlength], ?_, by simp [hne]⟩
          have hsome : others ≠ [] := by
            rintro rfl
            cases hlength
          rw [List.intercalate_cons_of_ne_nil hsome, hjoined]
          exact (List.intercalate_cons_of_ne_nil (by simp)).symm

theorem parts_determined_iff (hmany : 2 ≤ parts.length) :
    (∀ others : List (List α), others.length = parts.length →
      [x].intercalate others = [x].intercalate parts → others = parts) ↔
      ∀ part ∈ parts, x ∉ part := by
  constructor
  · intro hunique
    by_contra hin
    push Not at hin
    obtain ⟨others, hlength, hjoined, hne⟩ := exists_other_parts hmany hin
    exact hne (hunique others hlength hjoined)
  · exact fun hfree others => parts_unique hfree

end LearnPg.Basis.Separated
