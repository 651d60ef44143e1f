import Mathlib.Data.List.Basic

/-! Paths as lists of elements, and their cleaning: some elements stay where they are, some
lead back. -/
namespace LearnPg.Basis.Paths

/-- The elements that cleaning takes out: those that stay, and those that lead up. -/
structure Dots (α : Type) where
  stay : α → Bool
  up : α → Bool

section

variable {α : Type} (d : Dots α) (rooted : Bool)

/-- Goes on from a directory by one element. A rooted path does not lead above the root. -/
def push (parts : List α) (part : α) : List α :=
  if d.stay part then parts
  else if d.up part then
    if parts.getLast?.all d.up then if rooted then parts else parts ++ [part]
    else parts.dropLast
  else parts ++ [part]

def clean (parts : List α) : List α := parts.foldl (push d rooted) []

def Plain (part : α) : Prop := d.stay part = false ∧ d.up part = false

variable {d rooted} {parts more : List α} {part : α}

theorem push_plain (h : Plain d part) : push d rooted parts part = parts ++ [part] := by
  simp [push, h.1, h.2]

theorem foldl_push_plain (h : ∀ part ∈ more, Plain d part) :
    more.foldl (push d rooted) parts = parts ++ more := by
  induction more generalizing parts with
  | nil => simp
  | cons part more ih =>
    obtain ⟨hpart, hmore⟩ := List.forall_mem_cons.mp h
    rw [List.foldl_cons, push_plain hpart, ih hmore, List.append_assoc, List.singleton_append]

theorem clean_plain (h : ∀ part ∈ parts, Plain d part) : clean d rooted parts = parts :=
  foldl_push_plain h

theorem mem_push {q : α} (h : q ∈ push d rooted parts part) : q ∈ parts ∨ q = part := by
  unfold push at h
  split at h
  · exact .inl h
  · split at h
    · split at h
      · split at h
        · exact .inl h
        · simpa using h
      · exact .inl (List.dropLast_subset _ h)
    · simpa using h

theorem mem_foldl_push {q : α} (h : q ∈ more.foldl (push d rooted) parts) :
    q ∈ parts ∨ q ∈ more := by
  induction more generalizing parts with
  | nil => exact .inl h
  | cons part more ih =>
    rcases ih h with hq | hq
    · rcases mem_push hq with hq | rfl
      · exact .inl hq
      · exact .inr List.mem_cons_self
    · exact .inr (List.mem_cons_of_mem part hq)

theorem foldl_push_rooted (h : ∀ part ∈ parts, Plain d part) :
    ∀ part ∈ more.foldl (push d true) parts, Plain d part := by
  induction more generalizing parts with
  | nil => exact h
  | cons part more ih =>
    apply ih
    unfold push
    split
    · exact h
    next hstay =>
      split
      · split
        · exact h
        · exact fun q hq => h q (List.dropLast_subset _ hq)
      next hup =>
        rw [List.forall_mem_append, List.forall_mem_singleton]
        exact ⟨h, by simpa using hstay, by simpa using hup⟩

end

section Split

variable {α : Type} {sep : α} {segments : List (List α)}
  {segment text before behind last : List α}

theorem append_flatMap (segment : List α) (segments : List (List α)) :
    segment ++ segments.flatMap (sep :: ·) = [sep].intercalate (segment :: segments) := by
  induction segments generalizing segment with
  | nil => simp [List.intercalate_singleton]
  | cons next segments ih =>
    rw [List.intercalate_cons_cons, ← ih next]
    simp

variable [DecidableEq α]

theorem splitOn_flatMap (h : ∀ segment ∈ segments, sep ∉ segment) :
    (segments.flatMap (sep :: ·)).splitOn sep = [] :: segments := by
  rw [← List.nil_append (segments.flatMap _), append_flatMap]
  exact List.splitOn_intercalate sep (by simpa using h) (by simp)

theorem flatMap_injective {others : List (List α)}
    (h : segments.flatMap (sep :: ·) = others.flatMap (sep :: ·))
    (hsegments : ∀ segment ∈ segments, sep ∉ segment)
    (hothers : ∀ segment ∈ others, sep ∉ segment) : segments = others := by
  have hsplit := splitOn_flatMap hsegments
  rw [h, splitOn_flatMap hothers] at hsplit
  exact (List.cons.inj hsplit).2.symm

theorem sep_notMem_splitOn (h : segment ∈ text.splitOn sep) : sep ∉ segment := by
  induction text generalizing segment with
  | nil =>
    rw [List.splitOn_nil, List.mem_singleton] at h
    simp [h]
  | cons c text ih =>
    rw [List.splitOn_cons_eq_if_modifyHead] at h
    split at h
    · obtain rfl | h := List.mem_cons.mp h
      · simp
      · exact ih h
    next hc =>
      obtain ⟨first, rest, hsplit⟩ := List.exists_cons_of_ne_nil (List.splitOn_ne_nil sep text)
      rw [hsplit] at h ih
      obtain rfl | h := List.mem_cons.mp h
      · have hfirst := ih List.mem_cons_self
        simp only [List.mem_cons, not_or]
        exact ⟨fun heq => hc (by simp [heq]), hfirst⟩
      · exact ih (List.mem_cons_of_mem first h)

theorem splitOn_prepend (h : sep ∉ before) :
    (before ++ text).splitOn sep = (text.splitOn sep).modifyHead (before ++ ·) := by
  induction before with
  | nil =>
    rw [List.nil_append]
    cases text.splitOn sep <;> rfl
  | cons c before ih =>
    rw [List.mem_cons, not_or] at h
    rw [List.cons_append, List.splitOn_cons_eq_if_modifyHead,
      if_neg (by simpa using Ne.symm h.1), ih h.2]
    cases text.splitOn sep <;> rfl

theorem splitOn_append (hbehind : sep ∉ behind) (h : text.splitOn sep = segments ++ [last]) :
    (text ++ behind).splitOn sep = segments ++ [last ++ behind] := by
  induction text generalizing segments last with
  | nil =>
    rw [List.splitOn_nil] at h
    cases segments with
    | nil =>
      cases h
      exact List.splitOn_eq_singleton hbehind
    | cons segment segments => simp at h
  | cons c text ih =>
    have hsplit := ih (List.dropLast_append_getLast (List.splitOn_ne_nil sep text)).symm
    rw [List.splitOn_cons_eq_if_modifyHead] at h
    rw [List.cons_append, List.splitOn_cons_eq_if_modifyHead, hsplit]
    rw [← List.dropLast_append_getLast (List.splitOn_ne_nil sep text)] at h
    generalize (text.splitOn sep).dropLast = init at h ⊢
    generalize (text.splitOn sep).getLast _ = final at h ⊢
    split at h
    next hc =>
      rw [if_pos hc]
      rw [← List.cons_append] at h
      obtain ⟨hinit, hfinal⟩ := List.append_inj' h rfl
      rw [← hinit, ← List.singleton_inj.mp hfinal]
      rfl
    next hc =>
      rw [if_neg hc]
      cases init with
      | nil =>
        have h : [] ++ [c :: final] = segments ++ [last] := h
        obtain ⟨rfl, hfinal⟩ := List.append_inj' h rfl
        rw [← List.singleton_inj.mp hfinal]
        rfl
      | cons segment init =>
        have h : ((c :: segment) :: init) ++ [final] = segments ++ [last] := h
        obtain ⟨rfl, hfinal⟩ := List.append_inj' h rfl
        rw [← List.singleton_inj.mp hfinal]
        rfl

end Split

end LearnPg.Basis.Paths
