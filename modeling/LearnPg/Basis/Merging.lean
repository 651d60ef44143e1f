import Mathlib.Data.List.Perm.Subperm

/-! Lists merged from parts of several streams: each stream keeps its order, any of its
elements may be missing, and some of its elements may still be to come. -/
namespace LearnPg.Basis.Merging

section

variable {ι α : Type} [DecidableEq ι]

/-- The entries of one stream in a log of all of them. -/
def part (i : ι) (log : List (ι × α)) : List α := (log.filter (·.1 = i)).map Prod.snd

/-- `later` is to come after what of each stream is in `xs`. -/
def Merges (later streams : ι → List α) (xs : List α) : Prop :=
  ∃ tagged : List (ι × α), tagged.map Prod.snd = xs ∧
    ∀ i, (part i tagged ++ later i).Sublist (streams i)

variable {later later' streams streams' : ι → List α} {xs ys : List α} {log : List (ι × α)}
  {i j : ι} {x : α}

@[simp] theorem part_nil : part i ([] : List (ι × α)) = [] := rfl

@[simp] theorem part_append (log log' : List (ι × α)) :
    part i (log ++ log') = part i log ++ part i log' := by
  simp [part]

@[simp] theorem part_self : part i [(i, x)] = [x] := by
  simp [part]

theorem part_ne (h : j ≠ i) : part i [(j, x)] = [] := by
  simp [part, h]

theorem part_map {β : Type} (f : α → β) (log : List (ι × α)) :
    part i (log.map fun x => (x.1, f x.2)) = (part i log).map f := by
  simp [part, List.filter_map, Function.comp_def]

theorem part_sublist {log' : List (ι × α)} (h : log'.Sublist log) :
    (part i log').Sublist (part i log) :=
  (h.filter _).map _

theorem count_part [DecidableEq α] (log : List (ι × α)) :
    (part i log).count x = log.count (i, x) := by
  induction log with
  | nil => rfl
  | cons entry log ih =>
    obtain ⟨j, y⟩ := entry
    by_cases hj : j = i
    · subst hj
      have hpart : part j ((j, y) :: log) = y :: part j log := by simp [part]
      rw [hpart, List.count_cons, List.count_cons, ih]
      simp
    · have hpart : part i ((j, y) :: log) = part i log := by simp [part, hj]
      rw [hpart, ih, List.count_cons]
      simp [hj]

theorem merges_nil (h : ∀ i, (later i).Sublist (streams i)) : Merges later streams [] :=
  ⟨[], rfl, h⟩

theorem Merges.weaken (h : Merges later streams xs)
    (hstep : ∀ i ys, (ys ++ later i).Sublist (streams i) → (ys ++ later' i).Sublist (streams' i)) :
    Merges later' streams' xs := by
  obtain ⟨tagged, hxs, hparts⟩ := h
  exact ⟨tagged, hxs, fun i => hstep i _ (hparts i)⟩

theorem Merges.fewer (h : Merges later streams xs) (hfewer : ∀ i, (later' i).Sublist (later i)) :
    Merges later' streams xs :=
  h.weaken fun i _ hsub => ((List.Sublist.refl _).append (hfewer i)).trans hsub

theorem Merges.sublist (h : Merges later streams xs) (hsub : ys.Sublist xs) :
    Merges later streams ys := by
  obtain ⟨tagged, rfl, hparts⟩ := h
  obtain ⟨tagged', hsub', rfl⟩ := List.sublist_map_iff.mp hsub
  refine ⟨tagged', rfl, fun i => ?_⟩
  exact ((part_sublist hsub').append (List.Sublist.refl _)).trans (hparts i)

theorem Merges.grow (h : Merges later streams xs) (zs : ι → List α) :
    Merges (fun i => later i ++ zs i) (fun i => streams i ++ zs i) xs :=
  h.weaken fun i ys hsub => by
    rw [← List.append_assoc]
    exact hsub.append (List.Sublist.refl _)

theorem Merges.take (h : Merges later streams xs) (i : ι) (ys : List α)
    (hnext : (ys ++ later' i).Sublist (later i))
    (hothers : ∀ j, j ≠ i → (later' j).Sublist (later j)) :
    Merges later' streams (xs ++ ys) := by
  obtain ⟨tagged, rfl, hparts⟩ := h
  refine ⟨tagged ++ ys.map (i, ·), by simp [Function.comp_def], fun j => ?_⟩
  refine List.Sublist.trans ?_ (hparts j)
  rw [part_append, List.append_assoc]
  refine (List.Sublist.refl _).append ?_
  by_cases hj : j = i
  · subst hj
    have hpart : part j (ys.map (j, ·)) = ys := by simp [part, List.filter_map, Function.comp_def]
    rwa [hpart]
  · have hpart : part j (ys.map (i, ·)) = [] := by
      simp [part, List.filter_map, Function.comp_def, Ne.symm hj]
    rw [hpart, List.nil_append]
    exact hothers j hj

/-- No element is merged in more often than the streams have it. -/
theorem Merges.subperm (h : Merges later (part · log) xs) : xs.Subperm (log.map Prod.snd) := by
  classical
  obtain ⟨tagged, rfl, hparts⟩ := h
  have hsub : tagged.Subperm log := by
    rw [List.subperm_ext_iff]
    rintro ⟨i, x⟩ -
    rw [← count_part, ← count_part]
    exact (((List.sublist_append_left _ _).trans (hparts i)).count_le x)
  obtain ⟨entries, hperm, hentries⟩ := hsub
  exact ⟨entries.map Prod.snd, hperm.map _, hentries.map _⟩

end

end LearnPg.Basis.Merging
