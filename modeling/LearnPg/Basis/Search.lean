import Mathlib.Data.List.Nodup

/-! Nested loops that look for something. A loop is left at the first element in
which its body finds something, or it runs to its end and keeps what was found
last; what the loops find is an end of the list of everything there is to find. -/
namespace LearnPg.Basis.Search

inductive Loop where
  | untilFound
  | toEnd

section

variable {α β γ : Type}

def Loop.run : Loop → (Nat → α → Option β) → List α → Option β
  | .untilFound, body, xs => xs.zipIdx.findSome? fun e => body e.2 e.1
  | .toEnd, body, xs => xs.zipIdx.foldl (fun found e => (body e.2 e.1).or found) none

/-- The end of a list at which the loop stays. -/
def Loop.pick : Loop → List β → Option β
  | .untilFound, ys => ys.head?
  | .toEnd, ys => ys.getLast?

def hits (sub : Nat → α → List β) (xs : List α) : List β :=
  xs.zipIdx.flatMap fun e => sub e.2 e.1

theorem pick_toList (loop : Loop) (found : Option β) : loop.pick found.toList = found := by
  cases loop <;> cases found <;> rfl

theorem mem_of_pick {loop : Loop} {ys : List β} {y : β} (h : loop.pick ys = some y) : y ∈ ys := by
  cases loop with
  | untilFound => exact List.mem_of_head? h
  | toEnd => exact List.mem_of_getLast? h

theorem foldl_or (body : α → Option β) (found : Option β) (xs : List α) :
    xs.foldl (fun found x => (body x).or found) found =
      (xs.filterMap body).getLast?.or found := by
  induction xs generalizing found with
  | nil => simp
  | cons x xs ih =>
    rw [List.foldl_cons, ih]
    cases h : body x with
    | none => simp [h]
    | some y =>
      rw [List.filterMap_cons_some h, List.getLast?_cons]
      cases (xs.filterMap body).getLast? <;> simp

theorem run_eq_pick (loop : Loop) (body : Nat → α → Option β) (xs : List α) :
    loop.run body xs = loop.pick (xs.zipIdx.filterMap fun e => body e.2 e.1) := by
  cases loop with
  | untilFound => exact List.head?_filterMap.symm
  | toEnd => exact (foldl_or _ none _).trans (Option.or_none ..)

theorem pick_filterMap_pick (loop : Loop) (sub : α → List β) (xs : List α) :
    loop.pick (xs.filterMap fun x => loop.pick (sub x)) = loop.pick (xs.flatMap sub) := by
  cases loop with
  | untilFound =>
    simp only [Loop.pick]
    rw [List.head?_filterMap, List.head?_flatMap]
  | toEnd =>
    simp only [Loop.pick]
    rw [List.getLast?_filterMap, List.getLast?_flatMap]

/-- Loops of one kind, one in the other, pick from all that there is. -/
theorem run_pick (loop : Loop) (sub : Nat → α → List β) (xs : List α) :
    loop.run (fun i x => loop.pick (sub i x)) xs = loop.pick (hits sub xs) := by
  rw [run_eq_pick, pick_filterMap_pick]
  rfl

theorem run_eq (loop : Loop) (body : Nat → α → Option β) (xs : List α) :
    loop.run body xs = loop.pick (hits (fun i x => (body i x).toList) xs) := by
  rw [← run_pick]
  simp only [pick_toList]

theorem run_map (loop : Loop) {body : Nat → α → Option β} {g : α → Option γ} (f : β → γ)
    (h : ∀ i x, (body i x).map f = g x) (xs : List α) :
    (loop.run body xs).map f = loop.pick (xs.filterMap g) := by
  have hfilter : (xs.zipIdx.filterMap fun e => body e.2 e.1).map f = xs.filterMap g := by
    conv_rhs => rw [← List.zipIdx_map_fst 0 xs]
    rw [List.map_filterMap, List.filterMap_map]
    apply List.filterMap_congr
    intro e _
    exact h e.2 e.1
  rw [run_eq_pick, ← hfilter]
  cases loop with
  | untilFound => exact List.head?_map.symm
  | toEnd => exact List.getLast?_map.symm

theorem run_filter (loop : Loop) {body : Nat → α → Option β} {p : α → Bool} (f : β → α)
    (h : ∀ i x, (body i x).map f = if p x then some x else none) (xs : List α) :
    (loop.run body xs).map f = loop.pick (xs.filter p) := by
  rw [run_map loop f h, ← List.filterMap_eq_filter]
  rfl

theorem run_untilFound_first {body : Nat → α → Option β} {xs : List α} {y : β}
    (h : Loop.untilFound.run body xs = some y) :
    ∃ i x, xs[i]? = some x ∧ body i x = some y ∧
      ∀ j < i, ∀ x', xs[j]? = some x' → body j x' = none := by
  obtain ⟨before, e, after, hxs, hy, hnone⟩ := List.findSome?_eq_some_iff.mp h
  have hindex : e.2 = before.length := by
    have hget := List.getElem?_zipIdx (l := xs) (i := 0) (j := before.length)
    rw [hxs, List.getElem?_append_right (Nat.le_refl _), Nat.sub_self,
      List.getElem?_cons_zero] at hget
    obtain ⟨x, -, hx⟩ := Option.map_eq_some_iff.mp hget.symm
    rw [← hx, Nat.zero_add]
  refine ⟨e.2, e.1, ?_, hy, ?_⟩
  · apply List.mem_zipIdx_iff_getElem?.mp
    simp [hxs]
  · intro j hj x' hx'
    have hmem : (x', j) ∈ before := by
      have hget := List.getElem?_zipIdx (l := xs) (i := 0) (j := j)
      rw [hx', hxs, List.getElem?_append_left (by omega)] at hget
      simpa using List.mem_of_getElem? hget
    exact hnone _ hmem

theorem mem_hits {sub : Nat → α → List β} {xs : List α} {y : β} :
    y ∈ hits sub xs ↔ ∃ i x, xs[i]? = some x ∧ y ∈ sub i x := by
  simp only [hits, List.mem_flatMap, Prod.exists, List.mem_zipIdx_iff_getElem?]
  exact exists_comm

theorem run_some {loop : Loop} {body : Nat → α → Option β} {xs : List α} {y : β}
    (h : loop.run body xs = some y) : ∃ i x, xs[i]? = some x ∧ body i x = some y := by
  rw [run_eq] at h
  obtain ⟨i, x, hx, hy⟩ := mem_hits.mp (mem_of_pick h)
  exact ⟨i, x, hx, Option.mem_toList.mp hy⟩

theorem run_none {loop : Loop} {body : Nat → α → Option β} {xs : List α} :
    loop.run body xs = none ↔ ∀ i x, xs[i]? = some x → body i x = none := by
  rw [run_eq_pick]
  have hnone : loop.pick (xs.zipIdx.filterMap fun e => body e.2 e.1) = none ↔
      (xs.zipIdx.filterMap fun e => body e.2 e.1) = [] := by
    cases loop with
    | untilFound => exact List.head?_eq_none_iff
    | toEnd => exact List.getLast?_eq_none_iff
  rw [hnone]
  simp only [List.filterMap_eq_nil_iff, Prod.forall, List.mem_zipIdx_iff_getElem?]
  exact forall_comm

theorem hits_nodup {sub : Nat → α → List β} (index : β → Nat) {xs : List α}
    (hindex : ∀ i x, ∀ y ∈ sub i x, index y = i) (hsub : ∀ i x, (sub i x).Nodup) :
    (hits sub xs).Nodup := by
  apply List.nodup_flatMap.mpr
  refine ⟨fun e _ => hsub e.2 e.1, ?_⟩
  have hindices : xs.zipIdx.Pairwise (fun e f => e.2 ≠ f.2) := by
    rw [← List.pairwise_map, List.zipIdx_map_snd]
    exact List.nodup_range'
  apply hindices.imp
  intro e f hne y hye hyf
  exact hne ((hindex _ _ y hye).symm.trans (hindex _ _ y hyf))

theorem head?_eq_getLast?_iff {ys : List β} (h : ys.Nodup) :
    ys.head? = ys.getLast? ↔ ∀ a ∈ ys, ∀ b ∈ ys, a = b := by
  cases ys with
  | nil => simp
  | cons y ys =>
    constructor
    · intro hends a ha b hb
      cases ys with
      | nil =>
        rw [List.mem_singleton] at ha hb
        rw [ha, hb]
      | cons z zs =>
        have hlast : y ∈ z :: zs := by
          apply List.mem_of_getLast?
          rw [List.getLast?_cons_cons] at hends
          exact hends.symm
        exact absurd hlast (List.nodup_cons.mp h).1
    · intro hall
      cases hlast : (y :: ys).getLast? with
      | none => simp at hlast
      | some z => rw [List.head?_cons, hall y List.mem_cons_self z (List.mem_of_getLast? hlast)]

end

end LearnPg.Basis.Search
