import Mathlib.Data.List.Sort
import Mathlib.Data.Multiset.Basic

/-! Sorting by a key with a sort that may put elements with equal keys in any order, and when
the last elements are left in their places by every such sort. Sorting by a comparison that
tells all elements apart. -/
namespace LearnPg.Basis.Sorts

/-- A sort by `key`; nothing is known of the order of elements with equal keys. -/
structure SliceSort {β κ : Type} [LinearOrder κ] (key : β → κ) where
  sort : List β → List β
  perm : ∀ l, (sort l).Perm l
  sorted : ∀ l, (sort l).Pairwise fun x y => key x ≤ key y

section
variable {β κ : Type} [LinearOrder κ] {key : β → κ}

/-- There is such a sort. -/
def insertion (key : β → κ) : SliceSort key where
  sort l := l.insertionSort fun x y => key x ≤ key y
  perm := List.perm_insertionSort _
  sorted := by
    intro l
    have : Std.Total fun x y => key x ≤ key y := ⟨fun x y => le_total _ _⟩
    have : IsTrans β fun x y => key x ≤ key y := ⟨fun x y z => le_trans⟩
    exact List.pairwise_insertionSort _ _

theorem exists_sort {l sorted : List β} (hperm : sorted.Perm l)
    (hsorted : sorted.Pairwise fun x y => key x ≤ key y) :
    ∃ σ : SliceSort key, σ.sort l = sorted := by
  classical
  refine ⟨⟨fun l' => if l' = l then sorted else (insertion key).sort l', ?_, ?_⟩, if_pos rfl⟩
  · intro l'
    split
    · next h => exact h ▸ hperm
    · exact (insertion key).perm l'
  · intro l'
    split
    · exact hsorted
    · exact (insertion key).sorted l'

variable (key) in
/-- Each element from place `k` on comes strictly behind all before it, or equals them. -/
def Settled (l : List β) (k : Nat) : Prop :=
  ∀ i j (hi : i < l.length) (hj : j < l.length), i < j → k ≤ j → key l[i] < key l[j] ∨ l[i] = l[j]

variable {l : List β} {k : Nat}

theorem Settled.eq_of_key (h : Settled key l k) {x y : β} (hx : x ∈ l) (hy : y ∈ l.drop k)
    (heq : key x = key y) : x = y := by
  obtain ⟨i, hi, rfl⟩ := List.getElem_of_mem hx
  obtain ⟨d, hd, rfl⟩ := List.getElem_of_mem hy
  rw [List.getElem_drop] at heq ⊢
  rw [List.length_drop] at hd
  rcases Nat.lt_trichotomy i (k + d) with hlt | rfl | hlt
  · exact (h i (k + d) hi (by omega) hlt (by omega)).resolve_left heq.not_lt
  · rfl
  · exact ((h (k + d) i (by omega) hi hlt (by omega)).resolve_left heq.not_gt).symm

theorem Settled.pairwise (h : Settled key l k) {front : List β} (hfront : front.Perm (l.take k))
    (hsorted : front.Pairwise fun x y => key x ≤ key y) :
    (front ++ l.drop k).Pairwise fun x y => key x ≤ key y := by
  have hle {i j : Nat} (hi : i < l.length) (hj : j < l.length) (hlt : i < j) (hk : k ≤ j) :
      key l[i] ≤ key l[j] := by
    rcases h i j hi hj hlt hk with hkey | heq
    · exact hkey.le
    · rw [heq]
  rw [List.pairwise_append]
  refine ⟨hsorted, List.pairwise_iff_getElem.mpr fun i j hi hj hlt => ?_, fun x hx y hy => ?_⟩
  · rw [List.getElem_drop, List.getElem_drop]
    rw [List.length_drop] at hi hj
    exact hle (by omega) (by omega) (by omega) (by omega)
  · obtain ⟨i, hi, rfl⟩ := List.getElem_of_mem (hfront.mem_iff.mp hx)
    obtain ⟨j, hj, rfl⟩ := List.getElem_of_mem hy
    rw [List.length_take] at hi
    rw [List.length_drop] at hj
    rw [List.getElem_take, List.getElem_drop]
    exact hle (by omega) (by omega) (by omega) (by omega)

theorem keys_eq {a b : List β} (hperm : a.Perm b) (ha : a.Pairwise fun x y => key x ≤ key y)
    (hb : b.Pairwise fun x y => key x ≤ key y) : a.map key = b.map key :=
  (hperm.map key).eq_of_pairwise' (List.pairwise_map.mpr ha) (List.pairwise_map.mpr hb)

theorem Settled.drop_sort (h : Settled key l k) (σ : SliceSort key) :
    (σ.sort l).drop k = l.drop k := by
  have hfront := (insertion key).perm (l.take k)
  have hkeys : (σ.sort l).map key = ((insertion key).sort (l.take k) ++ l.drop k).map key := by
    refine keys_eq ?_ (σ.sorted l) (h.pairwise hfront ((insertion key).sorted _))
    refine (σ.perm l).trans ?_
    have := hfront.append_right (l.drop k)
    rw [List.take_append_drop] at this
    exact this.symm
  have hlen : (σ.sort l).length = l.length := (σ.perm l).length_eq
  have hdrop : ((σ.sort l).drop k).map key = (l.drop k).map key := by
    by_cases hk : k ≤ l.length
    · have hflen : ((insertion key).sort (l.take k)).length = k := by
        rw [hfront.length_eq, List.length_take_of_le hk]
      rw [List.map_drop, hkeys, List.map_append, List.drop_left' (by rw [List.length_map, hflen])]
    · rw [List.drop_eq_nil_of_le (by omega), List.drop_eq_nil_of_le (by omega)]
  refine List.ext_getElem (by simp [hlen]) fun d hd hd' => ?_
  refine h.eq_of_key ((σ.perm l).mem_iff.mp (List.mem_of_mem_drop (List.getElem_mem hd)))
    (List.getElem_mem hd') ?_
  have hd'' : d < ((σ.sort l).drop k |>.map key).length := by rwa [List.length_map]
  rw [← List.getElem_map key, ← List.getElem_map key]
  exact List.getElem_of_eq hdrop hd''

theorem place_of_drop_eq (σ : SliceSort key) (h : (σ.sort l).drop k = l.drop k) {i j : Nat}
    (hi : i < l.length) (hj : j < l.length) (hlt : i < j) (hk : k ≤ j) :
    ∃ p, ∃ hp : p < j, ∃ hlen : j < (σ.sort l).length,
      (σ.sort l)[p] = l[i] ∧ (σ.sort l)[j] = l[j] := by
  have hlen : (σ.sort l).length = l.length := (σ.perm l).length_eq
  have hplace {q : Nat} (hq : q < l.length) (hkq : k ≤ q) :
      (σ.sort l).get ⟨q, by omega⟩ = l[q] := by
    have := congrArg (·[q - k]?) h
    simp only [List.getElem?_drop, Nat.add_sub_cancel' hkq] at this
    rwa [List.getElem?_eq_getElem (by omega), List.getElem?_eq_getElem hq, Option.some_inj] at this
  by_cases hki : k ≤ i
  · exact ⟨i, hlt, by omega, hplace hi hki, hplace hj hk⟩
  · have htake : ((σ.sort l).take k).Perm (l.take k) := by
      have hperm := σ.perm l
      rw [← List.take_append_drop k (σ.sort l), h] at hperm
      exact (List.perm_append_right_iff (l.drop k)).mp
        (hperm.trans (.of_eq (List.take_append_drop k l).symm))
    have hmem : l[i] ∈ (σ.sort l).take k :=
      htake.mem_iff.mpr (List.mem_take_iff_getElem.mpr ⟨i, by omega, rfl⟩)
    obtain ⟨p, hp, heq⟩ := List.mem_take_iff_getElem.mp hmem
    exact ⟨p, by omega, by omega, heq, hplace hj hk⟩

theorem le_of_drop_eq (σ : SliceSort key) (h : (σ.sort l).drop k = l.drop k) {i j : Nat}
    (hi : i < l.length) (hj : j < l.length) (hlt : i < j) (hk : k ≤ j) : key l[i] ≤ key l[j] := by
  obtain ⟨p, hp, hlen, hpi, hpj⟩ := place_of_drop_eq σ h hi hj hlt hk
  rw [← hpi, ← hpj]
  exact List.pairwise_iff_getElem.mp (σ.sorted l) p j (by omega) hlen hp

theorem exists_exchanged (σ : SliceSort key) {p q : Nat} (hp : p < (σ.sort l).length)
    (hq : q < (σ.sort l).length) (hkey : key (σ.sort l)[p] = key (σ.sort l)[q]) :
    ∃ τ : SliceSort key,
      τ.sort l = ((σ.sort l).set p (σ.sort l)[q]).set q (σ.sort l)[p] := by
  refine exists_sort ((List.set_set_perm hp hq).trans (σ.perm l)) ?_
  have hset {n : Nat} (hn : n < (σ.sort l).length) :
      ((σ.sort l).map key).set n (key (σ.sort l)[n]) = (σ.sort l).map key := by
    have hn' : n < ((σ.sort l).map key).length := by rwa [List.length_map]
    rw [← List.getElem_map key]
    exact List.set_getElem_self hn'
  have hkeys : (((σ.sort l).set p (σ.sort l)[q]).set q (σ.sort l)[p]).map key =
      (σ.sort l).map key := by
    rw [List.map_set, List.map_set, ← hkey, hset hp, hkey, hset hq]
  rw [← List.pairwise_map, hkeys, List.pairwise_map]
  exact σ.sorted l

/-- Every sort leaves the elements from place `k` on where they are exactly if they are
settled. -/
theorem drop_sort_iff : (∀ σ : SliceSort key, (σ.sort l).drop k = l.drop k) ↔ Settled key l k := by
  refine ⟨fun h i j hi hj hlt hk => ?_, fun h σ => h.drop_sort σ⟩
  have σ := insertion key
  obtain ⟨p, hp, hlen, hpi, hpj⟩ := place_of_drop_eq σ (h σ) hi hj hlt hk
  rcases (le_of_drop_eq σ (h σ) hi hj hlt hk).lt_or_eq with hkey | hkey
  · exact .inl hkey
  · right
    obtain ⟨τ, hτ⟩ := exists_exchanged σ (p := p) (by omega) hlen (by rwa [hpi, hpj])
    have hdrop := congrArg (·[j - k]?) (h τ)
    simp only [List.getElem?_drop, Nat.add_sub_cancel' hk, hτ] at hdrop
    rw [List.getElem?_set_self (by rwa [List.length_set]), List.getElem?_eq_getElem hj,
      Option.some_inj] at hdrop
    exact hpi ▸ hdrop

end

/-- A sort by a comparison `less`; nothing is known of the order of elements that it does not
tell apart. -/
structure LessSort {β : Type} (less : β → β → Bool) where
  sort : List β → List β
  perm : ∀ l, (sort l).Perm l
  sorted : ∀ l, (sort l).Pairwise fun x y => less y x = false

/-- There is such a sort where `less` orders the elements up to those that it does not tell
apart. -/
def insertionLess {β : Type} {less : β → β → Bool}
    (htotal : ∀ x y, less x y = false ∨ less y x = false)
    (htrans : ∀ x y z, less y x = false → less z y = false → less z x = false) :
    LessSort less where
  sort := List.insertionSort fun x y => less y x = false
  perm := List.perm_insertionSort _
  sorted := by
    intro l
    have : Std.Total fun x y : β => less y x = false := ⟨fun x y => htotal y x⟩
    have : IsTrans β fun x y => less y x = false := ⟨fun x y z => htrans x y z⟩
    exact List.pairwise_insertionSort _ _

section

variable {β : Type} {less : β → β → Bool} {l l' : List β}

def Told (less : β → β → Bool) (l : List β) : Prop :=
  ∀ x ∈ l, ∀ y ∈ l, less x y = false → less y x = false → x = y

theorem LessSort.sort_eq (σ τ : LessSort less) (hperm : l.Perm l') (h : Told less l) :
    σ.sort l = τ.sort l' := by
  have hall := (σ.perm l).trans (hperm.trans (τ.perm l').symm)
  refine hall.eq_of_pairwise ?_ (σ.sorted l) (τ.sorted l')
  intro x y hx hy hxy hyx
  have hy := hall.mem_iff.mpr hy
  exact h x ((σ.perm l).mem_iff.mp hx) y ((σ.perm l).mem_iff.mp hy) hyx hxy

theorem LessSort.strictly_sorted (σ : LessSort less) (hnodup : l.Nodup) (h : Told less l) :
    (σ.sort l).Pairwise fun x y => less x y = true := by
  have hdistinct := (σ.perm l).nodup_iff.mpr hnodup
  refine ((σ.sorted l).and hdistinct).imp_of_mem fun hx hy hle => ?_
  rw [← Bool.not_eq_false]
  intro hlt
  exact hle.2 (h _ ((σ.perm l).mem_iff.mp hx) _ ((σ.perm l).mem_iff.mp hy) hlt hle.1)

end

end LearnPg.Basis.Sorts
