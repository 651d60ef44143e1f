import Mathlib.Data.Finmap
import Mathlib.Data.Finset.Card
import Mathlib.Data.List.Sort
import Mathlib.Data.Multiset.Filter

/-! Finite maps as a loop over one sees them: its values in some order, entries taken
out by a test or by a list of keys. A sort that is not stable puts equal elements in
any order. -/
namespace LearnPg.Basis.Maps

abbrev Map (α β : Type) := Finmap fun _ : α => β

section

variable {α β : Type}

def len (m : Map α β) : Nat := m.keys.card

def values (m : Map α β) : Multiset β := m.entries.map (·.2)

/-- The entries that pass a test. -/
def filter (p : α → β → Bool) (m : Map α β) : Map α β :=
  ⟨m.entries.filter fun e => p e.1 e.2, by
    rw [← Multiset.nodup_keys]
    exact Multiset.nodup_of_le (Multiset.map_le_map (Multiset.filter_le _ _))
      (Multiset.nodup_keys.mpr m.nodupKeys)⟩

def mapValues {γ : Type} (f : β → γ) (m : Map α β) : Map α γ :=
  ⟨m.entries.map fun e => ⟨e.1, f e.2⟩, by
    rw [← Multiset.nodup_keys, Multiset.keys, Multiset.map_map]
    exact Multiset.nodup_keys.mpr m.nodupKeys⟩

variable [DecidableEq α] {m : Map α β} {a : α} {b : β}

def eraseAll (ks : List α) (m : Map α β) : Map α β := ks.foldl (fun m k => m.erase k) m

theorem mem_entries : ⟨a, b⟩ ∈ m.entries ↔ m.lookup a = some b := Finmap.lookup_eq_some_iff.symm

theorem mem_values : b ∈ values m ↔ ∃ a, m.lookup a = some b := by
  simp only [values, Multiset.mem_map, Sigma.exists, mem_entries]
  constructor
  · rintro ⟨a, b, h, rfl⟩
    exact ⟨a, h⟩
  · rintro ⟨a, h⟩
    exact ⟨a, b, h, rfl⟩

omit [DecidableEq α] in
theorem card_values : (values m).card = len m := by
  unfold values len Finmap.keys
  rw [Multiset.card_map, Finset.card_mk, Multiset.keys, Multiset.card_map]

theorem lookup_filter (p : α → β → Bool) : (filter p m).lookup a = (m.lookup a).filter (p a) := by
  ext b
  have hmem := mem_entries (m := filter p m) (a := a) (b := b)
  rw [← hmem, Option.filter_eq_some_iff, ← mem_entries]
  exact Multiset.mem_filter

theorem values_insert (h : a ∉ m) : values (m.insert a b) = b ::ₘ values m := by
  unfold values
  rw [Finmap.entries_insert_of_notMem h, Multiset.map_cons]

theorem len_insert (h : a ∉ m) : len (m.insert a b) = len m + 1 := by
  rw [← card_values, values_insert h, Multiset.card_cons, card_values]

theorem lookup_mapValues {γ : Type} (f : β → γ) :
    (mapValues f m).lookup a = (m.lookup a).map f := by
  ext c
  rw [← mem_entries, Option.map_eq_some_iff]
  simp only [← mem_entries]
  unfold mapValues
  simp

omit [DecidableEq α] in
theorem len_filter_le (p : α → β → Bool) : len (filter p m) ≤ len m := by
  rw [← card_values, ← card_values]
  unfold values filter
  rw [Multiset.card_map, Multiset.card_map]
  exact Multiset.card_le_card (Multiset.filter_le _ _)

theorem lookup_eraseAll (ks : List α) :
    (eraseAll ks m).lookup a = if a ∈ ks then none else m.lookup a := by
  unfold eraseAll
  induction ks generalizing m with
  | nil => simp
  | cons k ks ih =>
    rw [List.foldl_cons, ih]
    by_cases hk : a = k
    · rw [hk, Finmap.lookup_erase, if_pos List.mem_cons_self, ite_self]
    · simp [hk, Finmap.lookup_erase_ne hk]

theorem eraseAll_append (ks ks' : List α) :
    eraseAll (ks ++ ks') m = eraseAll ks' (eraseAll ks m) :=
  List.foldl_append

theorem keys_eraseAll (ks : List α) : (eraseAll ks m).keys = m.keys \ ks.toFinset := by
  ext a
  rw [Finset.mem_sdiff, Finmap.mem_keys, Finmap.mem_keys, List.mem_toFinset,
    ← Finmap.lookup_isSome, ← Finmap.lookup_isSome, lookup_eraseAll]
  by_cases h : a ∈ ks <;> simp [h]

theorem len_insert_of_mem (h : a ∈ m) : len (m.insert a b) = len m := by
  unfold len
  congr 1
  ext a'
  rw [Finmap.mem_keys, Finmap.mem_keys, Finmap.mem_insert]
  constructor
  · rintro (rfl | hmem)
    · exact h
    · exact hmem
  · exact .inr

theorem len_le_eraseAll (ks : List α) : len m ≤ len (eraseAll ks m) + ks.length := by
  unfold len
  rw [keys_eraseAll]
  have hcard := List.toFinset_card_le ks
  have hdiff := Finset.le_card_sdiff ks.toFinset m.keys
  omega

theorem len_eraseAll_le_iff (ks : List α) :
    len (eraseAll ks m) + ks.length ≤ len m ↔ ks.Nodup ∧ ∀ k ∈ ks, k ∈ m := by
  unfold len
  rw [keys_eraseAll]
  have hsplit : (m.keys \ ks.toFinset).card + (m.keys ∩ ks.toFinset).card = m.keys.card :=
    Finset.card_sdiff_add_card_inter _ _
  have hcard := List.toFinset_card_le ks
  have hinter : (m.keys ∩ ks.toFinset).card ≤ ks.toFinset.card :=
    Finset.card_le_card Finset.inter_subset_right
  constructor
  · intro h
    have hnodup : ks.toFinset.card = ks.length := by omega
    have hsame : m.keys ∩ ks.toFinset = ks.toFinset :=
      Finset.eq_of_subset_of_card_le Finset.inter_subset_right (by omega)
    have hdedup : ks.dedup.length = ks.length := (List.card_toFinset ks).symm.trans hnodup
    refine ⟨?_, fun k hk => ?_⟩
    · rw [← (List.dedup_sublist ks).eq_of_length hdedup]
      exact List.nodup_dedup ks
    · have hmem : k ∈ m.keys ∩ ks.toFinset := by
        rw [hsame]
        exact List.mem_toFinset.mpr hk
      exact Finmap.mem_keys.mp (Finset.mem_inter.mp hmem).1
  · rintro ⟨hnodup, hall⟩
    have hsame : m.keys ∩ ks.toFinset = ks.toFinset := by
      apply Finset.inter_eq_right.mpr
      intro k hk
      exact Finmap.mem_keys.mpr (hall k (List.mem_toFinset.mp hk))
    have hlength := List.toFinset_card_of_nodup hnodup
    rw [hsame] at hsplit
    omega

end

theorem filterMap_congr {α β : Type} {f g : α → Option β} {s : Multiset α}
    (h : ∀ x ∈ s, f x = g x) : s.filterMap f = s.filterMap g := by
  induction s using Quotient.inductionOn with
  | h xs => exact congrArg _ (List.filterMap_congr h)

structure Sorting {β : Type} (rank : β → Int) where
  sort : Multiset β → List β
  perm : ∀ s, (sort s : Multiset β) = s
  sorted : ∀ s, (sort s).Pairwise fun x y => rank x ≤ rank y

/-- There is such a sort. -/
noncomputable def anySorting {β : Type} (rank : β → Int) : Sorting rank where
  sort := fun s => s.toList.insertionSort fun x y => rank x ≤ rank y
  perm := by
    intro s
    rw [Multiset.coe_eq_coe.mpr (List.perm_insertionSort _ _), Multiset.coe_toList]
  sorted := by
    intro s
    have : Std.Total fun x y => rank x ≤ rank y := ⟨fun x y => Int.le_total _ _⟩
    have : IsTrans β fun x y => rank x ≤ rank y := ⟨fun x y z => Int.le_trans⟩
    exact List.pairwise_insertionSort _ _

section

variable {β : Type} {rank : β → Int} (σ : Sorting rank) {s : Multiset β} {x y : β} {n : Nat}

theorem Sorting.mem_sort : x ∈ σ.sort s ↔ x ∈ s := by
  rw [← Multiset.mem_coe, σ.perm]

theorem Sorting.length_sort : (σ.sort s).length = s.card := by
  rw [← Multiset.coe_card, σ.perm]

theorem Sorting.sort_zero : σ.sort 0 = [] :=
  List.eq_nil_of_length_eq_zero σ.length_sort

theorem Sorting.take_le_drop (hx : x ∈ (σ.sort s).take n) (hy : y ∈ (σ.sort s).drop n) :
    rank x ≤ rank y := by
  have hsorted := σ.sorted s
  rw [← List.take_append_drop n (σ.sort s), List.pairwise_append] at hsorted
  exact hsorted.2.2 x hx y hy

theorem Sorting.take_add_drop (s : Multiset β) (n : Nat) :
    ((σ.sort s).take n : Multiset β) + (σ.sort s).drop n = s := by
  rw [Multiset.coe_add, List.take_append_drop, σ.perm]

theorem Sorting.take_le (s : Multiset β) (n : Nat) : ((σ.sort s).take n : Multiset β) ≤ s := by
  have hle := Multiset.le_add_right ((σ.sort s).take n : Multiset β) ((σ.sort s).drop n)
  rwa [σ.take_add_drop] at hle

theorem Sorting.sub_take [DecidableEq β] (s : Multiset β) (n : Nat) :
    s - (σ.sort s).take n = (σ.sort s).drop n := by
  apply tsub_eq_of_eq_add
  rw [add_comm, σ.take_add_drop]

/-- Any order by rank is what some sort makes of the elements. -/
theorem exists_sorting {l : List β} (hperm : (l : Multiset β) = s)
    (hsorted : l.Pairwise fun x y => rank x ≤ rank y) :
    ∃ σ : Sorting rank, σ.sort s = l := by
  classical
  refine ⟨⟨fun t => if t = s then l else (anySorting rank).sort t, ?_, ?_⟩, if_pos rfl⟩
  · intro t
    split
    next h => rw [h, hperm]
    · exact (anySorting rank).perm t
  · intro t
    split
    · exact hsorted
    · exact (anySorting rank).sorted t

theorem exists_mem_take_iff :
    (∃ σ : Sorting rank, x ∈ (σ.sort s).take n) ↔
      x ∈ s ∧ s.countP (fun y => rank y < rank x) < n := by
  constructor
  · rintro ⟨σ, hx⟩
    refine ⟨σ.mem_sort.mp (List.mem_of_mem_take hx), ?_⟩
    have hdrop : ((σ.sort s).drop n).countP (fun y => rank y < rank x) = 0 := by
      rw [List.countP_eq_zero]
      intro y hy
      simpa using σ.take_le_drop hx hy
    have htake : ((σ.sort s).take n).countP (fun y => rank y < rank x) < n := by
      have hlt : ((σ.sort s).take n).countP (fun y => rank y < rank x) <
          ((σ.sort s).take n).length := by
        rw [List.countP_lt_length_iff]
        exact ⟨x, hx, by simp⟩
      exact Nat.lt_of_lt_of_le hlt (List.length_take_le _ _)
    rw [← σ.perm s, Multiset.coe_countP, ← List.take_append_drop n (σ.sort s),
      List.countP_append, hdrop]
    exact htake
  · rintro ⟨hx, hlt⟩
    have hrest : x ∈ s.filter fun y => ¬ rank y < rank x := by simp [hx]
    obtain ⟨rest, hrest⟩ := Multiset.exists_cons_of_mem hrest
    let τ := anySorting rank
    have hbelow : ∀ y ∈ τ.sort (s.filter fun y => rank y < rank x), rank y < rank x :=
      fun y hy => (Multiset.mem_filter.mp (τ.mem_sort.mp hy)).2
    have habove : ∀ y ∈ τ.sort rest, rank x ≤ rank y := by
      intro y hy
      have hy : y ∈ s.filter fun y => ¬ rank y < rank x := by
        rw [hrest]
        exact Multiset.mem_cons_of_mem (τ.mem_sort.mp hy)
      exact not_lt.mp (Multiset.mem_filter.mp hy).2
    obtain ⟨σ, hσ⟩ := @exists_sorting β rank s
      (τ.sort (s.filter fun y => rank y < rank x) ++ x :: τ.sort rest) (by
        rw [← Multiset.coe_add, ← Multiset.cons_coe, τ.perm, τ.perm, ← hrest,
          Multiset.filter_add_not]) (by
        rw [List.pairwise_append, List.pairwise_cons]
        refine ⟨τ.sorted _, ⟨habove, τ.sorted _⟩, fun y hy z hz => ?_⟩
        obtain rfl | hz := List.mem_cons.mp hz
        · exact (hbelow y hy).le
        · exact (hbelow y hy).le.trans (habove z hz))
    refine ⟨σ, ?_⟩
    rw [hσ, List.take_append, τ.length_sort, ← Multiset.countP_eq_card_filter]
    refine List.mem_append_right _ ?_
    obtain ⟨k, hk⟩ := Nat.exists_eq_add_of_lt hlt
    rw [show n - s.countP (fun y => rank y < rank x) = k + 1 by omega, List.take_succ_cons]
    exact List.mem_cons_self

end

end LearnPg.Basis.Maps
