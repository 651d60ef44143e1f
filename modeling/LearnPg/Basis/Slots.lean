import LearnPg.Basis.Maps

/-! A shared map with a fixed number of slots: an entry for a new key is refused while it is
full. As long as the keys in use are no more than the slots, nothing is refused, and what comes
out under a key depends on the inputs under this key alone. -/
namespace LearnPg.Basis.Slots

open Maps

section

variable {κ σ : Type} [DecidableEq κ]

def write (cap : Nat) (m : Map κ σ) (k : κ) : Option σ → Map κ σ
  | some v => if k ∈ m ∨ len m < cap then m.insert k v else m
  | none => m.erase k

variable {m : Map κ σ} {k k' : κ} {keys : Finset κ} {cap : Nat}

theorem keys_write (v : Option σ) (hm : m.keys ⊆ keys) (hk : k ∈ keys) :
    (write cap m k v).keys ⊆ keys := by
  intro a ha
  rw [Finmap.mem_keys] at ha
  have hmem {a : κ} (ha : a ∈ m) : a ∈ keys := hm (Finmap.mem_keys.mpr ha)
  cases v with
  | none => exact hmem (Finmap.mem_erase.mp ha).2
  | some v =>
    simp only [write] at ha
    split at ha
    · rcases Finmap.mem_insert.mp ha with rfl | ha
      · exact hk
      · exact hmem ha
    · exact hmem ha

theorem lookup_write (v : Option σ) (hm : m.keys ⊆ keys) (hk : k ∈ keys) (hcap : keys.card ≤ cap) :
    (write cap m k v).lookup k = v := by
  cases v with
  | none => exact Finmap.lookup_erase _ _
  | some v =>
    simp only [write]
    rw [if_pos, Finmap.lookup_insert]
    by_cases hmem : k ∈ m
    · exact .inl hmem
    · have hne : m.keys ⊂ keys :=
        ⟨hm, fun hsub => hmem (Finmap.mem_keys.mp (hsub hk))⟩
      exact .inr (Nat.lt_of_lt_of_le (Finset.card_lt_card hne) hcap)

theorem forall_mem_none (P : σ → Prop) : ∀ a ∈ (none : Option σ), P a := by
  simp

theorem mem_lookup_write {v : Option σ} {a : σ} (h : a ∈ (write cap m k v).lookup k) :
    a ∈ v ∨ a ∈ m.lookup k := by
  cases v with
  | none => simp [write] at h
  | some v =>
    simp only [write] at h
    split at h
    · rw [Finmap.lookup_insert] at h
      exact .inl h
    · exact .inr h

theorem lookup_write_ne (v : Option σ) (h : k' ≠ k) :
    (write cap m k v).lookup k' = m.lookup k' := by
  cases v with
  | none => exact Finmap.lookup_erase_ne h
  | some v =>
    simp only [write]
    split
    · exact Finmap.lookup_insert_of_ne _ h
    · rfl

end

/-- What an input does with the entry under its key, and what comes out. -/
structure Table (κ σ ι ο : Type) where
  cap : Nat
  key : ι → κ
  inside : ι → Option σ → Option σ × List ο

section

variable {κ σ ι ο : Type} [DecidableEq κ]

def Table.step (M : Table κ σ ι ο) (m : Map κ σ) (i : ι) : Map κ σ :=
  write M.cap m (M.key i) (M.inside i (m.lookup (M.key i))).1

def Table.output (M : Table κ σ ι ο) (m : Map κ σ) (i : ι) : List ο :=
  (M.inside i (m.lookup (M.key i))).2

def Table.after (M : Table κ σ ι ο) (m : Map κ σ) (is : List ι) : Map κ σ := is.foldl M.step m

def Table.outputs (M : Table κ σ ι ο) (m : Map κ σ) : List ι → List (κ × ο)
  | [] => []
  | i :: is => (M.output m i).map (M.key i, ·) ++ M.outputs (M.step m i) is

def Table.alone (M : Table κ σ ι ο) (cell : Option σ) : List ι → List ο
  | [] => []
  | i :: is => (M.inside i cell).2 ++ M.alone (M.inside i cell).1 is

def Table.under (M : Table κ σ ι ο) (k : κ) (i : ι) : Bool := M.key i = k

variable {M : Table κ σ ι ο} {m : Map κ σ} {k : κ} {keys : Finset κ} {i : ι}

theorem after_concat (is : List ι) (i : ι) :
    M.after m (is ++ [i]) = M.step (M.after m is) i :=
  List.foldl_concat ..

theorem outputs_concat (is : List ι) (i : ι) :
    M.outputs m (is ++ [i]) =
      M.outputs m is ++ (M.output (M.after m is) i).map (M.key i, ·) := by
  induction is generalizing m with
  | nil => simp [Table.outputs, Table.after]
  | cons j is ih =>
    rw [List.cons_append, Table.outputs, Table.outputs, ih, List.append_assoc]
    rfl

theorem lookup_step_under (hm : m.keys ⊆ keys) (hi : M.key i ∈ keys) (hcap : keys.card ≤ M.cap) :
    (M.step m i).lookup (M.key i) = (M.inside i (m.lookup (M.key i))).1 :=
  lookup_write _ hm hi hcap

theorem outputs_under (hcap : keys.card ≤ M.cap) (k : κ) {m : Map κ σ} (hm : m.keys ⊆ keys)
    {is : List ι} (his : ∀ i ∈ is, M.key i ∈ keys) :
    ((M.outputs m is).filter (·.1 = k)).map Prod.snd =
      M.alone (m.lookup k) (is.filter (M.under k)) := by
  induction is generalizing m with
  | nil => rfl
  | cons i is ih =>
    obtain ⟨hi, his⟩ := List.forall_mem_cons.mp his
    have hstep : (M.step m i).keys ⊆ keys := keys_write _ hm hi
    have hrest := ih hstep his
    rw [Table.outputs, List.filter_append, List.map_append, hrest]
    by_cases hk : M.key i = k
    · subst hk
      have hunder : M.under (M.key i) i = true := decide_eq_true rfl
      have hown : ((M.output m i).map (M.key i, ·)).filter (·.1 = M.key i) =
          (M.output m i).map (M.key i, ·) := by
        simp [List.filter_map, Function.comp_def]
      rw [List.filter_cons, hunder, if_pos rfl, hown, List.map_map,
        lookup_step_under hm hi hcap]
      simp [Table.alone, Table.output, Function.comp_def]
    · have hunder : M.under k i = false := decide_eq_false hk
      have hother : ((M.output m i).map (M.key i, ·)).filter (·.1 = k) = [] := by
        simp [List.filter_map, Function.comp_def, hk]
      rw [List.filter_cons, hunder, hother]
      have hsame : (M.step m i).lookup k = m.lookup k := lookup_write_ne _ (Ne.symm hk)
      rw [hsame]
      rfl

/-- What every input keeps of the entry under its key holds of all entries, and what it makes of
such an entry comes out. -/
theorem step_keeps {P : σ → Prop} {Q : ο → Prop}
    (hinside : ∀ i cell, (∀ v ∈ cell, P v) →
      (∀ v ∈ (M.inside i cell).1, P v) ∧ ∀ o ∈ (M.inside i cell).2, Q o)
    (hm : ∀ k, ∀ v ∈ m.lookup k, P v) (i : ι) :
    (∀ k, ∀ v ∈ (M.step m i).lookup k, P v) ∧ ∀ o ∈ M.output m i, Q o := by
  obtain ⟨hcell, hout⟩ := hinside i _ (hm (M.key i))
  refine ⟨fun k v hv => ?_, hout⟩
  by_cases hk : k = M.key i
  · subst hk
    rcases mem_lookup_write hv with hnew | hold
    · exact hcell v hnew
    · exact hm _ v hold
  · rw [Table.step, lookup_write_ne _ hk] at hv
    exact hm k v hv

end

end LearnPg.Basis.Slots
