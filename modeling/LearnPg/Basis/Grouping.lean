import Mathlib.Data.List.Induction
import Mathlib.Data.List.Nodup
import Mathlib.Data.List.Pairwise
import Mathlib.Data.List.Sort
import Mathlib.Data.List.Perm.Basic

/-! A map that lists its keys in the order in which they were first set, and what a loop over
events leaves in it that sets the entry of each event's key. -/
namespace LearnPg.Basis.Grouping

/-- The entries in the order in which their keys came, no key twice. -/
structure Table (κ β : Type) where
  entries : List (κ × β)
  nodup : (entries.map Prod.fst).Nodup

section

variable {κ β γ : Type} [DecidableEq κ] {t u : Table κ β} {k k' : κ} {v : β}

def put (k : κ) (v : β) : List (κ × β) → List (κ × β)
  | [] => [(k, v)]
  | e :: rest => if e.1 = k then (k, v) :: rest else e :: put k v rest

theorem keys_put (k : κ) (v : β) (entries : List (κ × β)) :
    (put k v entries).map Prod.fst =
      if k ∈ entries.map Prod.fst then entries.map Prod.fst else entries.map Prod.fst ++ [k] := by
  induction entries with
  | nil => rfl
  | cons e rest ih =>
    by_cases h : e.1 = k
    · simp [put, h]
    · have hne : k ≠ e.1 := Ne.symm h
      simp only [put, if_neg h, List.map_cons, ih, List.mem_cons, hne, false_or]
      split
      · rfl
      · rfl

def Table.empty : Table κ β := ⟨[], List.nodup_nil⟩

def Table.get (t : Table κ β) (k : κ) : Option β := t.entries.lookup k

def Table.set (t : Table κ β) (k : κ) (v : β) : Table κ β where
  entries := put k v t.entries
  nodup := by
    rw [keys_put]
    split
    next => exact t.nodup
    next hnew =>
      rw [List.nodup_append]
      refine ⟨t.nodup, List.nodup_singleton k, ?_⟩
      intro a ha b hb heq
      rw [List.mem_singleton] at hb
      exact hnew (hb ▸ heq ▸ ha)

def Table.values (t : Table κ β) : List β := t.entries.map Prod.snd

@[simp] theorem Table.get_empty (k : κ) : (Table.empty : Table κ β).get k = none := rfl

theorem lookup_cons (e : κ × β) (rest : List (κ × β)) (k : κ) :
    (e :: rest).lookup k = if k = e.1 then some e.2 else rest.lookup k := by
  rw [List.lookup_cons]
  by_cases h : k = e.1
  · simp [h]
  · simp [h, beq_eq_false_iff_ne.mpr h]

theorem Table.get_set (t : Table κ β) (k : κ) (v : β) (k' : κ) :
    (t.set k v).get k' = if k' = k then some v else t.get k' := by
  change (put k v t.entries).lookup k' = if k' = k then some v else t.entries.lookup k'
  induction t.entries with
  | nil => exact lookup_cons (k, v) [] k'
  | cons e rest ih =>
    unfold put
    split
    next h =>
      rw [lookup_cons, lookup_cons, h]
      split
      · rfl
      · rfl
    next h =>
      rw [lookup_cons, lookup_cons, ih]
      by_cases hk : k' = e.1
      · rw [if_pos hk, if_pos hk, if_neg (hk ▸ h)]
      · rw [if_neg hk, if_neg hk]

theorem mem_iff_lookup {entries : List (κ × β)} (hnodup : (entries.map Prod.fst).Nodup) :
    (k, v) ∈ entries ↔ entries.lookup k = some v := by
  induction entries with
  | nil => simp
  | cons e rest ih =>
    obtain ⟨hnew, hrest⟩ := List.nodup_cons.mp hnodup
    rw [List.mem_cons, lookup_cons, ih hrest]
    by_cases hk : k = e.1
    · subst hk
      have hnone : ¬ rest.lookup e.1 = some v := by
        intro hsome
        rw [← ih hrest] at hsome
        exact hnew (List.mem_map.mpr ⟨(e.1, v), hsome, rfl⟩)
      simp only [hnone, Prod.ext_iff, true_and, or_false, if_true, Option.some_inj]
      exact eq_comm
    · simp [Prod.ext_iff, hk]

theorem Table.mem_entries : (k, v) ∈ t.entries ↔ t.get k = some v := mem_iff_lookup t.nodup

theorem Table.mem_values : v ∈ t.values ↔ ∃ k, t.get k = some v := by
  simp only [Table.values, List.mem_map, Prod.exists, exists_eq_right, Table.mem_entries]

theorem Table.perm_of_get (h : ∀ k, t.get k = u.get k) : t.entries.Perm u.entries := by
  rw [List.perm_ext_iff_of_nodup t.nodup.of_map u.nodup.of_map]
  rintro ⟨k, v⟩
  rw [Table.mem_entries, Table.mem_entries, h k]

end

section

variable {κ β ε : Type} [DecidableEq κ]

/-- An event may have a key, and then may set the entry of that key. -/
def enter (key : ε → Option κ) (next : Option β → ε → Option β) (t : Table κ β) (e : ε) :
    Table κ β :=
  match key e with
  | none => t
  | some k => match next (t.get k) e with
    | none => t
    | some v => t.set k v

def collect (key : ε → Option κ) (next : Option β → ε → Option β) (events : List ε) :
    Table κ β :=
  events.foldl (enter key next) Table.empty

def follow (next : Option β → ε → Option β) (events : List ε) : Option β :=
  events.foldl (fun v e => (next v e).or v) none

def ofKey (key : ε → Option κ) (k : κ) (events : List ε) : List ε :=
  events.filter fun e => decide (key e = some k)

variable {key : ε → Option κ} {next : Option β → ε → Option β} {k : κ} {events : List ε} {e : ε}

theorem mem_ofKey : e ∈ ofKey key k events ↔ e ∈ events ∧ key e = some k := by
  simp [ofKey]

theorem ofKey_concat : ofKey key k (events ++ [e]) =
    if key e = some k then ofKey key k events ++ [e] else ofKey key k events := by
  by_cases h : key e = some k
  · simp [ofKey, h]
  · simp [ofKey, h]

theorem follow_concat (next : Option β → ε → Option β) (events : List ε) (e : ε) :
    follow next (events ++ [e]) = (next (follow next events) e).or (follow next events) := by
  simp [follow]

theorem get_enter (t : Table κ β) : (enter key next t e).get k =
    if key e = some k then (next (t.get k) e).or (t.get k) else t.get k := by
  unfold enter
  cases key e with
  | none => rfl
  | some k' =>
    dsimp only
    simp only [Option.some_inj]
    split
    next hnone =>
      by_cases hk : k' = k
      · rw [if_pos hk, ← hk, hnone, Option.none_or]
      · rw [if_neg hk]
    next v hsome =>
      rw [Table.get_set]
      by_cases hk : k' = k
      · rw [if_pos hk.symm, if_pos hk, ← hk, hsome, Option.some_or]
      · rw [if_neg (Ne.symm hk), if_neg hk]

/-- A key's entry depends on that key's events only. -/
theorem get_collect (key : ε → Option κ) (next : Option β → ε → Option β) (events : List ε)
    (k : κ) : (collect key next events).get k = follow next (ofKey key k events) := by
  induction events using List.reverseRecOn with
  | nil => rfl
  | append_singleton events e ih =>
    have hcollect : collect key next (events ++ [e]) =
        enter key next (collect key next events) e := by
      simp [collect]
    rw [hcollect, get_enter, ofKey_concat, ih]
    split
    · rw [follow_concat]
    · rfl

end

/-! The values sorted by their keys. -/
section

variable {κ β γ : Type} [LinearOrder κ]

theorem Table.pairwise_sorted (t : Table κ β) {id : β → κ}
    (hid : ∀ k v, t.get k = some v → id v = k) :
    (t.values.mergeSort fun a b => decide (id a ≤ id b)).Pairwise fun a b => id a < id b := by
  have hkeys : t.values.map id = t.entries.map Prod.fst := by
    rw [Table.values, List.map_map]
    apply List.map_congr_left
    rintro ⟨k, v⟩ he
    exact hid k v (Table.mem_entries.mp he)
  have hperm := List.mergeSort_perm t.values fun a b => decide (id a ≤ id b)
  have hnodup : ((t.values.mergeSort fun a b => decide (id a ≤ id b)).map id).Nodup := by
    rw [(hperm.map id).nodup_iff, hkeys]
    exact t.nodup
  have hsorted : (t.values.mergeSort fun a b => decide (id a ≤ id b)).Pairwise
      fun a b => decide (id a ≤ id b) = true :=
    List.pairwise_mergeSort (fun a b c => by simpa using le_trans)
      (fun a b => by simpa using le_total (id a) (id b)) t.values
  refine hsorted.imp₂ ?_ (List.pairwise_map.mp hnodup)
  intro a b hle hne
  exact lt_of_le_of_ne (of_decide_eq_true hle) hne

theorem eq_of_sorted {l l' : List (κ × γ)} (hl : l.Pairwise fun a b => a.1 < b.1)
    (hl' : l'.Pairwise fun a b => a.1 < b.1) (hmem : ∀ e, e ∈ l ↔ e ∈ l') : l = l' := by
  have hirrefl : Std.Irrefl fun a b : κ × γ => a.1 < b.1 := ⟨fun a => lt_irrefl a.1⟩
  have hantisymm : Std.Antisymm fun a b : κ × γ => a.1 < b.1 :=
    ⟨fun a b hab hba => absurd hba (lt_asymm hab)⟩
  exact hl.eq_of_mem_iff hl' hmem

end

/-! Loops that keep the event of the greatest rank. -/
section

variable {ε τ : Type} [LinearOrder τ]

def keepGreatest (rank : ε → τ) (prev : Option ε) (e : ε) : Option ε :=
  match prev with
  | none => some e
  | some p => if rank p < rank e then some e else none

def IsGreatest (rank : ε → τ) (events : List ε) (e : ε) : Prop :=
  e ∈ events ∧ ∀ other ∈ events, rank other ≤ rank e

variable {rank : ε → τ} {events : List ε} {e : ε}

theorem follow_keepGreatest (rank : ε → τ) (events : List ε) :
    (events = [] ∧ follow (keepGreatest rank) events = none) ∨
      ∃ e, follow (keepGreatest rank) events = some e ∧ IsGreatest rank events e := by
  induction events using List.reverseRecOn with
  | nil => exact .inl ⟨rfl, rfl⟩
  | append_singleton events e ih =>
    right
    rw [follow_concat]
    rcases ih with ⟨rfl, hnone⟩ | ⟨p, hp, hmem, hle⟩
    · rw [hnone]
      exact ⟨e, rfl, by simp [IsGreatest]⟩
    · rw [hp]
      by_cases hlt : rank p < rank e
      · refine ⟨e, by simp [keepGreatest, hlt], by simp, ?_⟩
        intro other hother
        rcases List.mem_append.mp hother with hother | hother
        · exact le_of_lt (lt_of_le_of_lt (hle other hother) hlt)
        · rw [List.mem_singleton.mp hother]
      · refine ⟨p, by simp [keepGreatest, hlt], List.mem_append_left _ hmem, ?_⟩
        intro other hother
        rcases List.mem_append.mp hother with hother | hother
        · exact hle other hother
        · rw [List.mem_singleton.mp hother]
          exact not_lt.mp hlt

/-- Where no two ranks are equal, the event kept is the one of the greatest rank. -/
theorem follow_keepGreatest_iff (hdistinct : events.Pairwise fun a b => rank a ≠ rank b) :
    follow (keepGreatest rank) events = some e ↔ IsGreatest rank events e := by
  have hunique (a b : ε) (ha : IsGreatest rank events a) (hb : IsGreatest rank events b) :
      a = b := by
    by_contra hne
    have hsymm : Std.Symm fun a b : ε => rank a ≠ rank b := ⟨fun _ _ h => h.symm⟩
    exact hdistinct.forall ha.1 hb.1 hne (le_antisymm (hb.2 a ha.1) (ha.2 b hb.1))
  rcases follow_keepGreatest rank events with ⟨rfl, hnone⟩ | ⟨greatest, hsome, hgreatest⟩
  · simp [hnone, IsGreatest]
  · rw [hsome, Option.some_inj]
    constructor
    · rintro rfl
      exact hgreatest
    · exact hunique greatest e hgreatest

variable {κ : Type} [DecidableEq κ] {key : ε → Option κ} {k : κ} {events' : List ε}

def Apart (key : ε → Option κ) (rank : ε → τ) (events : List ε) : Prop :=
  events.Pairwise fun a b => ∀ k, key a = some k → key b = some k → rank a ≠ rank b

omit [LinearOrder τ] [DecidableEq κ] in
theorem Apart.perm (h : Apart key rank events) (hperm : events.Perm events') :
    Apart key rank events' := by
  refine (hperm.pairwise_iff ?_).mp h
  intro a b hab k hb ha
  exact (hab k ha hb).symm

theorem get_greatest_iff (h : Apart key rank events) :
    (collect key (keepGreatest rank) events).get k = some e ↔
      IsGreatest rank (ofKey key k events) e := by
  rw [get_collect]
  apply follow_keepGreatest_iff
  have hkey : ∀ e ∈ ofKey key k events, key e = some k := fun e he => (mem_ofKey.mp he).2
  refine (h.sublist List.filter_sublist).imp_of_mem ?_
  intro a b ha hb hab
  exact hab k (hkey a ha) (hkey b hb)

theorem mem_keys_greatest : k ∈ (collect key (keepGreatest rank) events).entries.map Prod.fst ↔
    ∃ e ∈ events, key e = some k := by
  simp only [List.mem_map, Prod.exists, exists_and_right, exists_eq_right, Table.mem_entries,
    get_collect, ← mem_ofKey]
  rcases follow_keepGreatest rank (ofKey key k events) with ⟨hnil, hnone⟩ | ⟨e, hsome, he⟩
  · rw [hnone, hnil]
    simp
  · exact iff_of_true ⟨e, hsome⟩ ⟨e, he.1⟩

theorem perm_greatest (h : Apart key rank events) (hperm : events.Perm events') :
    (collect key (keepGreatest rank) events).entries.Perm
      (collect key (keepGreatest rank) events').entries := by
  apply Table.perm_of_get
  intro k
  ext e
  rw [get_greatest_iff h, get_greatest_iff (h.perm hperm)]
  simp only [IsGreatest, mem_ofKey, hperm.mem_iff]

end

end LearnPg.Basis.Grouping
