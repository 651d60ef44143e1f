import LearnPg.Telemetry.Memory
import LearnPg.Telemetry.Files

/-! The newest events that a reader gets: copies, made while the store is locked for
reading. -/
namespace LearnPg.Telemetry

open LearnPg.Basis.Maps

def matching (since : Time) (events : Events) : Multiset Event :=
  (live events).filter fun e => since = zeroTime ∨ since ≤ e.lastSeen

/-- The newest of the matching events, the newest first, as many as the limit allows. Each
event of the store is there once at most. -/
structure Tops (limit : Int) (since : Time) (events : Events) (out : List Event) : Prop where
  entries : (out : Multiset Event) ≤ matching since events
  sorted : out.Pairwise fun x y => y.lastSeen ≤ x.lastSeen
  length : out.length =
    if 0 < limit then min limit.toNat (matching since events).card
    else (matching since events).card
  newest : ∀ x ∈ out, ∀ y ∈ matching since events - out, y.lastSeen ≤ x.lastSeen

def Memory.copies (m : Memory) (es : List Event) : Memory :=
  es.foldl (fun m e => { m with heap := Function.update m.heap m.next e, next := m.next + 1 }) m

/-- `TopSince` with the copies it makes, in the order in which the loop visits the events. -/
def Memory.topSince (limit : Int) (since : Time) (visits : Sorting fun _ : Event => 0)
    (σ : ∀ heap : Address → Event, Sorting fun a => -(heap a).lastSeen) (m : Memory) :
    Option (Memory × List Address) :=
  (dereferenced m.contents).map fun all =>
    let copied := visits.sort (all.filter fun e => since = zeroTime ∨ ¬ e.lastSeen < since)
    let m' := m.copies copied
    let out := (σ m'.heap).sort (List.range' m.next copied.length)
    (m', if 0 < limit then out.take limit.toNat else out)

section

variable {m : Memory} {s : Store} {limit : Int} {since : Time}

theorem matching_eq (since : Time) (events : Events) :
    (live events).filter (fun e => since = zeroTime ∨ ¬ e.lastSeen < since) =
      matching since events := by
  simp only [matching, not_lt]

theorem tops_cut (limit : Int) (since : Time) (events : Events) (σ : Newest) :
    Tops limit since events (if 0 < limit then (σ.sort (matching since events)).take limit.toNat
      else σ.sort (matching since events)) := by
  have hlength := σ.length_sort (s := matching since events)
  obtain ⟨n, hn, hcut⟩ : ∃ n,
      (if 0 < limit then limit.toNat else (matching since events).card) = n ∧
      (if 0 < limit then (σ.sort (matching since events)).take limit.toNat
        else σ.sort (matching since events)) = (σ.sort (matching since events)).take n := by
    refine ⟨_, rfl, ?_⟩
    split
    · rfl
    · rw [← hlength, List.take_length]
  rw [hcut]
  refine ⟨?_, ?_, ?_, fun x hx y hy => ?_⟩
  · exact σ.take_le _ n
  · apply ((σ.sorted (matching since events)).sublist (List.take_sublist _ _)).imp
    intro x y hxy
    exact Int.neg_le_neg_iff.mp hxy
  · rw [List.length_take, hlength, ← hn]
    split
    · rfl
    · exact Nat.min_self _
  · rw [σ.sub_take] at hy
    exact Int.neg_le_neg_iff.mp (σ.take_le_drop hx hy)

theorem Tops.nodup {events : Events} {out : List Event} (h : Tops limit since events out)
    (hk : Keyed events) : out.Nodup := by
  have hlive : (live events).Nodup := by
    apply Multiset.Nodup.of_map (·.hash)
    rw [hk.map_hash]
    exact events.keys.nodup
  exact Multiset.coe_nodup.mp (Multiset.nodup_of_le h.entries (hlive.filter _))

theorem topSince_tops (hnil : none ∉ values s.events) (limit : Int) (since : Time) (σ : Newest) :
    ∃ out, s.topSince limit since σ = some out ∧ Tops limit since s.events out := by
  unfold Store.topSince
  rw [dereferenced, if_neg hnil, Option.map_some]
  dsimp only
  rw [matching_eq]
  exact ⟨_, rfl, tops_cut limit since s.events σ⟩

theorem copies_spec (m : Memory) (es : List Event) :
    (m.copies es).pointers = m.pointers ∧ (∀ a < m.next, (m.copies es).heap a = m.heap a) ∧
      (List.range' m.next es.length).map (m.copies es).heap = es := by
  induction es generalizing m with
  | nil => exact ⟨rfl, fun a _ => rfl, rfl⟩
  | cons e es ih =>
    obtain ⟨hpointers, hold, hnew⟩ := ih ⟨m.pointers, Function.update m.heap m.next e, m.next + 1⟩
    refine ⟨hpointers, fun a ha => ?_, ?_⟩
    · exact (hold a (Nat.lt_succ_of_lt ha)).trans (Function.update_of_ne ha.ne _ _)
    · have hfirst := (hold m.next (Nat.lt_succ_self _)).trans (Function.update_self _ _ _)
      rw [List.length_cons, List.range'_succ, List.map_cons]
      exact congrArg₂ List.cons hfirst hnew

theorem contents_copies (hm : m.Separate) (es : List Event) :
    (m.copies es).contents = m.contents := by
  obtain ⟨hpointers, hold, -⟩ := copies_spec m es
  apply Finmap.ext_lookup
  intro h
  rw [lookup_contents, lookup_contents, hpointers]
  cases hp : m.pointers.lookup h with
  | none => rfl
  | some p =>
    cases p with
    | none => rfl
    | some a => simp only [Option.map_some, hold a (hm.fresh h a hp)]

theorem sorted_copies (m : Memory) (es : List Event)
    (σ : ∀ heap : Address → Event, Sorting fun a => -(heap a).lastSeen) :
    ∃ τ : Newest, τ.sort es = ((σ (m.copies es).heap).sort
      (List.range' m.next es.length)).map (m.copies es).heap := by
  obtain ⟨-, -, hnew⟩ := copies_spec m es
  apply exists_sorting
  · rw [← Multiset.map_coe, (σ (m.copies es).heap).perm, Multiset.map_coe, hnew]
  · rw [List.pairwise_map]
    exact (σ (m.copies es).heap).sorted _

theorem topSince_copies (limit : Int) (since : Time) (visits : Sorting fun _ : Event => 0)
    (σ : ∀ heap : Address → Event, Sorting fun a => -(heap a).lastSeen)
    (hnil : none ∉ values m.contents) :
    ∃ es out, m.topSince limit since visits σ = some (m.copies es, out) ∧
      (∀ a ∈ out, m.next ≤ a) ∧
      ∀ s : Store, s.events = m.contents →
        ∃ τ, s.topSince limit since τ = some (out.map (m.copies es).heap) := by
  obtain ⟨τ, hτ⟩ := sorted_copies m (visits.sort (matching since m.contents)) σ
  unfold Memory.topSince
  rw [dereferenced, if_neg hnil, Option.map_some, matching_eq]
  refine ⟨_, _, rfl, fun a ha => ?_, fun s hs => ⟨τ, ?_⟩⟩
  · have hsorted : a ∈ (σ (m.copies (visits.sort (matching since m.contents))).heap).sort
        (List.range' m.next (visits.sort (matching since m.contents)).length) := by
      split at ha
      · exact List.mem_of_mem_take ha
      · exact ha
    rw [Sorting.mem_sort, Multiset.mem_coe, List.mem_range'_1] at hsorted
    exact hsorted.1
  · rw [visits.perm] at hτ
    unfold Store.topSince
    rw [hs, dereferenced, if_neg hnil, Option.map_some, matching_eq]
    dsimp only
    rw [hτ, ← List.map_take, ← apply_ite (List.map _)]

/-- A reader gets the newest events of the store, as copies that the store does not point
to, and the store is as before. -/
theorem topSince_exact (limit : Int) (since : Time) (visits : Sorting fun _ : Event => 0)
    (σ : ∀ heap : Address → Event, Sorting fun a => -(heap a).lastSeen) {m : Memory}
    (hm : m.Separate) (hnil : none ∉ values m.contents) :
    ∃ m' out, m.topSince limit since visits σ = some (m', out) ∧
      Tops limit since m.contents (out.map m'.heap) ∧
      (Keyed m.contents → (out.map m'.heap).Nodup) ∧
      m'.pointers = m.pointers ∧ m'.contents = m.contents ∧
      ∀ a ∈ out, ∀ h, m'.pointers.lookup h ≠ some (some a) := by
  obtain ⟨es, out, hout, hfresh, hstore⟩ := topSince_copies limit since visits σ hnil
  obtain ⟨τ, hτ⟩ := hstore ⟨"", m.contents, 0, 0, 0, false⟩ rfl
  obtain ⟨top, htop, htops⟩ :=
    @topSince_tops ⟨"", m.contents, 0, 0, 0, false⟩ hnil limit since τ
  rw [hτ] at htop
  cases htop
  refine ⟨_, out, hout, htops, htops.nodup, (copies_spec m es).1, contents_copies hm es,
    fun a ha h hpointer => ?_⟩
  rw [(copies_spec m es).1] at hpointer
  exact absurd (hfresh a ha) (Nat.not_le_of_lt (hm.fresh h a hpointer))

end

def noMemory : Memory := ⟨∅, fun _ => boomEvent, 0⟩

theorem noMemory_separate : noMemory.Separate := by
  constructor <;> intro h <;> simp [noMemory]

def threeInMemory : Memory :=
  noMemory.writes [seen "0a" 10, seen "0b" 10, seen "0c" 5]
where
  seen (hash : String) (lastSeen : Time) : Write :=
    .insert hash { boomEvent with hash, lastSeen }

theorem threeInMemory_separate : threeInMemory.Separate := by
  simp only [threeInMemory, Memory.writes, List.foldl_cons, List.foldl_nil]
  exact ((noMemory_separate.write _).write _).write _

/-- The limit cuts between equals. -/
theorem topSince_exact_tied : ∃ m' out,
    threeInMemory.topSince 1 0 (anySorting _) (fun _ => anySorting _) = some (m', out) ∧
      Tops 1 0 threeInMemory.contents (out.map m'.heap) ∧
      (out.map m'.heap).map Event.lastSeen = [10] ∧
      m'.pointers = threeInMemory.pointers ∧ m'.contents = threeInMemory.contents ∧
      ∀ a ∈ out, ∀ h, m'.pointers.lookup h ≠ some (some a) := by
  obtain ⟨m', out, hout, htops, -, hsame⟩ := topSince_exact 1 0 (anySorting _)
    (fun _ => anySorting _) threeInMemory_separate (by decide)
  have hcard : (matching 0 threeInMemory.contents).card = 3 := by decide
  have hlength : (out.map m'.heap).length = 1 := by
    rw [htops.length, hcard]
    rfl
  obtain ⟨e, he⟩ := List.length_eq_one_iff.mp hlength
  have hmem : e ∈ matching 0 threeInMemory.contents :=
    Multiset.mem_of_le htops.entries (by rw [he]; exact Multiset.mem_singleton_self e)
  have hrest : ∀ x ∈ matching 0 threeInMemory.contents, x.lastSeen ≤ 10 ∧
      ¬ ∀ y ∈ matching 0 threeInMemory.contents - ([x] : List Event), y.lastSeen < 10 := by
    decide
  obtain ⟨hmost, hother⟩ := hrest e hmem
  have hlast : e.lastSeen = 10 := by
    refine le_antisymm hmost ?_
    by_contra hless
    refine hother fun y hy => lt_of_le_of_lt (htops.newest e ?_ y (by rwa [he])) (not_le.mp hless)
    rw [he]
    exact List.mem_singleton_self e
  exact ⟨m', out, hout, htops, by rw [he, List.map_singleton, hlast], hsame⟩

end LearnPg.Telemetry
