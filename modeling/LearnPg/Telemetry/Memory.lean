import LearnPg.Telemetry.History

/-! The events behind their pointers. An operation makes its changes one at a time:
assignments to the fields of an event, an insertion, deletions. -/
namespace LearnPg.Telemetry

open LearnPg.Basis.Maps LearnPg.Basis.Runs

abbrev Address := Nat

/-- Events are allocated at `next`. -/
structure Memory where
  pointers : Map String (Option Address)
  heap : Address → Event
  next : Address

/-- The events that the pointers lead to. -/
def Memory.contents (m : Memory) : Events := mapValues (Option.map m.heap) m.pointers

inductive Assignment where
  | count (n : Int)
  | lastSeen (t : Time)
  | lastEventID (id : String)
  | lastTimestamp (t : Time)
  | level (s : String)
  | userAgent (s : String)

def Assignment.assign (e : Event) : Assignment → Event
  | .count n => { e with count := n }
  | .lastSeen t => { e with lastSeen := t }
  | .lastEventID id => { e with lastEventID := id }
  | .lastTimestamp t => { e with lastTimestamp := t }
  | .level s => { e with level := s }
  | .userAgent s => { e with userAgent := s }

inductive Write where
  | assign (a : Address) (x : Assignment)
  | insert (h : String) (e : Event)
  | delete (h : String)

def Memory.write (m : Memory) : Write → Memory
  | .assign a x => { m with heap := Function.update m.heap a (x.assign (m.heap a)) }
  | .insert h e =>
    ⟨m.pointers.insert h (some m.next), Function.update m.heap m.next e, m.next + 1⟩
  | .delete h => { m with pointers := m.pointers.erase h }

def Memory.writes (m : Memory) (ws : List Write) : Memory := ws.foldl Memory.write m

def Event.merging (e : Event) (input : RecordInput) (now : Time) : List Assignment :=
  [.count (e.count + 1), .lastSeen now, .lastEventID input.eventID,
    .lastTimestamp input.timestamp, .level (orDefault input.level e.level),
    .userAgent (orDefault input.userAgent e.userAgent)]

abbrev Visits := Sorting fun _ : String => 0

def expired (cutoff : Time) (events : Events) : Option (Multiset String) :=
  if none ∈ values events then none
  else some (filter (fun _ e => e.any fun e => e.lastSeen < cutoff) events).keys.val

/-- The hashes that the cap deletes. -/
def excess (maxEvents : Int) (σ : Oldest) (events : Events) : Option (List String) :=
  if maxEvents ≤ 0 ∨ (len events : Int) ≤ maxEvents then some []
  else (dereferenced events).map fun s =>
    let all := σ.sort s
    (all.take (all.length - maxEvents.toNat)).map (·.hash)

/-- What an operation writes while it holds the lock. -/
def Op.writes (sha256 : List UInt8 → List UInt8) (options : Store) (visits : Visits)
    (m : Memory) : Op → Option (List Write)
  | .record input now now' σ =>
    let h := input.hash sha256
    match m.pointers.lookup h with
    | some none => none
    | some (some a) => some (((m.heap a).merging input now).map (.assign a))
    | none =>
      let e := newEvent h input now now'
      (excess options.maxEvents σ (m.contents.insert h (some e))).map fun hashes =>
        .insert h e :: hashes.map .delete
  | .purgeBefore cutoff =>
    (expired cutoff m.contents).map fun keys => (visits.sort keys).map .delete
  | .maintain now σ =>
    let keys := if options.retention > 0 then expired (now - options.retention) m.contents
      else some 0
    keys.bind fun keys =>
      (excess options.maxEvents σ (eraseAll (visits.sort keys) m.contents)).map fun hashes =>
        (visits.sort keys ++ hashes).map .delete

/-- No two keys lead to one event, and what is allocated next is not in use. -/
structure Memory.Separate (m : Memory) : Prop where
  fresh : ∀ h a, m.pointers.lookup h = some (some a) → a < m.next
  alone : ∀ h h' a, m.pointers.lookup h = some (some a) →
    m.pointers.lookup h' = some (some a) → h = h'

section

variable {sha256 : List UInt8 → List UInt8} {m : Memory} {events : Events} {cutoff cap : Int}
  {h : String} {a : Address} {e : Event}

theorem lookup_contents (h : String) :
    m.contents.lookup h = (m.pointers.lookup h).map (Option.map m.heap) := by
  unfold Memory.contents
  exact lookup_mapValues _

theorem writes_cons (w : Write) (ws : List Write) : m.writes (w :: ws) = (m.write w).writes ws :=
  rfl

theorem contents_delete (h : String) : (m.write (.delete h)).contents = m.contents.erase h := by
  apply Finmap.ext_lookup
  intro k
  rw [lookup_contents]
  by_cases hk : k = h
  · rw [hk]
    simp [Memory.write]
  · simp [Memory.write, Finmap.lookup_erase_ne hk, lookup_contents]

theorem contents_deletes (ks : List String) :
    (m.writes (ks.map .delete)).contents = eraseAll ks m.contents := by
  induction ks generalizing m with
  | nil => rfl
  | cons k ks ih =>
    rw [List.map_cons, writes_cons, ih, contents_delete]
    rfl

theorem contents_insert (hm : m.Separate) (h : String) (e : Event) :
    (m.write (.insert h e)).contents = m.contents.insert h (some e) := by
  apply Finmap.ext_lookup
  intro k
  rw [lookup_contents]
  by_cases hk : k = h
  · rw [hk]
    simp [Memory.write]
  · simp only [Memory.write, Finmap.lookup_insert_of_ne _ hk, lookup_contents]
    cases hp : m.pointers.lookup k with
    | none => rfl
    | some p =>
      cases p with
      | none => rfl
      | some a =>
        have hne := (hm.fresh k a hp).ne
        simp [Function.update_of_ne hne]

theorem contents_update (hm : m.Separate) (ha : m.pointers.lookup h = some (some a)) (e : Event) :
    Memory.contents { m with heap := Function.update m.heap a e } =
      m.contents.insert h (some e) := by
  apply Finmap.ext_lookup
  intro k
  rw [lookup_contents]
  by_cases hk : k = h
  · rw [hk]
    simp [ha]
  · simp only [Finmap.lookup_insert_of_ne _ hk, lookup_contents]
    cases hp : m.pointers.lookup k with
    | none => rfl
    | some p =>
      cases p with
      | none => rfl
      | some b =>
        have hne : b ≠ a := by
          rintro rfl
          exact hk (hm.alone k h b hp ha)
        simp [Function.update_of_ne hne]

theorem writes_assign (a : Address) (xs : List Assignment) :
    m.writes (xs.map (.assign a)) =
      { m with heap := Function.update m.heap a (xs.foldl Assignment.assign (m.heap a)) } := by
  induction xs generalizing m with
  | nil => simp [Memory.writes]
  | cons x xs ih =>
    rw [List.map_cons, writes_cons, ih]
    simp [Memory.write]

theorem assign_merging (input : RecordInput) (now : Time) :
    (e.merging input now).foldl Assignment.assign e = e.merge input now := rfl

theorem enforceCapLocked_excess (cap : Int) (σ : Oldest) (events : Events) :
    enforceCapLocked cap σ events = (excess cap σ events).map (eraseAll · events) := by
  unfold enforceCapLocked excess
  split
  · rfl
  · rw [Option.map_map]
    rfl

theorem purgeBeforeLocked_expired (cutoff : Time) (events : Events) (visits : Visits) :
    purgeBeforeLocked cutoff events =
      (expired cutoff events).map fun keys => eraseAll (visits.sort keys) events := by
  unfold purgeBeforeLocked expired
  split
  next => rfl
  next hnil =>
    rw [Option.map_some]
    congr 1
    apply Finmap.ext_lookup
    intro h
    simp only [lookup_eraseAll, visits.mem_sort, Finset.mem_val, Finmap.mem_keys,
      ← Finmap.lookup_isSome, lookup_filter]
    cases hp : events.lookup h with
    | none => rfl
    | some p =>
      cases p with
      | none => exact absurd (mem_values.mpr ⟨h, hp⟩) hnil
      | some e => by_cases hseen : e.lastSeen < cutoff <;> simp [Option.filter, hseen]

theorem Memory.Separate.write (hm : m.Separate) (w : Write) : (m.write w).Separate := by
  cases w with
  | assign a x => exact ⟨hm.fresh, hm.alone⟩
  | delete h =>
    have hold : ∀ k p, (m.pointers.erase h).lookup k = some p → m.pointers.lookup k = some p := by
      intro k p hp
      by_cases hk : k = h
      · rw [hk, Finmap.lookup_erase] at hp
        cases hp
      · rwa [Finmap.lookup_erase_ne hk] at hp
    exact ⟨fun k a hk => hm.fresh k a (hold k _ hk),
      fun k k' a hk hk' => hm.alone k k' a (hold k _ hk) (hold k' _ hk')⟩
  | insert h e =>
    have hnew : ∀ k a, (m.pointers.insert h (some m.next)).lookup k = some (some a) →
        k = h ∧ a = m.next ∨ m.pointers.lookup k = some (some a) ∧ a < m.next := by
      intro k a hk
      by_cases hsame : k = h
      · rw [hsame, Finmap.lookup_insert] at hk
        cases hk
        exact .inl ⟨hsame, rfl⟩
      · rw [Finmap.lookup_insert_of_ne _ hsame] at hk
        exact .inr ⟨hk, hm.fresh k a hk⟩
    refine ⟨fun k a hk => ?_, fun k k' a hk hk' => ?_⟩
    · change a < m.next + 1
      obtain ⟨-, rfl⟩ | ⟨-, hlt⟩ := hnew k a hk
      · exact Nat.lt_succ_self _
      · exact hlt.trans (Nat.lt_succ_self _)
    · obtain ⟨rfl, rfl⟩ | ⟨hk, hlt⟩ := hnew k a hk
      · obtain ⟨rfl, -⟩ | ⟨-, hlt⟩ := hnew k' _ hk'
        · rfl
        · exact absurd hlt (Nat.lt_irrefl _)
      · obtain ⟨-, rfl⟩ | ⟨hk', -⟩ := hnew k' a hk'
        · exact absurd hlt (Nat.lt_irrefl _)
        · exact hm.alone k k' a hk hk'

theorem run_options {s t : Store} {op : Op} (h : op.run sha256 s = some t) :
    t = { s with events := t.events } := by
  cases op with
  | record input now now' σ =>
    simp only [Op.run, Store.record] at h
    split at h
    · cases h
    · cases h
      rfl
    · obtain ⟨events, -, rfl⟩ := Option.map_eq_some_iff.mp h
      rfl
  | purgeBefore cutoff =>
    obtain ⟨events, -, rfl⟩ := Option.map_eq_some_iff.mp h
    rfl
  | maintain now σ =>
    obtain ⟨events, -, rfl⟩ := Option.map_eq_some_iff.mp h
    rfl

/-- Its writes, all of them, do what the operation does. -/
theorem writes_run (sha256 : List UInt8 → List UInt8) (hm : m.Separate) (s : Store)
    (visits : Visits) (op : Op) :
    (op.writes sha256 s visits m).map (fun ws => (m.writes ws).contents) =
      (op.run sha256 { s with events := m.contents }).map (·.events) := by
  cases op with
  | record input now now' σ =>
    change _ = (Store.record sha256 input now now' σ _).map _
    simp only [Op.writes, Store.record, lookup_contents]
    cases hp : m.pointers.lookup (input.hash sha256) with
    | none =>
      unfold RecordInput.hash at hp
      simp only [hp, Option.map_none, enforceCapLocked_excess, Option.map_map]
      congr 1
      funext hashes
      simp only [Function.comp, writes_cons, contents_deletes, contents_insert hm]
      rfl
    | some p =>
      cases p with
      | none =>
        unfold RecordInput.hash at hp
        simp [hp]
      | some a =>
        simp only [Option.map_some, writes_assign, contents_update hm hp, assign_merging]
        unfold RecordInput.hash at hp ⊢
        simp [hp]
  | purgeBefore cutoff =>
    simp only [Op.writes, Op.run, Store.purgeBefore, purgeBeforeLocked_expired _ _ visits,
      Option.map_map]
    congr 1
    funext keys
    exact contents_deletes _
  | maintain now σ =>
    have hpurged : (if s.retention > 0 then
        purgeBeforeLocked (now - s.retention) m.contents else some m.contents) =
        (if s.retention > 0 then expired (now - s.retention) m.contents else some 0).map
          fun keys => eraseAll (visits.sort keys) m.contents := by
      split
      · exact purgeBeforeLocked_expired _ _ visits
      · rw [Option.map_some, visits.sort_zero]
        rfl
    simp only [Op.writes, Op.run, Store.maintain, hpurged]
    cases (if s.retention > 0 then expired (now - s.retention) m.contents else some 0) with
    | none => rfl
    | some keys =>
      simp only [Option.bind_some, Option.map_some, Option.map_map, enforceCapLocked_excess]
      congr 1
      funext hashes
      simp only [Function.comp, contents_deletes, eraseAll_append]

end

end LearnPg.Telemetry
