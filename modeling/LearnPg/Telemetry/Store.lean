import LearnPg.Basis.HexText
import LearnPg.Basis.Maps

/-! The store of client-side error reports: a map of pointers to events, each under
its hash, bounded by age and by number, and kept in one JSON file. An operation that
dereferences a nil pointer has no result. -/
namespace LearnPg.Telemetry

open LearnPg.Basis.Maps LearnPg.Basis

/-- `time.Time` and `time.Duration`, in nanoseconds. -/
abbrev Time := Int

def zeroTime : Time := -62135596800000000000

/-- `count` is an int64 that starts at 1 and goes up by 1 with a report: no run is long
enough to wrap it. -/
structure Event where
  hash : String
  message : String
  level : String
  url : String
  userAgent : String
  stack : String
  count : Int
  firstSeen : Time
  lastSeen : Time
  lastEventID : String
  lastTimestamp : Time
  deriving DecidableEq

/-- `none` is a nil pointer. -/
abbrev Events := Map String (Option Event)

/-- Zero values mean the defaults. -/
structure Options where
  path : String
  retention : Time
  maxEvents : Int
  flushInterval : Time

structure RecordInput where
  eventID : String
  timestamp : Time
  level : String
  message : String
  url : String
  userAgent : String
  stack : String

/-- `running` says that the channel that stops the flusher is still there. -/
structure Store where
  path : String
  events : Events
  retention : Time
  maxEvents : Int
  flushInterval : Time
  running : Bool

def orDefault (v fallback : String) : String := if v ≠ "" then v else fallback

def encodeToString (bytes : List UInt8) : List Char :=
  bytes.flatMap fun b => [HexText.lowerDigit (b.toNat / 16), HexText.lowerDigit (b.toNat % 16)]

def hashEvent (sha256 : List UInt8 → List UInt8) (message stack url : String) : String :=
  let bytes (s : String) := s.toUTF8.toList
  .ofList ((encodeToString (sha256 (bytes url ++ [0] ++ bytes message ++ [0] ++ bytes stack))).take
    16)

/-- Orders in which `sort.Slice` may leave the events, oldest first. -/
abbrev Oldest := Sorting Event.lastSeen

abbrev Newest := Sorting fun e : Event => -e.lastSeen

def newEvent (hash : String) (input : RecordInput) (firstSeen lastSeen : Time) : Event where
  hash := hash
  message := input.message
  level := input.level
  url := input.url
  userAgent := input.userAgent
  stack := input.stack
  count := 1
  firstSeen := firstSeen
  lastSeen := lastSeen
  lastEventID := input.eventID
  lastTimestamp := input.timestamp

def Event.merge (e : Event) (input : RecordInput) (now : Time) : Event :=
  { e with
    count := e.count + 1
    lastSeen := now
    lastEventID := input.eventID
    lastTimestamp := input.timestamp
    level := orDefault input.level e.level
    userAgent := orDefault input.userAgent e.userAgent }

/-- Looks at every event. -/
def purgeBeforeLocked (cutoff : Time) (events : Events) : Option Events :=
  if none ∈ values events then none
  else some (filter (fun _ e => e.all fun e => ¬ e.lastSeen < cutoff) events)

def live (events : Events) : Multiset Event := (values events).filterMap id

/-- The events that a loop over the pointers dereferences. -/
def dereferenced (events : Events) : Option (Multiset Event) :=
  if none ∈ values events then none else some (live events)

/-- Deletes by the field `hash` of the oldest events. -/
def enforceCapLocked (maxEvents : Int) (σ : Oldest) (events : Events) : Option Events :=
  if maxEvents ≤ 0 ∨ (len events : Int) ≤ maxEvents then some events
  else (dereferenced events).map fun s =>
    let all := σ.sort s
    eraseAll ((all.take (all.length - maxEvents.toNat)).map (·.hash)) events

/-- A new event takes both readings of the clock, a merge only the first. -/
def Store.record (sha256 : List UInt8 → List UInt8) (input : RecordInput) (now now' : Time)
    (σ : Oldest) (s : Store) : Option Store :=
  let h := hashEvent sha256 input.message input.stack input.url
  match s.events.lookup h with
  | some none => none
  | some (some e) => some { s with events := s.events.insert h (some (e.merge input now)) }
  | none =>
    (enforceCapLocked s.maxEvents σ (s.events.insert h (some (newEvent h input now now')))).map
      fun events => { s with events }

def Store.purgeBefore (cutoff : Time) (s : Store) : Option Store :=
  (purgeBeforeLocked cutoff s.events).map fun events => { s with events }

def Store.maintain (now : Time) (σ : Oldest) (s : Store) : Option Store :=
  let purged := if s.retention > 0 then purgeBeforeLocked (now - s.retention) s.events
    else some s.events
  (purged.bind (enforceCapLocked s.maxEvents σ)).map fun events => { s with events }

def Store.topSince (limit : Int) (since : Time) (σ : Newest) (s : Store) : Option (List Event) :=
  (dereferenced s.events).map fun all =>
    let out := σ.sort (all.filter fun e => since = zeroTime ∨ ¬ e.lastSeen < since)
    if 0 < limit then out.take limit.toNat else out

/-- `none` is a map that is nil. -/
structure PersistedFile where
  version : Int
  events : Option Events

/-- `encoding/json` on persisted files. -/
structure Json where
  marshal : PersistedFile → Except String (List UInt8)
  unmarshal : List UInt8 → Except String PersistedFile

/-- What `os.ReadFile` returns. -/
inductive ReadFile where
  | notExist
  | failed (err : String)
  | content (bytes : List UInt8)

def load (json : Json) (file : ReadFile) (events : Events) : Events :=
  match file with
  | .notExist | .failed _ => events
  | .content bytes =>
    match json.unmarshal bytes with
    | .error _ => events
    | .ok pf => pf.events.getD events

def newWithOptions (json : Json) (opts : Options) (file : ReadFile) (now : Time) (σ : Oldest) :
    Option Store :=
  let s : Store := ⟨opts.path, ∅, opts.retention, opts.maxEvents,
    if 0 < opts.flushInterval then opts.flushInterval else 30000000000, false⟩
  if opts.path = "" then some s
  else do
    let s := { s with
      retention := if s.retention = 0 then 7 * 24 * 3600000000000 else s.retention
      maxEvents := if s.maxEvents = 0 then 10000 else s.maxEvents
      events := load json file s.events }
    let events ← purgeBeforeLocked (now - s.retention) s.events
    let events ← enforceCapLocked s.maxEvents σ events
    return { s with events, running := true }

/-- What the file holds afterwards; `disk` is how the calls go that write it. A store
without a path writes nothing. -/
def Store.flush (json : Json) (disk : Except String Unit) (s : Store) :
    Except String (Option (List UInt8)) :=
  if s.path = "" then .ok none
  else do
    let bytes ← json.marshal ⟨1, some s.events⟩
    disk
    return some bytes

/-- The store after it, and what `Close` returns with what it wrote. -/
def Store.close (json : Json) (disk : Except String Unit) (s : Store) :
    Store × Except String (Option (List UInt8)) :=
  if s.path = "" ∨ ¬ s.running then (s, .ok none)
  else ({ s with running := false }, s.flush json disk)

/-! What the loops over the events do when each is stored under its own hash. -/

def Keyed (events : Events) : Prop :=
  ∀ h p, events.lookup h = some p → ∃ e, p = some e ∧ e.hash = h

/-- At most `cap` events are kept, and none that was dropped was seen later. -/
structure KeepsNewest (cap : Int) (before after : Events) : Prop where
  sub : ∀ h p, after.lookup h = some p → before.lookup h = some p
  fits : cap ≤ 0 ∨ (len before : Int) ≤ cap → after = before
  size : 0 < cap → cap < len before → (len after : Int) = cap
  newest : ∀ h e h' e', before.lookup h = some (some e) → after.lookup h = none →
    after.lookup h' = some (some e') → e.lastSeen ≤ e'.lastSeen

section

variable {events after : Events} {cutoff : Time} {cap : Int} {h : String} {e : Event}

theorem Keyed.not_nil (hk : Keyed events) : none ∉ values events := by
  intro hnil
  obtain ⟨h, hlookup⟩ := mem_values.mp hnil
  obtain ⟨e, he, -⟩ := hk h none hlookup
  cases he

theorem Keyed.mono (hk : Keyed events)
    (hsub : ∀ h p, after.lookup h = some p → events.lookup h = some p) : Keyed after :=
  fun h p hp => hk h p (hsub h p hp)

theorem Keyed.hash_eq (hk : Keyed events) (he : events.lookup h = some (some e)) :
    e.hash = h := by
  obtain ⟨e', he', hhash⟩ := hk h _ he
  cases he'
  exact hhash

theorem Keyed.insert (hk : Keyed events) (he : e.hash = h) :
    Keyed (events.insert h (some e)) := by
  intro h' p hp
  by_cases hsame : h' = h
  · rw [hsame, Finmap.lookup_insert] at hp
    cases hp
    exact ⟨e, rfl, he.trans hsame.symm⟩
  · rw [Finmap.lookup_insert_of_ne _ hsame] at hp
    exact hk h' p hp

theorem purge_sub {p : Option Event}
    (hp : (filter (fun _ e => e.all fun e => ¬ e.lastSeen < cutoff) events).lookup h = some p) :
    events.lookup h = some p := by
  rw [lookup_filter, Option.filter_eq_some_iff] at hp
  exact hp.1

theorem purgeBeforeLocked_eq (hk : Keyed events) (cutoff : Time) :
    purgeBeforeLocked cutoff events =
      some (filter (fun _ e => e.all fun e => ¬ e.lastSeen < cutoff) events) :=
  if_neg hk.not_nil

theorem mem_live : e ∈ live events ↔ ∃ h, events.lookup h = some (some e) := by
  simp [live, Multiset.mem_filterMap, mem_values]

theorem Keyed.map_hash (hk : Keyed events) : (live events).map (·.hash) = events.keys.val := by
  unfold live values
  rw [Multiset.filterMap_map, Multiset.map_filterMap]
  change _ = events.entries.map Sigma.fst
  rw [← Multiset.filterMap_eq_map]
  apply filterMap_congr
  intro x hx
  obtain ⟨e, he, hhash⟩ := hk x.1 x.2 (mem_entries.mp hx)
  simp [he, hhash]

theorem Keyed.lookup_live (hk : Keyed events) (he : e ∈ live events) :
    events.lookup e.hash = some (some e) := by
  obtain ⟨h, hh⟩ := mem_live.mp he
  rw [hk.hash_eq hh, hh]

def oldestHashes (σ : Oldest) (n : Nat) (events : Events) : List String :=
  ((σ.sort (live events)).take n).map (·.hash)

theorem length_sort_live (hnil : none ∉ values events) (σ : Oldest) :
    (σ.sort (live events)).length = len events := by
  have hvalues : (live events).map some = values events := by
    unfold live
    rw [Multiset.map_filterMap, filterMap_congr (g := some), Multiset.filterMap_some]
    intro p hp
    cases p with
    | none => exact absurd hp hnil
    | some e => rfl
  rw [σ.length_sort, ← card_values, ← hvalues, Multiset.card_map]

theorem Keyed.oldest_nodup (hk : Keyed events) (σ : Oldest) (n : Nat) :
    (oldestHashes σ n events).Nodup := by
  have hall : ((σ.sort (live events)).map (·.hash)).Nodup := by
    rw [← Multiset.coe_nodup, ← Multiset.map_coe, σ.perm, hk.map_hash]
    exact events.keys.nodup
  unfold oldestHashes
  rw [List.map_take]
  exact hall.sublist (List.take_sublist _ _)

theorem Keyed.oldest_mem (hk : Keyed events) (σ : Oldest) (n : Nat) :
    ∀ k ∈ oldestHashes σ n events, k ∈ events := by
  intro k hkey
  obtain ⟨d, hd, rfl⟩ := List.mem_map.mp hkey
  apply Finmap.mem_of_lookup_eq_some
  exact hk.lookup_live (σ.mem_sort.mp (List.mem_of_mem_take hd))

theorem Keyed.mem_oldest (hk : Keyed events) (σ : Oldest) (n : Nat)
    (he : events.lookup h = some (some e)) :
    h ∈ oldestHashes σ n events ↔ e ∈ (σ.sort (live events)).take n := by
  constructor
  · intro hin
    obtain ⟨d, hd, hhash⟩ := List.mem_map.mp hin
    have hsame := hk.lookup_live (σ.mem_sort.mp (List.mem_of_mem_take hd))
    rw [hhash, he] at hsame
    cases hsame
    exact hd
  · intro hin
    rw [← hk.hash_eq he]
    exact List.mem_map_of_mem hin

theorem Keyed.eraseOldest (hk : Keyed events) (σ : Oldest) (hcap : 0 < cap)
    (hlen : cap < len events) :
    KeepsNewest cap events
      (eraseAll (oldestHashes σ (len events - cap.toNat) events) events) := by
  refine ⟨fun h p hp => ?_, fun hfits => by omega, fun _ _ => ?_, ?_⟩
  · rw [lookup_eraseAll] at hp
    split at hp
    · cases hp
    · exact hp
  · have hsize : (oldestHashes σ (len events - cap.toNat) events).length =
        len events - cap.toNat := by
      rw [oldestHashes, List.length_map, List.length_take, length_sort_live hk.not_nil]
      omega
    have hle := (len_eraseAll_le_iff (m := events) _).mpr
      ⟨hk.oldest_nodup σ (len events - cap.toNat), hk.oldest_mem σ (len events - cap.toNat)⟩
    have hge := len_le_eraseAll (m := events) (oldestHashes σ (len events - cap.toNat) events)
    omega
  · intro h e h' e' he hnone hkept
    rw [lookup_eraseAll, he, ite_eq_left_iff] at hnone
    rw [lookup_eraseAll, ite_eq_iff] at hkept
    have hdropped : h ∈ oldestHashes σ (len events - cap.toNat) events := by
      by_contra hnot
      cases hnone hnot
    obtain ⟨-, hnil⟩ | ⟨hnot, he'⟩ := hkept
    · cases hnil
    rw [hk.mem_oldest σ _ he] at hdropped
    rw [hk.mem_oldest σ _ he'] at hnot
    have hmem := σ.mem_sort.mpr (mem_live.mpr ⟨h', he'⟩)
    rw [← List.take_append_drop (len events - cap.toNat) (σ.sort _)] at hmem
    exact σ.take_le_drop hdropped ((List.mem_append.mp hmem).resolve_left hnot)

/-- The cap keeps the newest events. -/
theorem enforceCapLocked_keeps (hk : Keyed events) (cap : Int) (σ : Oldest) :
    ∃ after, enforceCapLocked cap σ events = some after ∧ KeepsNewest cap events after := by
  unfold enforceCapLocked
  split
  next hfits =>
    refine ⟨events, rfl, fun h p hp => hp, fun _ => rfl, fun hcap hlen => ?_, ?_⟩
    · omega
    · intro h e h' e' he hnone _
      rw [he] at hnone
      cases hnone
  next hexceeds =>
    rw [dereferenced, if_neg hk.not_nil]
    refine ⟨_, rfl, ?_⟩
    dsimp only
    rw [length_sort_live hk.not_nil]
    exact hk.eraseOldest σ (by omega) (by omega)

end

end LearnPg.Telemetry
