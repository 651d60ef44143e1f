import LearnPg.Telemetry.Restart

/-! A store that starts from any file. What is decoded may hold null events, events
under keys that are not their hashes, one hash more than once, and too many events. -/
namespace LearnPg.Telemetry

open LearnPg.Basis.Maps LearnPg.Basis.Runs

/-- The calls on an open store. A flush follows no pointer: it writes `null` for nil. -/
inductive Use where
  | operate (op : Op)
  | topSince (limit : Int) (since : Time) (σ : Newest)
  | flush (disk : Except String Unit)

def Store.use (sha256 : List UInt8 → List UInt8) (s : Store) : Use → Option Store
  | .operate op => op.run sha256 s
  | .topSince limit since σ => (s.topSince limit since σ).map fun _ => s
  | .flush _ => some s

def uses (sha256 : List UInt8 → List UInt8) (s : Store) : Machine Store Use :=
  ⟨s, Store.use sha256⟩

def Options.cutoff (opts : Options) (now : Time) : Time :=
  now - if opts.retention = 0 then 7 * 24 * 3600000000000 else opts.retention

/-- Not positive, it is no cap. -/
def Options.cap (opts : Options) : Int := if opts.maxEvents = 0 then 10000 else opts.maxEvents

/-- The store starts within its cap, and no later call fails on a nil pointer. -/
def Survivable (sha256 : List UInt8 → List UInt8) (json : Json) (opts : Options) (file : ReadFile)
    (now : Time) (σ : Oldest) : Prop :=
  ∃ s, newWithOptions json opts file now σ = some s ∧
    (∀ calls, ((uses sha256 s).run calls).isSome) ∧
    (0 < s.maxEvents → (len s.events : Int) ≤ s.maxEvents)

/-- Deleting the oldest events beyond the cap by their hashes deletes that many: they
are under different hashes, and each hash is a key. -/
def Evictable (cap : Int) (σ : Oldest) (events : Events) : Prop :=
  (len events : Int) ≤ cap ∨
    (oldestHashes σ (len events - cap.toNat) events).Nodup ∧
      ∀ k ∈ oldestHashes σ (len events - cap.toNat) events, k ∈ events

section

variable {sha256 : List UInt8 → List UInt8} {json : Json} {opts : Options} {file : ReadFile}
  {now : Time} {σ : Oldest} {events after : Events} {cap : Int} {s : Store}

theorem no_nil_empty : none ∉ values (∅ : Events) := by
  simp [mem_values]

theorem no_nil_mono (hnil : none ∉ values events)
    (hsub : ∀ h p, after.lookup h = some p → events.lookup h = some p) : none ∉ values after := by
  intro hafter
  obtain ⟨h, hh⟩ := mem_values.mp hafter
  exact hnil (mem_values.mpr ⟨h, hsub h _ hh⟩)

theorem no_nil_insert (hnil : none ∉ values events) (h : String) (e : Event) :
    none ∉ values (events.insert h (some e)) := by
  intro hafter
  obtain ⟨h', hh'⟩ := mem_values.mp hafter
  by_cases hsame : h' = h
  · rw [hsame, Finmap.lookup_insert] at hh'
    cases hh'
  · rw [Finmap.lookup_insert_of_ne _ hsame] at hh'
    exact hnil (mem_values.mpr ⟨h', hh'⟩)

theorem recent_sub (cutoff : Time) (h : String) (p : Option Event)
    (hp : (recent cutoff events).lookup h = some p) : events.lookup h = some p := by
  rw [recent, lookup_filter, Option.filter_eq_some_iff] at hp
  exact hp.1

theorem eraseAll_sub (ks : List String) (h : String) (p : Option Event)
    (hp : (eraseAll ks events).lookup h = some p) : events.lookup h = some p := by
  rw [lookup_eraseAll] at hp
  split at hp
  · cases hp
  · exact hp

theorem enforceCapLocked_runs (hnil : none ∉ values events) (cap : Int) (σ : Oldest) :
    ∃ after, enforceCapLocked cap σ events = some after ∧
      (∀ h p, after.lookup h = some p → events.lookup h = some p) ∧
      (0 < cap → ((len after : Int) ≤ cap ↔ Evictable cap σ events)) := by
  unfold enforceCapLocked
  split
  next hfits =>
    refine ⟨events, rfl, fun h p hp => hp, fun hcap => ?_⟩
    have hlen : (len events : Int) ≤ cap := by omega
    exact iff_of_true hlen (.inl hlen)
  next hexceeds =>
    rw [dereferenced, if_neg hnil]
    refine ⟨_, rfl, eraseAll_sub _, fun hcap => ?_⟩
    dsimp only
    rw [length_sort_live hnil]
    change _ ≤ cap ↔ _ ∨ _
    rw [or_iff_right (by omega), ← len_eraseAll_le_iff]
    have hsize : (oldestHashes σ (len events - cap.toNat) events).length =
        len events - cap.toNat := by
      rw [oldestHashes, List.length_map, List.length_take, length_sort_live hnil]
      omega
    unfold oldestHashes at hsize ⊢
    omega

theorem op_runs (hnil : none ∉ values s.events) (op : Op) :
    ∃ t, op.run sha256 s = some t ∧ none ∉ values t.events := by
  cases op with
  | record input now now' σ =>
    simp only [Op.run, Store.record]
    cases hold : s.events.lookup (hashEvent sha256 input.message input.stack input.url) with
    | none =>
      have hinserted := no_nil_insert hnil (input.hash sha256)
        (newEvent (input.hash sha256) input now now')
      obtain ⟨after, hafter, hsub, -⟩ := enforceCapLocked_runs hinserted s.maxEvents σ
      unfold RecordInput.hash at hafter
      rw [hafter]
      exact ⟨_, rfl, no_nil_mono hinserted hsub⟩
    | some p =>
      cases p with
      | none => exact absurd (mem_values.mpr ⟨_, hold⟩) hnil
      | some e => exact ⟨_, rfl, no_nil_insert hnil _ _⟩
  | purgeBefore cutoff =>
    simp only [Op.run, Store.purgeBefore, purgeBeforeLocked_recent hnil]
    exact ⟨_, rfl, no_nil_mono hnil (recent_sub cutoff)⟩
  | maintain now σ =>
    obtain ⟨purged, hpurged, hpurgedNil⟩ : ∃ purged, (if s.retention > 0 then
        purgeBeforeLocked (now - s.retention) s.events else some s.events) = some purged ∧
        none ∉ values purged := by
      split
      · exact ⟨_, purgeBeforeLocked_recent hnil _, no_nil_mono hnil (recent_sub _)⟩
      · exact ⟨_, rfl, hnil⟩
    obtain ⟨after, hafter, hsub, -⟩ := enforceCapLocked_runs hpurgedNil s.maxEvents σ
    simp only [Op.run, Store.maintain, hpurged, Option.bind_some, hafter]
    exact ⟨_, rfl, no_nil_mono hpurgedNil hsub⟩

theorem use_runs (sha256 : List UInt8 → List UInt8) (hnil : none ∉ values s.events) (call : Use) :
    ∃ t, s.use sha256 call = some t ∧ none ∉ values t.events := by
  cases call with
  | operate op => exact op_runs hnil op
  | topSince limit since σ =>
    simp only [Store.use, Store.topSince, dereferenced, if_neg hnil]
    exact ⟨s, rfl, hnil⟩
  | flush disk => exact ⟨s, rfl, hnil⟩

/-- A store without nil pointers never meets one. -/
theorem uses_run (s₀ : Store) (calls : List Use) (hnil : none ∉ values s.events) :
    ((uses sha256 s₀).runFrom s calls).isSome := by
  induction calls generalizing s with
  | nil => rfl
  | cons call calls ih =>
    obtain ⟨t, ht, htnil⟩ := use_runs sha256 hnil call
    simp only [Machine.runFrom, uses, ht, Option.bind_some]
    exact ih htnil

theorem newWithOptions_memory (hpath : opts.path = "") :
    newWithOptions json opts file now σ = some ⟨opts.path, ∅, opts.retention, opts.maxEvents,
      if 0 < opts.flushInterval then opts.flushInterval else 30000000000, false⟩ :=
  if_pos hpath

theorem newWithOptions_nil (hpath : opts.path ≠ "") (hnil : none ∈ values (load json file ∅)) :
    newWithOptions json opts file now σ = none := by
  unfold newWithOptions
  dsimp only
  rw [if_neg hpath, purgeBeforeLocked, if_pos hnil]
  rfl

theorem newWithOptions_runs (hpath : opts.path ≠ "") (hnil : none ∉ values (load json file ∅))
    (now : Time) (σ : Oldest) :
    ∃ s, newWithOptions json opts file now σ = some s ∧ s.maxEvents = opts.cap ∧
      none ∉ values s.events ∧ (0 < opts.cap → ((len s.events : Int) ≤ opts.cap ↔
        Evictable opts.cap σ (recent (opts.cutoff now) (load json file ∅)))) := by
  have hrecentNil := no_nil_mono hnil (recent_sub (opts.cutoff now))
  obtain ⟨after, hafter, hsub, hlen⟩ := enforceCapLocked_runs hrecentNil opts.cap σ
  unfold newWithOptions
  dsimp only
  rw [if_neg hpath, purgeBeforeLocked_recent hnil]
  unfold Options.cutoff Options.cap at hafter
  simp only [Option.bind_eq_bind, Option.bind_some, hafter]
  exact ⟨_, rfl, rfl, no_nil_mono hrecentNil hsub, hlen⟩

/-- A file is survived exactly when it decodes to no nil pointer and the cap, if there is
one, can take out of its recent events as many as are too many. -/
theorem file_survivable_iff (sha256 : List UInt8 → List UInt8) (json : Json) (opts : Options)
    (file : ReadFile) (now : Time) (σ : Oldest) :
    Survivable sha256 json opts file now σ ↔ opts.path = "" ∨
      none ∉ values (load json file ∅) ∧ (0 < opts.cap →
        Evictable opts.cap σ (recent (opts.cutoff now) (load json file ∅))) := by
  unfold Survivable
  by_cases hpath : opts.path = ""
  · rw [newWithOptions_memory hpath]
    refine iff_of_true ⟨_, rfl, fun calls => ?_, fun hcap => hcap.le⟩ (.inl hpath)
    exact uses_run _ calls no_nil_empty
  · rw [or_iff_right hpath]
    by_cases hnil : none ∈ values (load json file ∅)
    · rw [newWithOptions_nil hpath hnil]
      simp [hnil]
    · obtain ⟨s, hs, hcap, hsnil, hlen⟩ :=
        newWithOptions_runs hpath hnil now σ
      rw [hs, ← hcap] at *
      constructor
      · rintro ⟨s', hs', -, hfits⟩
        cases hs'
        exact ⟨hnil, fun h => (hlen h).mp (hfits h)⟩
      · rintro ⟨-, hevict⟩
        exact ⟨s, rfl, fun calls => uses_run s calls hsnil, fun h => (hlen h).mpr (hevict h)⟩

end

def nullText : String := "\x7b\"version\":1,\"events\":\x7b\"x\":null\x7d\x7d"

def nullJson : Json where
  marshal _ := .error "not called"
  unmarshal bytes :=
    if bytes = nullText.toUTF8.toList then .ok ⟨1, some (Finmap.singleton "x" none)⟩
    else .error "another file"

/-- A file with a null event fails the start. -/
theorem null_event_dereferenced :
    ¬ Survivable boomDigest nullJson ⟨"t.json", 0, 0, 0⟩ (.content nullText.toUTF8.toList) 0
      (anySorting _) := by
  rintro ⟨s, hs, -⟩
  rw [newWithOptions_nil (by decide)] at hs
  · cases hs
  · rw [mem_values]
    exact ⟨"x", by simp [load, nullJson]⟩

end LearnPg.Telemetry
