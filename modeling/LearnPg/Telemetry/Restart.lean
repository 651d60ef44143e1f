import LearnPg.Telemetry.History

/-! The store over restarts: what a close writes is what the next store starts from,
less the events that are too old or too many. -/
namespace LearnPg.Telemetry

open LearnPg.Basis.Maps LearnPg.Basis.Runs

structure Lives where
  file : ReadFile
  store : Option Store

/-- What happens next. `readError` and `disk` are how the calls of the file system go. -/
inductive Life where
  | new (opts : Options) (readError : Option String) (now : Time) (σ : Oldest)
  | operate (op : Op)
  | flush (disk : Except String Unit)
  | close (disk : Except String Unit)
  | crash

/-- The file after a flush that may have failed. -/
def ReadFile.written (file : ReadFile) : Except String (Option (List UInt8)) → ReadFile
  | .ok (some bytes) => .content bytes
  | _ => file

def Lives.step (sha256 : List UInt8 → List UInt8) (json : Json) (path : String) (l : Lives) :
    Life → Option Lives
  | .new opts readError now σ =>
    let read := readError.elim l.file .failed
    if l.store.isSome then none
    else (newWithOptions json { opts with path } read now σ).map fun s => { l with store := some s }
  | .operate op =>
    l.store.bind fun s => (op.run sha256 s).map fun s => { l with store := some s }
  | .flush disk => l.store.map fun s => { l with file := l.file.written (s.flush json disk) }
  | .close disk => l.store.map fun s => ⟨l.file.written (s.close json disk).2, none⟩
  | .crash => some { l with store := none }

def lives (sha256 : List UInt8 → List UInt8) (json : Json) (path : String) : Machine Lives Life :=
  ⟨⟨.notExist, none⟩, Lives.step sha256 json path⟩

/-- What is encoded is decoded to what it was. -/
def Json.RoundTrips (json : Json) : Prop :=
  ∀ pf bytes, json.marshal pf = .ok bytes → json.unmarshal bytes = .ok pf

def recent (cutoff : Time) (events : Events) : Events :=
  filter (fun _ e => e.any fun e => cutoff ≤ e.lastSeen) events

/-- Of the recent events all are there, or the `cap` newest, none of them changed. -/
structure Survives (cutoff : Time) (cap : Int) (old new : Events) : Prop where
  unchanged : ∀ h p, new.lookup h = some p →
    ∃ e, p = some e ∧ old.lookup h = some (some e) ∧ cutoff ≤ e.lastSeen
  all : (len (recent cutoff old) : Int) ≤ cap → ∀ h e, old.lookup h = some (some e) →
    cutoff ≤ e.lastSeen → new.lookup h = some (some e)
  size : cap < len (recent cutoff old) → (len new : Int) = cap
  newest : ∀ h e h' e', old.lookup h = some (some e) → cutoff ≤ e.lastSeen →
    new.lookup h = none → new.lookup h' = some (some e') → e.lastSeen ≤ e'.lastSeen

section

variable {sha256 : List UInt8 → List UInt8} {json : Json} {path : String} {events : Events}
  {cutoff : Time} {h : String} {e : Event} {opts : Options} {now : Time}

theorem lookup_recent : (recent cutoff events).lookup h = some (some e) ↔
    events.lookup h = some (some e) ∧ cutoff ≤ e.lastSeen := by
  unfold recent
  rw [lookup_filter, Option.filter_eq_some_iff]
  simp

theorem purgeBeforeLocked_recent (hnil : none ∉ values events) (cutoff : Time) :
    purgeBeforeLocked cutoff events = some (recent cutoff events) := by
  rw [purgeBeforeLocked, if_neg hnil]
  congr 1
  apply Finmap.ext_lookup
  intro h
  unfold recent
  rw [lookup_filter, lookup_filter]
  cases hp : events.lookup h with
  | none => rfl
  | some p =>
    cases p with
    | none => exact absurd (mem_values.mpr ⟨h, hp⟩) hnil
    | some e => simp [Option.filter]

theorem recent_keyed (hk : Keyed events) (cutoff : Time) : Keyed (recent cutoff events) := by
  apply hk.mono
  intro h p hp
  rw [recent, lookup_filter, Option.filter_eq_some_iff] at hp
  exact hp.1

theorem survives_of_keeps {cap : Int} {after : Events} (hk : Keyed events) (hcap : 0 < cap)
    (hkeeps : KeepsNewest cap (recent cutoff events) after) : Survives cutoff cap events after where
  unchanged := by
    intro h p hp
    obtain ⟨e, rfl, -⟩ := recent_keyed hk cutoff h p (hkeeps.sub h p hp)
    obtain ⟨hold, hseen⟩ := lookup_recent.mp (hkeeps.sub h _ hp)
    exact ⟨e, rfl, hold, hseen⟩
  all := by
    intro hfits h e hold hseen
    rw [hkeeps.fits (.inr hfits)]
    exact lookup_recent.mpr ⟨hold, hseen⟩
  size := hkeeps.size hcap
  newest := by
    intro h e h' e' hold hseen hdropped hkept
    exact hkeeps.newest h e h' e' (lookup_recent.mpr ⟨hold, hseen⟩) hdropped hkept

/-- A store starts with what survives of the events it loads. -/
theorem newWithOptions_survives (opts : Options) (hpath : opts.path ≠ "") {file : ReadFile}
    (hloaded : Keyed (load json file ∅)) (now : Time) (σ : Oldest) :
    ∃ s, newWithOptions json opts file now σ = some s ∧ Keyed s.events ∧ s.path = opts.path ∧
      s.running = true ∧ (0 < opts.retention → 0 < opts.maxEvents →
        Survives (now - opts.retention) opts.maxEvents (load json file ∅) s.events) := by
  unfold newWithOptions
  dsimp only
  rw [if_neg hpath]
  simp only [purgeBeforeLocked_recent hloaded.not_nil, Option.bind_eq_bind, Option.bind_some]
  obtain ⟨after, hafter, hkeeps⟩ := enforceCapLocked_keeps (recent_keyed hloaded
    (now - if opts.retention = 0 then 7 * 24 * 3600000000000 else opts.retention))
    (if opts.maxEvents = 0 then 10000 else opts.maxEvents) σ
  rw [hafter]
  refine ⟨_, rfl, (recent_keyed hloaded _).mono hkeeps.sub, rfl, rfl, fun hr hm => ?_⟩
  rw [if_neg hr.ne', if_neg hm.ne'] at hkeeps
  exact survives_of_keeps hloaded hm hkeeps

/-- The file, if there is one, can be loaded, and the events in the store are under
their own hashes. -/
structure Healthy (json : Json) (path : String) (l : Lives) : Prop where
  file : ∀ bytes, l.file = .content bytes →
    ∃ events, Keyed events ∧ json.unmarshal bytes = .ok ⟨1, some events⟩
  store : ∀ s, l.store = some s → Keyed s.events ∧ s.path = path ∧ s.running = true

theorem load_keyed {file : ReadFile} (hfile : ∀ bytes, file = .content bytes →
    ∃ events, Keyed events ∧ json.unmarshal bytes = .ok ⟨1, some events⟩) :
    Keyed (load json file ∅) := by
  have hempty : Keyed ∅ := by
    intro h p hp
    cases hp
  cases file with
  | notExist => exact hempty
  | failed err => exact hempty
  | content bytes =>
    obtain ⟨events, hk, hdecode⟩ := hfile bytes rfl
    unfold load
    dsimp only
    rw [hdecode]
    exact hk

theorem flush_ok {s : Store} {disk : Except String Unit} {written : Option (List UInt8)}
    (h : s.flush json disk = .ok written) : written = none ∧ s.path = "" ∨
      ∃ bytes, written = some bytes ∧ json.marshal ⟨1, some s.events⟩ = .ok bytes := by
  unfold Store.flush at h
  split at h
  next hpath =>
    cases h
    exact .inl ⟨rfl, hpath⟩
  next =>
    cases hmarshal : json.marshal ⟨1, some s.events⟩ with
    | error err =>
      rw [hmarshal] at h
      cases h
    | ok bytes =>
      rw [hmarshal] at h
      cases disk with
      | error err => cases h
      | ok =>
        cases h
        exact .inr ⟨bytes, rfl, rfl⟩

theorem flush_encodes {s : Store} {disk : Except String Unit} {bytes : List UInt8}
    (h : s.flush json disk = .ok (some bytes)) : json.marshal ⟨1, some s.events⟩ = .ok bytes := by
  obtain ⟨hnone, -⟩ | ⟨encoded, hsome, hmarshal⟩ := flush_ok h
  · cases hnone
  · cases hsome
    exact hmarshal

variable {l l' : Lives} {s : Store}

theorem written_file (hjson : json.RoundTrips) (hl : Healthy json path l)
    (hk : Keyed s.events) {written : Except String (Option (List UInt8))}
    (hwritten : ∀ bytes, written = .ok (some bytes) →
      json.marshal ⟨1, some s.events⟩ = .ok bytes) :
    ∀ bytes, l.file.written written = .content bytes →
      ∃ events, Keyed events ∧ json.unmarshal bytes = .ok ⟨1, some events⟩ := by
  intro bytes hbytes
  rcases written with err | _ | encoded
  · exact hl.file bytes hbytes
  · exact hl.file bytes hbytes
  · cases hbytes
    exact ⟨s.events, hk, hjson _ _ (hwritten _ rfl)⟩

theorem lives_healthy (hjson : json.RoundTrips) (hpath : path ≠ "") (hl : Healthy json path l)
    {a : Life} (h : l.step sha256 json path a = some l') : Healthy json path l' := by
  cases a with
  | new opts readError now σ =>
    simp only [Lives.step] at h
    split at h
    · cases h
    obtain ⟨s, hs, rfl⟩ := Option.map_eq_some_iff.mp h
    have hloaded : Keyed (load json (readError.elim l.file .failed) ∅) := by
      apply load_keyed
      intro bytes hbytes
      cases readError with
      | none => exact hl.file bytes hbytes
      | some err => cases hbytes
    obtain ⟨s', hs', hk, hsame, hrunning, -⟩ :=
      newWithOptions_survives { opts with path } hpath hloaded now σ
    rw [hs] at hs'
    cases hs'
    refine ⟨hl.file, fun s hs => ?_⟩
    cases hs
    exact ⟨hk, hsame, hrunning⟩
  | operate op =>
    obtain ⟨s, hs, h⟩ := Option.bind_eq_some_iff.mp h
    obtain ⟨t, ht, rfl⟩ := Option.map_eq_some_iff.mp h
    obtain ⟨hk, hsame, hrunning⟩ := hl.store s hs
    obtain ⟨t', ht', hsteps⟩ := op_steps sha256 hk op
    rw [ht] at ht'
    cases ht'
    refine ⟨hl.file, fun u hu => ?_⟩
    cases hu
    rw [hsteps.options]
    exact ⟨hsteps.keyed, hsame, hrunning⟩
  | flush disk =>
    obtain ⟨s, hs, rfl⟩ := Option.map_eq_some_iff.mp h
    obtain ⟨hk, -, -⟩ := hl.store s hs
    exact ⟨written_file hjson hl hk fun bytes => flush_encodes, hl.store⟩
  | close disk =>
    obtain ⟨s, hs, rfl⟩ := Option.map_eq_some_iff.mp h
    obtain ⟨hk, -, -⟩ := hl.store s hs
    refine ⟨written_file hjson hl hk fun bytes hbytes => ?_, nofun⟩
    unfold Store.close at hbytes
    split at hbytes
    · cases hbytes
    · exact flush_encodes hbytes
  | crash =>
    cases h
    exact ⟨hl.file, nofun⟩

/-- After any life of stores on a path, a close that reports no error, and a store opened
on what it wrote: the events of the closed store survive, and are not changed. -/
theorem restart_exact (hjson : json.RoundTrips) (hpath : path ≠ "") {steps : List Life}
    (hrun : (lives sha256 json path).run steps = some l) (hstore : l.store = some s)
    {disk : Except String Unit} {written : Option (List UInt8)}
    (hclose : (s.close json disk).2 = .ok written) (opts : Options) (hr : 0 < opts.retention)
    (hm : 0 < opts.maxEvents) (t : Time) (σ : Oldest) :
    ∃ s', newWithOptions json { opts with path } (l.file.written (s.close json disk).2) t σ =
        some s' ∧
      Survives (t - opts.retention) opts.maxEvents s.events s'.events := by
  have hhealthy : Healthy json path l := by
    apply run_keeps _ (fun l a l' hl h => lives_healthy hjson hpath hl h) hrun
    exact ⟨nofun, nofun⟩
  obtain ⟨hk, hsame, hrunning⟩ := hhealthy.store s hstore
  obtain ⟨bytes, hbytes, hmarshal⟩ : ∃ bytes, written = some bytes ∧
      json.marshal ⟨1, some s.events⟩ = .ok bytes := by
    unfold Store.close at hclose
    rw [if_neg (by simp [hsame, hpath, hrunning])] at hclose
    obtain ⟨-, hempty⟩ | hencoded := flush_ok hclose
    · exact absurd (hsame.symm.trans hempty) hpath
    · exact hencoded
  have hload : load json (l.file.written (s.close json disk).2) ∅ = s.events := by
    rw [hclose, hbytes]
    unfold load ReadFile.written
    dsimp only
    rw [hjson _ _ hmarshal]
    rfl
  have hloaded : Keyed (load json (l.file.written (s.close json disk).2) ∅) := by
    rw [hload]
    exact hk
  obtain ⟨s', hs', -, -, -, hsurvives⟩ :=
    newWithOptions_survives { opts with path } hpath hloaded t σ
  rw [hload] at hsurvives
  exact ⟨s', hs', hsurvives hr hm⟩

end

def boomEvent : Event :=
  ⟨"b254305fffd5f629", "boom", "error", "u", "ua/1", "s", 1, 0, 0, "e1", 0⟩

def boomFile : PersistedFile := ⟨1, some (Finmap.singleton "b254305fffd5f629" (some boomEvent))⟩

/-- What `json.MarshalIndent` makes of `boomFile`. -/
def boomText : String :=
  "\x7b
  \"version\": 1,
  \"events\": \x7b
    \"b254305fffd5f629\": \x7b
      \"hash\": \"b254305fffd5f629\",
      \"message\": \"boom\",
      \"level\": \"error\",
      \"url\": \"u\",
      \"userAgent\": \"ua/1\",
      \"stack\": \"s\",
      \"count\": 1,
      \"firstSeen\": \"1970-01-01T00:00:00Z\",
      \"lastSeen\": \"1970-01-01T00:00:00Z\",
      \"lastEventId\": \"e1\",
      \"lastTimestamp\": \"1970-01-01T00:00:00Z\"
    \x7d
  \x7d
\x7d"

def boomJson : Json where
  marshal pf :=
    if pf.version = 1 ∧ pf.events = boomFile.events then .ok boomText.toUTF8.toList
    else .error "another file"
  unmarshal bytes :=
    if bytes = boomText.toUTF8.toList then .ok boomFile else .error "another file"

theorem boomJson_roundTrips : boomJson.RoundTrips := by
  intro pf bytes h
  simp only [boomJson] at h ⊢
  split at h
  next hfile =>
    cases h
    obtain ⟨hv, he⟩ := hfile
    rw [if_pos rfl]
    cases pf
    dsimp only at hv he
    subst hv he
    rfl
  next => cases h

noncomputable def reported : List Life :=
  [.new ⟨"t.json", 0, 0, 0⟩ none 0 (anySorting _),
    .operate (.record { boom with timestamp := 0 } 0 0 (anySorting _))]

theorem restart_exact_reported :
    ∃ l s, (lives boomDigest boomJson "t.json").run reported = some l ∧ l.store = some s ∧
      ∃ s', newWithOptions boomJson ⟨"t.json", 5, 1, 0⟩
          (l.file.written (s.close boomJson (.ok ())).2) 5 (anySorting _) = some s' ∧
        Survives (5 - 5) 1 s.events s'.events := by
  have hrun : (lives boomDigest boomJson "t.json").run reported = some ⟨.notExist, some
      ⟨"t.json", Finmap.singleton "b254305fffd5f629" (some boomEvent), 7 * 24 * 3600000000000,
        10000, 30 * 1000000000, true⟩⟩ := rfl
  exact ⟨_, _, hrun, rfl, restart_exact boomJson_roundTrips (by decide) hrun rfl rfl
    ⟨"t.json", 5, 1, 0⟩ (by decide) (by decide) 5 (anySorting _)⟩

end LearnPg.Telemetry
