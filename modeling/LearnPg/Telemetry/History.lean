import LearnPg.Basis.Runs
import LearnPg.Telemetry.Store

/-! What an event in the store tells about the past: the calls of `Record` since it was
last put in. -/
namespace LearnPg.Telemetry

open LearnPg.Basis.Maps LearnPg.Basis.Runs

/-- The operations that change the events, with their readings of the clock. -/
inductive Op where
  | record (input : RecordInput) (now now' : Time) (σ : Oldest)
  | purgeBefore (cutoff : Time)
  | maintain (now : Time) (σ : Oldest)

def Op.readings : Op → List Time
  | .record _ now now' _ => [now, now']
  | .purgeBefore _ => []
  | .maintain now _ => [now]

section

variable (sha256 : List UInt8 → List UInt8)

def RecordInput.hash (input : RecordInput) : String :=
  hashEvent sha256 input.message input.stack input.url

def Op.run (s : Store) : Op → Option Store
  | .record input now now' σ => s.record sha256 input now now' σ
  | .purgeBefore cutoff => s.purgeBefore cutoff
  | .maintain now σ => s.maintain now σ

def Op.records (h : String) : Op → Bool
  | .record input .. => input.hash sha256 = h
  | _ => false

def operations (options : Store) : Machine Store Op :=
  ⟨{ options with events := ∅ }, fun s op => op.run sha256 s⟩

/-- The last `Record` that put in the event under a hash, after which it has been there
all the time, and the number of its `Record` calls since. -/
structure InsertedWith (options : Store) (ops : List Op) (h : String) (count : Int) : Prop where
  since : ∃ before input now now' σ after, ops = before ++ .record input now now' σ :: after ∧
    input.hash sha256 = h ∧
    (∃ s, (operations sha256 options).run before = some s ∧ h ∉ s.events) ∧
    (∀ mid, mid <+: after → ∃ s, (operations sha256 options).run
      (before ++ .record input now now' σ :: mid) = some s ∧ h ∈ s.events) ∧
    count = 1 + after.countP (Op.records sha256 h)

/-- An event as the operations so far leave it under a hash. -/
structure Traces (options : Store) (ops : List Op) (h : String) (e : Event) : Prop where
  own : e.hash = h
  fingerprint : hashEvent sha256 e.message e.stack e.url = h
  seen : e.firstSeen ≤ e.lastSeen
  counted : InsertedWith sha256 options ops h e.count

end

section

variable {sha256 : List UInt8 → List UInt8} {s t : Store} {op : Op} {h : String} {e : Event}

theorem record_merge {input : RecordInput} (h : s.events.lookup (input.hash sha256) = some (some e))
    (now now' : Time) (σ : Oldest) : s.record sha256 input now now' σ =
      some { s with events := s.events.insert (input.hash sha256) (some (e.merge input now)) } := by
  unfold RecordInput.hash at *
  simp only [Store.record, h]

theorem record_new {input : RecordInput} (h : s.events.lookup (input.hash sha256) = none)
    (now now' : Time) (σ : Oldest) : s.record sha256 input now now' σ =
      (enforceCapLocked s.maxEvents σ (s.events.insert (input.hash sha256)
        (some (newEvent (input.hash sha256) input now now')))).map
          fun events => { s with events } := by
  unfold RecordInput.hash at *
  simp only [Store.record, h]

theorem KeepsNewest.len_le {cap : Int} {before after : Events}
    (hkeeps : KeepsNewest cap before after) (hcap : 0 < cap) : (len after : Int) ≤ cap := by
  by_cases hlen : (len before : Int) ≤ cap
  · rw [hkeeps.fits (.inr hlen)]
    exact hlen
  · exact (hkeeps.size hcap (by omega)).le

/-- What an operation can do to an event: nothing, or record it. -/
inductive Comes (sha256 : List UInt8 → List UInt8) (s : Store) (op : Op) (h : String) (e : Event) :
    Prop where
  | kept (old : s.events.lookup h = some (some e)) (other : op.records sha256 h = false)
  | merged (input : RecordInput) (now now' : Time) (σ : Oldest) (e₀ : Event)
      (call : op = .record input now now' σ) (hash : input.hash sha256 = h)
      (old : s.events.lookup h = some (some e₀)) (new : e = e₀.merge input now)
  | inserted (input : RecordInput) (now now' : Time) (σ : Oldest)
      (call : op = .record input now now' σ) (hash : input.hash sha256 = h)
      (absent : s.events.lookup h = none) (new : e = newEvent h input now now')

structure Steps (sha256 : List UInt8 → List UInt8) (s : Store) (op : Op) (t : Store) : Prop where
  keyed : Keyed t.events
  options : t = { s with events := t.events }
  size : 0 < s.maxEvents → (len s.events : Int) ≤ s.maxEvents → (len t.events : Int) ≤ s.maxEvents
  comes : ∀ h e, t.events.lookup h = some (some e) → Comes sha256 s op h e

theorem record_steps (hk : Keyed s.events) (input : RecordInput) (now now' : Time) (σ : Oldest) :
    ∃ t, s.record sha256 input now now' σ = some t ∧
      Steps sha256 s (.record input now now' σ) t := by
  cases hold : s.events.lookup (input.hash sha256) with
  | none =>
    have hkeyed := hk.insert (h := input.hash sha256)
      (e := newEvent (input.hash sha256) input now now') rfl
    obtain ⟨after, hafter, hkeeps⟩ := enforceCapLocked_keeps hkeyed s.maxEvents σ
    rw [record_new hold, hafter]
    refine ⟨_, rfl, hkeyed.mono hkeeps.sub, rfl, fun hcap _ => hkeeps.len_le hcap, ?_⟩
    intro h e he
    have hlookup := hkeeps.sub h _ he
    by_cases hsame : h = input.hash sha256
    · rw [hsame, Finmap.lookup_insert] at hlookup
      cases hlookup
      exact .inserted input now now' σ rfl hsame.symm (by rw [hsame]; exact hold) (by rw [hsame])
    · rw [Finmap.lookup_insert_of_ne _ hsame] at hlookup
      exact .kept hlookup (decide_eq_false (Ne.symm hsame))
  | some p =>
    obtain ⟨e₀, rfl, hhash⟩ := hk _ p hold
    have hkeyed := hk.insert (h := input.hash sha256) (e := e₀.merge input now) hhash
    rw [record_merge hold]
    refine ⟨_, rfl, hkeyed, rfl, fun _ hlen => ?_, ?_⟩
    · rw [len_insert_of_mem (Finmap.mem_of_lookup_eq_some hold)]
      exact hlen
    · intro h e he
      by_cases hsame : h = input.hash sha256
      · rw [hsame, Finmap.lookup_insert] at he
        cases he
        exact .merged input now now' σ e₀ rfl hsame.symm (by rw [hsame]; exact hold) rfl
      · rw [Finmap.lookup_insert_of_ne _ hsame] at he
        exact .kept he (decide_eq_false (Ne.symm hsame))

theorem steps_of_sub {events : Events} (hk : Keyed s.events)
    (hop : ∀ h, op.records sha256 h = false)
    (hsub : ∀ h p, events.lookup h = some p → s.events.lookup h = some p)
    (hsize : 0 < s.maxEvents → (len s.events : Int) ≤ s.maxEvents →
      (len events : Int) ≤ s.maxEvents) :
    Steps sha256 s op { s with events } :=
  ⟨hk.mono hsub, rfl, hsize, fun h _ he => .kept (hsub h _ he) (hop h)⟩

theorem purgeBefore_steps (hk : Keyed s.events) (cutoff : Time) :
    ∃ t, s.purgeBefore cutoff = some t ∧ Steps sha256 s (.purgeBefore cutoff) t := by
  unfold Store.purgeBefore
  rw [purgeBeforeLocked_eq hk]
  refine ⟨_, rfl, steps_of_sub hk (fun _ => rfl) (fun h p => purge_sub) fun _ hlen => ?_⟩
  have hle := len_filter_le (m := s.events) fun _ e => e.all fun e => ¬ e.lastSeen < cutoff
  omega

theorem maintain_steps (hk : Keyed s.events) (now : Time) (σ : Oldest) :
    ∃ t, s.maintain now σ = some t ∧ Steps sha256 s (.maintain now σ) t := by
  obtain ⟨purged, hpurged, hsub⟩ : ∃ purged, (if s.retention > 0 then
      purgeBeforeLocked (now - s.retention) s.events else some s.events) = some purged ∧
      ∀ h p, purged.lookup h = some p → s.events.lookup h = some p := by
    split
    · exact ⟨_, purgeBeforeLocked_eq hk _, fun h p => purge_sub⟩
    · exact ⟨_, rfl, fun h p hp => hp⟩
  obtain ⟨after, hafter, hkeeps⟩ := enforceCapLocked_keeps (hk.mono hsub) s.maxEvents σ
  unfold Store.maintain
  rw [hpurged]
  simp only [Option.bind_some, hafter]
  refine ⟨_, rfl, steps_of_sub hk (fun _ => rfl) (fun h p hp => hsub h p (hkeeps.sub h p hp)) ?_⟩
  exact fun hcap _ => hkeeps.len_le hcap

theorem op_steps (sha256 : List UInt8 → List UInt8) (hk : Keyed s.events) (op : Op) :
    ∃ t, op.run sha256 s = some t ∧ Steps sha256 s op t := by
  cases op with
  | record input now now' σ => exact record_steps hk input now now' σ
  | purgeBefore cutoff => exact purgeBefore_steps hk cutoff
  | maintain now σ => exact maintain_steps hk now σ

variable {options : Store} {ops : List Op}

theorem InsertedWith.concat {count : Int} (hin : InsertedWith sha256 options ops h count)
    (hrun : (operations sha256 options).run (ops ++ [op]) = some t) (hmem : h ∈ t.events) :
    InsertedWith sha256 options (ops ++ [op]) h
      (if op.records sha256 h then count + 1 else count) := by
  obtain ⟨before, input, now, now', σ, after, rfl, hhash, habsent, hpresent, hcount⟩ := hin.since
  refine ⟨before, input, now, now', σ, after ++ [op], ?_, hhash, habsent, ?_, ?_⟩
  · simp
  · intro mid hmid
    obtain rfl | hmid := List.prefix_concat_iff.mp hmid
    · refine ⟨t, ?_, hmem⟩
      rw [← hrun]
      simp
    · exact hpresent mid hmid
  · rw [hcount, List.countP_append, List.countP_singleton]
    split
    · omega
    · omega

theorem InsertedWith.start {input : RecordInput} {now now' : Time} {σ : Oldest}
    (hhash : input.hash sha256 = h) (hbefore : (operations sha256 options).run ops = some s)
    (habsent : s.events.lookup h = none)
    (hrun : (operations sha256 options).run (ops ++ [.record input now now' σ]) = some t)
    (hmem : h ∈ t.events) :
    InsertedWith sha256 options (ops ++ [.record input now now' σ]) h 1 := by
  refine ⟨ops, input, now, now', σ, [], rfl, hhash, ⟨s, hbefore, ?_⟩, ?_, rfl⟩
  · exact Finmap.lookup_eq_none.mp habsent
  · intro mid hmid
    rw [List.prefix_nil.mp hmid]
    exact ⟨t, hrun, hmem⟩

/-- What the operations so far have left. The last sightings are readings of the clock. -/
structure Leaves (sha256 : List UInt8 → List UInt8) (options : Store) (ops : List Op) (s : Store) :
    Prop where
  run : (operations sha256 options).run ops = some s
  keyed : Keyed s.events
  maxEvents : s.maxEvents = options.maxEvents
  size : 0 < options.maxEvents → (len s.events : Int) ≤ options.maxEvents
  traces : ∀ h e, s.events.lookup h = some (some e) →
    Traces sha256 options ops h e ∧ e.lastSeen ∈ ops.flatMap Op.readings

theorem Leaves.comes (hs : Leaves sha256 options ops s)
    (hrun : (operations sha256 options).run (ops ++ [op]) = some t) (hmem : h ∈ t.events)
    (hclock : ((ops ++ [op]).flatMap Op.readings).Pairwise (· ≤ ·))
    (hcomes : Comes sha256 s op h e) :
    Traces sha256 options (ops ++ [op]) h e ∧ e.lastSeen ∈ (ops ++ [op]).flatMap Op.readings := by
  rw [List.flatMap_append, List.flatMap_singleton] at hclock ⊢
  obtain ⟨-, hop, horder⟩ := List.pairwise_append.mp hclock
  cases hcomes with
  | kept old other =>
    obtain ⟨htraces, hseen⟩ := hs.traces h e old
    have hcounted := htraces.counted.concat hrun hmem
    rw [other] at hcounted
    exact ⟨⟨htraces.own, htraces.fingerprint, htraces.seen, hcounted⟩,
      List.mem_append_left _ hseen⟩
  | merged input now now' σ e₀ call hash old new =>
    obtain ⟨htraces, hseen⟩ := hs.traces h e₀ old
    have hcounted := htraces.counted.concat hrun hmem
    subst call new
    have hrecords : Op.records sha256 h (.record input now now' σ) = true := decide_eq_true hash
    rw [if_pos hrecords] at hcounted
    have hlater := horder _ hseen now List.mem_cons_self
    refine ⟨⟨htraces.own, htraces.fingerprint, htraces.seen.trans hlater, hcounted⟩, ?_⟩
    exact List.mem_append_right _ List.mem_cons_self
  | inserted input now now' σ call hash absent new =>
    subst call new
    have hfirst : now ≤ now' := (List.pairwise_pair.mp hop)
    refine ⟨⟨rfl, hash, hfirst, .start hash hs.run absent hrun hmem⟩, ?_⟩
    exact List.mem_append_right _ (List.mem_cons_of_mem _ List.mem_cons_self)

theorem Leaves.concat (hs : Leaves sha256 options ops s) (op : Op)
    (hclock : ((ops ++ [op]).flatMap Op.readings).Pairwise (· ≤ ·)) :
    ∃ t, Leaves sha256 options (ops ++ [op]) t := by
  obtain ⟨t, ht, hsteps⟩ := op_steps sha256 hs.keyed op
  have hrun : (operations sha256 options).run (ops ++ [op]) = some t := by
    rw [run_concat hs.run]
    exact ht
  have hcap : t.maxEvents = s.maxEvents := by rw [hsteps.options]
  refine ⟨t, hrun, hsteps.keyed, hcap.trans hs.maxEvents, ?_, fun h e he => ?_⟩
  · rw [← hs.maxEvents]
    intro hcap
    apply hsteps.size hcap
    rw [hs.maxEvents] at hcap ⊢
    exact hs.size hcap
  · exact hs.comes hrun (Finmap.mem_of_lookup_eq_some he) hclock (hsteps.comes h e he)

theorem operations_leave (sha256 : List UInt8 → List UInt8) (options : Store) (ops : List Op)
    (hclock : (ops.flatMap Op.readings).Pairwise (· ≤ ·)) :
    ∃ s, Leaves sha256 options ops s := by
  induction ops using List.reverseRecOn with
  | nil =>
    refine ⟨_, rfl, ?_, rfl, fun hcap => ?_, ?_⟩
    · intro h p hp
      cases hp
    · exact hcap.le
    · intro h e he
      cases he
  | append_singleton ops op ih =>
    rw [List.flatMap_append] at hclock
    obtain ⟨s, hs⟩ := ih (List.pairwise_append.mp hclock).1
    rw [← List.flatMap_append] at hclock
    exact hs.concat op hclock

/-- From an empty store, under any clock that does not go back, the operations never
meet a nil pointer, keep the number of events within the cap, and leave every event
under its hash with the count of its reports since it was put in. -/
theorem store_history (sha256 : List UInt8 → List UInt8) (options : Store) (ops : List Op)
    (hclock : (ops.flatMap Op.readings).Pairwise (· ≤ ·)) :
    ∃ s, (operations sha256 options).run ops = some s ∧
      (∀ h p, s.events.lookup h = some p →
        ∃ e, p = some e ∧ Traces sha256 options ops h e) ∧
      (0 < options.maxEvents → (len s.events : Int) ≤ options.maxEvents) := by
  obtain ⟨s, hs⟩ := operations_leave sha256 options ops hclock
  refine ⟨s, hs.run, fun h p hp => ?_, hs.size⟩
  obtain ⟨e, rfl, -⟩ := hs.keyed h p hp
  exact ⟨e, rfl, (hs.traces h e hp).1⟩

end

def boomDigest (_ : List UInt8) : List UInt8 :=
  [178, 84, 48, 95, 255, 213, 246, 41, 62, 177, 30, 108, 212, 88, 16, 194, 29, 123, 79, 213, 14, 2,
    155, 241, 232, 95, 204, 252, 56, 88, 151, 143]

def boom : RecordInput := ⟨"e1", 1, "error", "boom", "u", "ua/1", "s"⟩

def memoryOnly : Store := ⟨"", ∅, 0, 1, 30000000000, false⟩

noncomputable def twoReports : List Op :=
  [.record boom 1 2 (anySorting _), .record boom 5 5 (anySorting _)]

theorem store_history_twoReports :
    ∃ s, (operations boomDigest memoryOnly).run twoReports = some s ∧
      (∀ h p, s.events.lookup h = some p →
        ∃ e, p = some e ∧ Traces boomDigest memoryOnly twoReports h e) ∧
      (0 < memoryOnly.maxEvents → (len s.events : Int) ≤ memoryOnly.maxEvents) :=
  store_history boomDigest memoryOnly twoReports (by decide)

end LearnPg.Telemetry
