import LearnPg.Telemetry.NewestKept
import Mathlib.Logic.Function.Basic

/-! Batches of error reports that are posted at the same time. What is new in a batch is
told from the number of events before and after each of its reports is recorded; the
store is unlocked between these readings. -/
namespace LearnPg.Api
open Telemetry LearnPg.Basis.Maps LearnPg.Basis.Runs

structure TelemetryReport where
  eventID : String
  timestamp : String
  level : String
  message : String
  stack : String
  url : String
  userAgent : String

/-- `encoding/json` on envelopes, of which the reports are kept, and on reports, and
`time.Parse` for `time.RFC3339`. -/
structure Decoding where
  envelope : List UInt8 → Except String (List (List UInt8))
  report : List UInt8 → Except String TelemetryReport
  parseTime : String → Option Time

/-- The body up to its end, or up to where reading it fails. -/
structure ErrorsRequest where
  method : String
  body : List UInt8
  failure : Option String

def parseTimestamp (d : Decoding) (s : String) : Time :=
  if s = "" then zeroTime else (d.parseTime s).getD zeroTime

def TelemetryReport.input (d : Decoding) (rep : TelemetryReport) : RecordInput where
  eventID := rep.eventID
  timestamp := parseTimestamp d rep.timestamp
  level := rep.level
  message := rep.message
  url := rep.url
  userAgent := rep.userAgent
  stack := rep.stack

/-- `io.ReadAll(io.LimitReader(r.Body, 1<<20))` -/
def ErrorsRequest.readAll (r : ErrorsRequest) : Except String (List UInt8) :=
  if r.body.length ≥ 2 ^ 20 then .ok (r.body.take (2 ^ 20))
  else match r.failure with
    | some err => .error err
    | none => .ok r.body

/-- `none` is a report that does not parse. -/
def ErrorsRequest.reports (d : Decoding) (r : ErrorsRequest) :
    Except (Nat × String) (List (Option RecordInput)) :=
  if r.method ≠ "POST" then .error (405, "POST required")
  else match r.readAll with
    | .error err => .error (400, "read body: " ++ err)
    | .ok [] => .ok []
    | .ok body =>
      match d.envelope body with
      | .error err => .error (400, "decode: " ++ err)
      | .ok reports => .ok (reports.map fun raw => (d.report raw).toOption.map (·.input d))

/-- Where the handler is in its loop. Of what is in a phase it knows the report and the
number of events `before`. Since that reading, `own` is by how much its report has changed
this number, and `others` by how much anything else has. -/
inductive Phase where
  | next
  | measured (input : RecordInput) (before : Nat) (others : Int)
  | recorded (before : Nat) (absent : Bool) (own others : Int)
  | accepted
  | rejected (status : Nat) (message : String)

/-- A request with its reports, those that are still to come, and the counts; `absent`
and `present` count what the handler does not know, whether the hashes of its reports were
in the store when they were recorded. -/
structure Batch where
  reports : List (Option RecordInput)
  rest : List (Option RecordInput)
  newCount : Nat
  dupCount : Nat
  phase : Phase
  absent : Nat
  present : Nat

def Batch.start (d : Decoding) (r : ErrorsRequest) : Batch :=
  match r.reports d with
  | .ok reports => ⟨reports, reports, 0, 0, .next, 0, 0⟩
  | .error (status, message) => ⟨[], [], 0, 0, .rejected status message, 0, 0⟩

/-- A step of the handler, other than `Record`; `size` is what `Len` returns. -/
def Batch.advance (size : Nat) (b : Batch) : Option Batch :=
  match b.phase, b.rest with
  | .next, [] => some { b with phase := .accepted }
  | .next, none :: rest => some { b with rest }
  | .next, some input :: rest => some { b with rest, phase := .measured input size 0 }
  | .recorded before _ _ _, _ =>
    if size > before then some { b with newCount := b.newCount + 1, phase := .next }
    else some { b with dupCount := b.dupCount + 1, phase := .next }
  | _, _ => none

def Batch.recorded (absent : Bool) (own : Int) (b : Batch) (before : Nat) (others : Int) : Batch :=
  { b with
    phase := .recorded before absent own others
    absent := if absent then b.absent + 1 else b.absent
    present := if absent then b.present else b.present + 1 }

def Phase.drift (change : Int) : Phase → Phase
  | .measured input before others => .measured input before (others + change)
  | .recorded before absent own others => .recorded before absent own (others + change)
  | phase => phase

def Batch.drift (change : Int) (b : Batch) : Batch := { b with phase := b.phase.drift change }

structure Server where
  store : Store
  batches : Nat → Option Batch

inductive Label where
  | post (i : Nat) (r : ErrorsRequest)
  | advance (i : Nat)
  | record (i : Nat) (now now' : Time) (σ : Oldest)
  | operate (op : Op)

def Server.put (s : Server) (i : Nat) (b : Batch) : Server :=
  { s with batches := Function.update s.batches i (some b) }

def Server.growth (s : Server) (store : Store) : Int := len store.events - len s.store.events

def Server.change (s : Server) (store : Store) : Server :=
  ⟨store, fun i => (s.batches i).map (Batch.drift (s.growth store))⟩

section

variable (d : Decoding) (sha256 : List UInt8 → List UInt8)

def Server.step (s : Server) : Label → Option Server
  | .post i r => if (s.batches i).isSome then none else some (s.put i (.start d r))
  | .advance i =>
    (s.batches i).bind fun b => (b.advance (len s.store.events)).map (s.put i)
  | .record i now now' σ =>
    (s.batches i).bind fun b =>
      match b.phase with
      | .measured input before others =>
        (s.store.record sha256 input now now' σ).map fun store =>
          (s.change store).put i
            (b.recorded (input.hash sha256 ∉ s.store.events) (s.growth store) before others)
      | _ => none
  | .operate op => (op.run sha256 s.store).map s.change

/-- The batches that are posted to a store, and whatever else is done with it. -/
def telemetry (store : Store) : Machine Server Label :=
  ⟨⟨store, fun _ => none⟩, Server.step d sha256⟩

end

/-- What a step can do. -/
inductive Stepped (d : Decoding) (sha256 : List UInt8 → List UInt8) (s : Server) :
    Label → Server → Prop where
  | post (i : Nat) (r : ErrorsRequest) : Stepped d sha256 s (.post i r) (s.put i (.start d r))
  | advance {i : Nat} {b b' : Batch} (batch : s.batches i = some b)
      (next : b.advance (len s.store.events) = some b') :
      Stepped d sha256 s (.advance i) (s.put i b')
  | record {i : Nat} {b : Batch} {input : RecordInput} {before : Nat} {others : Int}
      {now now' : Time} {σ : Oldest} {store : Store} (batch : s.batches i = some b)
      (phase : b.phase = .measured input before others)
      (recorded : s.store.record sha256 input now now' σ = some store) :
      Stepped d sha256 s (.record i now now' σ) ((s.change store).put i
        (b.recorded (input.hash sha256 ∉ s.store.events) (s.growth store) before others))
  | operate {op : Op} {store : Store} (ran : op.run sha256 s.store = some store) :
      Stepped d sha256 s (.operate op) (s.change store)

/-- The number of events has grown exactly if the report's hash was not there. -/
def Batch.Judged (b : Batch) : Prop :=
  match b.phase with
  | .recorded _ absent own others => 0 < own + others ↔ absent = true
  | _ => True

/-- A step of a handler, `Record` apart, is taken on a batch that meets `cond`. -/
def Advances (cond : Batch → Prop) (s : Server) : Label → Prop
  | .advance i => ∀ b, s.batches i = some b → cond b
  | _ => True

def Phase.owed (absent : Bool) : Phase → Nat
  | .recorded _ a _ _ => if a = absent then 1 else 0
  | _ => 0

def Phase.Measures (size : Nat) : Phase → Prop
  | .measured _ before others => (size : Int) = before + others
  | .recorded before _ own others => (size : Int) = before + own + others
  | _ => True

/-- What is counted so far is right. -/
structure Batch.Sound (size : Nat) (b : Batch) : Prop where
  new : b.absent = b.newCount + b.phase.owed true
  dup : b.present = b.dupCount + b.phase.owed false
  size : b.phase.Measures size

def Server.Every (P : Nat → Batch → Prop) (s : Server) : Prop :=
  ∀ i b, s.batches i = some b → P (len s.store.events) b

def parseable (reports : List (Option RecordInput)) : Nat := reports.countP (·.isSome)

def Phase.inHand : Phase → Nat
  | .measured _ _ _ | .recorded _ _ _ _ => 1
  | _ => 0

def Batch.Counted (b : Batch) : Prop :=
  b.newCount + b.dupCount + b.phase.inHand + parseable b.rest = parseable b.reports ∧
    (b.phase = .accepted → b.rest = [])

/-- By how much a report changes the number of events. -/
def recordGrowth (sha256 : List UInt8 → List UInt8) (input : RecordInput) (s : Store) : Int :=
  if input.hash sha256 ∈ s.events then 0
  else if s.maxEvents ≤ 0 ∨ len s.events < s.maxEvents then 1
  else s.maxEvents - len s.events

section

variable {d : Decoding} {sha256 : List UInt8 → List UInt8} {b b' : Batch} {s t : Server}
  {P : Nat → Batch → Prop} {size size' : Nat} {label : Label} {i : Nat}
  {store : Store}

theorem start_sound (r : ErrorsRequest) (size : Nat) : (Batch.start d r).Sound size := by
  unfold Batch.start
  split
  · exact ⟨rfl, rfl, trivial⟩
  · exact ⟨rfl, rfl, trivial⟩

theorem start_counted (r : ErrorsRequest) : (Batch.start d r).Counted := by
  unfold Batch.start
  split
  · exact ⟨by simp [Phase.inHand], nofun⟩
  · exact ⟨by simp [Phase.inHand], nofun⟩

theorem drift_sound (hb : b.Sound size) : (b.drift (size' - size)).Sound size' := by
  obtain ⟨hnew, hdup, hsize⟩ := hb
  unfold Batch.drift
  cases hphase : b.phase with
  | measured input before others =>
    rw [hphase] at hnew hdup hsize
    refine ⟨hnew, hdup, ?_⟩
    simp only [Phase.drift, Phase.Measures] at hsize ⊢
    omega
  | recorded before absent own others =>
    rw [hphase] at hnew hdup hsize
    refine ⟨hnew, hdup, ?_⟩
    simp only [Phase.drift, Phase.Measures] at hsize ⊢
    omega
  | next | accepted | rejected =>
    rw [hphase] at hnew hdup
    exact ⟨hnew, hdup, trivial⟩

theorem drift_counted (change : Int) (hb : b.Counted) : (b.drift change).Counted := by
  unfold Batch.Counted Batch.drift at *
  cases hphase : b.phase <;> simpa [hphase, Phase.drift, Phase.inHand] using hb

theorem recorded_sound {input : RecordInput} {before : Nat} {others : Int} (absent : Bool)
    (hphase : b.phase = .measured input before others) (hb : b.Sound size) :
    (b.recorded absent (size' - size) before others).Sound size' := by
  obtain ⟨hnew, hdup, hsize⟩ := hb
  rw [hphase] at hnew hdup hsize
  simp only [Phase.owed, Phase.Measures] at hnew hdup hsize
  refine ⟨?_, ?_, ?_⟩
  · cases absent <;> simp [Batch.recorded, Phase.owed, hnew]
  · cases absent <;> simp [Batch.recorded, Phase.owed, hdup]
  · simp only [Batch.recorded, Phase.Measures]
    omega

theorem recorded_counted {input : RecordInput} {before : Nat} {others : Int} (absent : Bool)
    (own : Int) (hphase : b.phase = .measured input before others) (hb : b.Counted) :
    (b.recorded absent own before others).Counted := by
  unfold Batch.Counted at *
  simpa [hphase, Batch.recorded, Phase.inHand] using hb

/-- The one step that may be wrong is the comparison. -/
theorem advance_sound_iff (hb : b.Sound size) (hstep : b.advance size = some b') :
    b'.Sound size ↔ b.Judged := by
  obtain ⟨hnew, hdup, hsize⟩ := hb
  unfold Batch.advance at hstep
  unfold Batch.Judged
  split at hstep
  next hphase _ =>
    cases hstep
    rw [hphase] at hnew hdup
    simp only [hphase, iff_true]
    exact ⟨hnew, hdup, trivial⟩
  next hphase _ =>
    cases hstep
    rw [hphase] at hnew hdup
    simp only [hphase, iff_true]
    exact ⟨hnew, hdup, by simp [Phase.Measures]⟩
  next hphase _ =>
    cases hstep
    rw [hphase] at hnew hdup
    simp only [hphase, iff_true]
    exact ⟨hnew, hdup, by simp [Phase.Measures]⟩
  next before absent own others hphase =>
    rw [hphase] at hnew hdup hsize
    simp only [Phase.owed, Phase.Measures] at hnew hdup hsize
    simp only [hphase]
    split at hstep
    next hgrown =>
      cases hstep
      have hgrew : 0 < own + others := by omega
      rw [iff_true_left hgrew]
      constructor
      · rintro ⟨hnew', -, -⟩
        simp only [Phase.owed] at hnew'
        cases absent <;> simp at *; omega
      · rintro rfl
        exact ⟨by simpa [Phase.owed] using hnew, by simpa [Phase.owed] using hdup, trivial⟩
    next hsame =>
      cases hstep
      have hstill : ¬ 0 < own + others := by omega
      rw [iff_false_left hstill, Bool.not_eq_true]
      constructor
      · rintro ⟨hnew', -, -⟩
        simp only [Phase.owed] at hnew'
        cases absent <;> simp at *; omega
      · rintro rfl
        exact ⟨by simpa [Phase.owed] using hnew, by simpa [Phase.owed] using hdup, trivial⟩
  next => cases hstep

theorem advance_counted (hb : b.Counted) (hstep : b.advance size = some b') : b'.Counted := by
  unfold Batch.Counted at *
  unfold Batch.advance at hstep
  split at hstep
  next hphase hrest =>
    cases hstep
    simpa [hphase, hrest, Phase.inHand] using hb
  next hphase hrest =>
    cases hstep
    simpa [hphase, hrest, Phase.inHand, parseable] using hb
  next hphase hrest =>
    cases hstep
    simp [hphase, hrest, Phase.inHand, parseable] at hb ⊢
    omega
  next hphase =>
    split at hstep
    next =>
      cases hstep
      simp [hphase, Phase.inHand] at hb ⊢
      omega
    next =>
      cases hstep
      simp [hphase, Phase.inHand] at hb ⊢
      omega
  next => cases hstep

theorem step_cases (hstep : s.step d sha256 label = some t) : Stepped d sha256 s label t := by
  cases label with
  | post i r =>
    simp only [Server.step] at hstep
    split at hstep
    · cases hstep
    · cases hstep
      exact .post i r
  | advance i =>
    obtain ⟨b, hb, hstep⟩ := Option.bind_eq_some_iff.mp hstep
    obtain ⟨b', hb', rfl⟩ := Option.map_eq_some_iff.mp hstep
    exact .advance hb hb'
  | record i now now' σ =>
    obtain ⟨b, hb, hstep⟩ := Option.bind_eq_some_iff.mp hstep
    split at hstep
    next hphase =>
      obtain ⟨store, hstore, rfl⟩ := Option.map_eq_some_iff.mp hstep
      exact .record hb hphase hstore
    next => cases hstep
  | operate op =>
    obtain ⟨store, hstore, rfl⟩ := Option.map_eq_some_iff.mp hstep
    exact .operate hstore

theorem change_every (hdrift : ∀ b size size', P size b → P size' (b.drift (size' - size)))
    (hs : s.Every P) (store : Store) : (s.change store).Every P := by
  intro i b' hb'
  obtain ⟨b, hb, rfl⟩ := Option.map_eq_some_iff.mp hb'
  exact hdrift b _ _ (hs i b hb)

@[simp] theorem put_batches (s : Server) (i : Nat) (b : Batch) :
    (s.put i b).batches i = some b := Function.update_self ..

@[simp] theorem put_store (s : Server) (i : Nat) (b : Batch) : (s.put i b).store = s.store := rfl

@[simp] theorem change_store (s : Server) (store : Store) : (s.change store).store = store := rfl

theorem put_every_iff (hs : s.Every P) : (s.put i b).Every P ↔ P (len s.store.events) b := by
  constructor
  · intro hput
    exact hput i b (put_batches s i b)
  · intro hb j b' hj
    simp only [Server.put, Function.update_apply] at hj
    split at hj
    · cases hj
      exact hb
    · exact hs j b' hj

/-- What a batch has at first, and keeps whatever else is done, it has after a step exactly
if its handler takes the step on a batch that meets `cond`. -/
theorem step_every_iff (cond : Batch → Prop) (hstart : ∀ r size, P size (.start d r))
    (hdrift : ∀ b size size', P size b → P size' (b.drift (size' - size)))
    (hrecorded : ∀ b size size' input before others absent,
      b.phase = .measured input before others → P size b →
        P size' (b.recorded absent (size' - size) before others))
    (hadvance : ∀ b b' size, P size b → b.advance size = some b' → (P size b' ↔ cond b))
    (hs : s.Every P) (hstep : s.step d sha256 label = some t) :
    t.Every P ↔ Advances cond s label := by
  cases step_cases hstep with
  | post i r =>
    rw [put_every_iff hs]
    exact iff_of_true (hstart r _) trivial
  | @advance i b b' batch next =>
    rw [put_every_iff hs, hadvance b b' _ (hs i b batch) next]
    simp [Advances, batch]
  | @record i b input before others now now' σ store batch phase recorded =>
    rw [put_every_iff (change_every hdrift hs store)]
    refine iff_of_true ?_ trivial
    exact hrecorded b _ (len store.events) input before others _ phase (hs i b batch)
  | operate ran => exact iff_of_true (change_every hdrift hs _) trivial

theorem step_sound_iff (hs : s.Every Batch.Sound) (hstep : s.step d sha256 label = some t) :
    t.Every Batch.Sound ↔ Advances Batch.Judged s label :=
  step_every_iff Batch.Judged start_sound (fun _ _ _ => drift_sound)
    (fun _ _ _ _ _ _ => recorded_sound) (fun _ _ _ => advance_sound_iff) hs hstep

theorem step_counted (hs : s.Every fun _ b => b.Counted)
    (hstep : s.step d sha256 label = some t) : t.Every fun _ b => b.Counted := by
  rw [step_every_iff (fun _ => True) (fun r _ => start_counted r)
    (fun _ _ _ => drift_counted _) (fun _ _ _ _ _ _ absent => recorded_counted absent _)
    (fun _ _ _ hb hb' => iff_of_true (advance_counted hb hb') trivial) hs hstep]
  cases label <;> simp [Advances]

theorem record_growth (hk : Keyed store.events) {input : RecordInput} {now now' : Time} {σ : Oldest}
    {after : Store} (h : store.record sha256 input now now' σ = some after) :
    (len after.events : Int) - len store.events = recordGrowth sha256 input store := by
  unfold recordGrowth
  cases hold : store.events.lookup (input.hash sha256) with
  | some p =>
    have hmem := Finmap.mem_of_lookup_eq_some hold
    obtain ⟨e, rfl, -⟩ := hk _ p hold
    rw [record_merge hold] at h
    cases h
    rw [if_pos hmem, len_insert_of_mem hmem]
    exact sub_self _
  | none =>
    have habsent := Finmap.lookup_eq_none.mp hold
    have hkeyed := hk.insert (h := input.hash sha256)
      (e := newEvent (input.hash sha256) input now now') rfl
    obtain ⟨events, hevents, hkeeps⟩ := enforceCapLocked_keeps hkeyed store.maxEvents σ
    rw [record_new hold, hevents] at h
    cases h
    rw [if_neg habsent]
    have hlen := len_insert (b := some (newEvent (input.hash sha256) input now now')) habsent
    split
    next hroom =>
      rw [hkeeps.fits (by omega), hlen]
      omega
    next hfull =>
      rw [hkeeps.size (by omega) (by omega)]

theorem step_store (hstep : s.step d sha256 label = some t) :
    t.store = s.store ∨ ∃ op : Op, op.run sha256 s.store = some t.store := by
  cases step_cases hstep with
  | post i r => exact .inl rfl
  | advance batch next => exact .inl rfl
  | @record i b input before others now now' σ store batch phase recorded =>
    exact .inr ⟨.record input now now' σ, recorded⟩
  | operate ran => exact .inr ⟨_, ran⟩

theorem step_keyed (hk : Keyed s.store.events) (hstep : s.step d sha256 label = some t) :
    Keyed t.store.events := by
  obtain hsame | ⟨op, hop⟩ := step_store hstep
  · rw [hsame]
    exact hk
  · obtain ⟨store, hstore, hsteps⟩ := op_steps sha256 hk op
    rw [hop] at hstore
    cases hstore
    exact hsteps.keyed

/-- The counts of every batch are right all along exactly if, whenever the numbers of events
are compared, the own change and that by others are positive together exactly for a report
whose hash was not there. The own change is one only where there is room. However they are
judged, all parseable reports are counted. -/
theorem telemetry_counts (d : Decoding) (sha256 : List UInt8 → List UInt8) (store : Store)
    (labels : List Label) {s : Server} (hrun : (telemetry d sha256 store).run labels = some s) :
    ((∀ before t, before <+: labels → (telemetry d sha256 store).run before = some t →
        t.Every Batch.Sound) ↔
      (telemetry d sha256 store).Meets (Advances Batch.Judged) ⟨store, fun _ => none⟩ labels) ∧
    ((telemetry d sha256 store).Meets (Advances Batch.Judged) ⟨store, fun _ => none⟩ labels →
      ∀ i b, s.batches i = some b → b.phase = .accepted →
        b.newCount = b.absent ∧ b.dupCount = b.present) ∧
    (∀ i b, s.batches i = some b → b.phase = .accepted →
      b.newCount + b.dupCount = parseable b.reports) ∧
    (Keyed store.events → ∀ input now now' σ after,
      s.store.record sha256 input now now' σ = some after →
        (len after.events : Int) - len s.store.events = recordGrowth sha256 input s.store) := by
  have hiff := reached_iff_meets (M := telemetry d sha256 store)
    (fun _ _ _ hs hstep => step_sound_iff hs hstep)
    (s := ⟨store, fun _ => none⟩) nofun hrun
  refine ⟨hiff, fun hmeets i b hb hphase => ?_, fun i b hb hphase => ?_, ?_⟩
  · obtain ⟨hnew, hdup, -⟩ := hiff.mpr hmeets labels s List.prefix_rfl hrun i b hb
    rw [hphase] at hnew hdup
    exact ⟨hnew.symm, hdup.symm⟩
  · have hcounted := run_keeps (M := telemetry d sha256 store) nofun
      (fun _ _ _ hs hstep => step_counted hs hstep) hrun
    obtain ⟨hsum, hrest⟩ := hcounted i b hb
    rw [hphase, hrest hphase] at hsum
    exact hsum
  · intro hk input now now' σ after hafter
    refine record_growth ?_ hafter
    exact @run_keeps _ _ (telemetry d sha256 store) (fun s => Keyed s.store.events) hk
      (fun _ _ _ hs hstep => step_keyed hs hstep) _ _ hrun

/-! Where no step comes between a handler's readings, and there is room. -/

/-- The number of events has been read before the report is recorded, and not yet behind it. -/
def Phase.IsOpen : Phase → Prop
  | .measured .. | .recorded .. => True
  | _ => False

/-- The step changes the store while no other handler is between its readings, and records with
room for a new event. -/
def Alone (s : Server) : Label → Prop
  | .record i _ _ _ => (s.store.maxEvents ≤ 0 ∨ len s.store.events < s.store.maxEvents) ∧
      ∀ j b, j ≠ i → s.batches j = some b → ¬ b.phase.IsOpen
  | .operate _ => ∀ j b, s.batches j = some b → ¬ b.phase.IsOpen
  | _ => True

def Phase.Exact : Phase → Prop
  | .measured _ _ others => others = 0
  | .recorded _ absent own others => others = 0 ∧ own = if absent = true then 1 else 0
  | _ => True

def Server.Exact (s : Server) : Prop := ∀ i b, s.batches i = some b → b.phase.Exact

theorem judged_of_exact (h : b.phase.Exact) : b.Judged := by
  unfold Batch.Judged
  cases hphase : b.phase with
  | recorded before absent own others =>
    rw [hphase] at h
    obtain ⟨rfl, rfl⟩ := h
    cases absent <;> simp
  | _ => trivial

theorem drift_closed {phase : Phase} (h : ¬ phase.IsOpen) (change : Int) :
    phase.drift change = phase := by
  cases phase <;> first | rfl | exact absurd trivial h

theorem advance_exact (hstep : b.advance size = some b') : b'.phase.Exact := by
  unfold Batch.advance at hstep
  split at hstep
  · cases hstep
    trivial
  next hphase _ =>
    cases hstep
    rw [hphase]
    trivial
  · cases hstep
    rfl
  · split at hstep <;> (cases hstep; trivial)
  · cases hstep

theorem change_exact (hs : s.Exact) {c : Batch} (hc : (s.change store).batches i = some c)
    (hclosed : ∀ b, s.batches i = some b → ¬ b.phase.IsOpen) : c.phase.Exact := by
  obtain ⟨b, hb, rfl⟩ := Option.map_eq_some_iff.mp hc
  rw [Batch.drift, drift_closed (hclosed b hb)]
  exact hs i b hb

theorem put_exact (hb : b.phase.Exact)
    (hs : ∀ j c, j ≠ i → s.batches j = some c → c.phase.Exact) : (s.put i b).Exact := by
  intro j c hc
  simp only [Server.put, Function.update_apply] at hc
  split at hc
  · cases hc
    exact hb
  next hne => exact hs j c hne hc

theorem step_exact (hk : Keyed s.store.events) (hs : s.Exact) (halone : Alone s label)
    (hstep : s.step d sha256 label = some t) : t.Exact := by
  cases step_cases hstep with
  | post i r =>
    refine put_exact ?_ fun j c _ => hs j c
    unfold Batch.start
    split <;> trivial
  | advance batch next => exact put_exact (advance_exact next) fun j c _ => hs j c
  | @record i b input before others now now' σ store batch phase recorded =>
    refine put_exact ?_ fun j c hne hc => change_exact hs hc fun b => halone.2 j b hne
    have hothers := hs i b batch
    rw [phase] at hothers
    refine ⟨hothers, (record_growth hk recorded).trans ?_⟩
    unfold recordGrowth
    by_cases hmem : input.hash sha256 ∈ s.store.events
    · simp [hmem]
    · simp [hmem, halone.1]
  | operate ran => exact fun i c hc => change_exact hs hc (halone i)

/-- One batch at a time, with room in the store, is counted rightly. -/
theorem judged_of_alone (hk : Keyed store.events) (labels : List Label)
    (halone : (telemetry d sha256 store).Meets Alone ⟨store, fun _ => none⟩ labels) :
    (telemetry d sha256 store).Meets (Advances Batch.Judged) ⟨store, fun _ => none⟩ labels := by
  have hinit : Keyed store.events ∧ (⟨store, fun _ => none⟩ : Server).Exact := ⟨hk, nofun⟩
  have hstep (s : Server) (a : Label) (t : Server) (hs : Keyed s.store.events ∧ s.Exact)
      (hcond : Alone s a) (hstep : (telemetry d sha256 store).step s a = some t) :
      Keyed t.store.events ∧ t.Exact :=
    ⟨step_keyed hs.1 hstep, step_exact hs.1 hs.2 hcond hstep⟩
  refine meets_of_keeps hstep (fun s a hs _ => ?_) hinit halone
  cases a with
  | advance i => exact fun b hb => judged_of_exact (hs.2 i b hb)
  | _ => trivial

end

def oneReport : Decoding where
  envelope _ := .ok [[]]
  report _ := .ok ⟨"e1", "1970-01-01T00:00:00Z", "error", "boom", "s", "u", "ua/1"⟩
  parseTime _ := some 1

noncomputable def postBoom : List Label :=
  [.post 0 ⟨"POST", [91, 93], none⟩, .advance 0, .record 0 6 6 (anySorting _), .advance 0,
    .advance 0]

theorem telemetry_counts_postBoom :
    ∃ s, (telemetry oneReport boomDigest memoryOnly).run postBoom = some s ∧
    ((∀ before t, before <+: postBoom →
        (telemetry oneReport boomDigest memoryOnly).run before = some t → t.Every Batch.Sound) ↔
      (telemetry oneReport boomDigest memoryOnly).Meets (Advances Batch.Judged)
        ⟨memoryOnly, fun _ => none⟩ postBoom) ∧
    ((telemetry oneReport boomDigest memoryOnly).Meets (Advances Batch.Judged)
        ⟨memoryOnly, fun _ => none⟩ postBoom →
      ∀ i b, s.batches i = some b → b.phase = .accepted →
        b.newCount = b.absent ∧ b.dupCount = b.present) ∧
    (∀ i b, s.batches i = some b → b.phase = .accepted →
      b.newCount + b.dupCount = parseable b.reports) ∧
    (Keyed memoryOnly.events → ∀ input now now' σ after,
      s.store.record boomDigest input now now' σ = some after →
        (len after.events : Int) - len s.store.events = recordGrowth boomDigest input s.store) :=
  ⟨_, rfl, telemetry_counts oneReport boomDigest memoryOnly postBoom rfl⟩

/-- The store is full, so a new report takes the place of another. -/
theorem new_report_deduped :
    ¬ ∀ (d : Decoding) (sha256 : List UInt8 → List UInt8) (store : Store) (labels : List Label)
      (s : Server), (telemetry d sha256 store).run labels = some s →
      ∀ i b, s.batches i = some b → b.phase = .accepted →
        b.newCount = b.absent ∧ b.dupCount = b.present ∧
          b.newCount + b.dupCount = parseable b.reports := by
  intro h
  obtain ⟨after, hafter, hsteps⟩ :=
    @record_steps boomDigest _ singleEvent_keyed boom 6 6 (anySorting _)
  have hsize : (len after.events : Int) ≤ 1 := hsteps.size (by decide) (by decide)
  have hrun : ∃ s, (telemetry oneReport boomDigest singleEvent).run postBoom = some s ∧
      s.batches 0 = some ⟨[some boom], [], 0, 1, .accepted, 1, 0⟩ := by
    have hbatch : Batch.start oneReport ⟨"POST", [91, 93], none⟩ =
        ⟨[some boom], [some boom], 0, 0, .next, 0, 0⟩ := rfl
    have hold : len singleEvent.events = 1 := by decide
    have habsent : boom.hash boomDigest ∉ singleEvent.events := by decide
    simp [Machine.run, Machine.runFrom, postBoom, telemetry, Server.step, hbatch, Batch.advance,
      hafter, Batch.recorded, hold, habsent, Nat.not_lt_of_le, Nat.cast_le_one.mp hsize]
  obtain ⟨s, hs, hb⟩ := hrun
  obtain ⟨hnew, -, -⟩ := h oneReport boomDigest singleEvent postBoom s hs 0 _ hb rfl
  cases hnew

end LearnPg.Api
