import LearnPg.Telemetry.Memory

/-! The files that are written while other goroutines go on. A flush holds the lock only to
take the map. It visits the entries afterwards, and then reads their events field by field. -/
namespace LearnPg.Telemetry

open LearnPg.Basis.Maps LearnPg.Basis.Runs

inductive Field where
  | hash | message | level | url | userAgent | stack | count | firstSeen | lastSeen | lastEventID
  | lastTimestamp

def Field.copy (e into : Event) : Field → Event
  | .hash => { into with hash := e.hash }
  | .message => { into with message := e.message }
  | .level => { into with level := e.level }
  | .url => { into with url := e.url }
  | .userAgent => { into with userAgent := e.userAgent }
  | .stack => { into with stack := e.stack }
  | .count => { into with count := e.count }
  | .firstSeen => { into with firstSeen := e.firstSeen }
  | .lastSeen => { into with lastSeen := e.lastSeen }
  | .lastEventID => { into with lastEventID := e.lastEventID }
  | .lastTimestamp => { into with lastTimestamp := e.lastTimestamp }

/-- In the order of the struct, which is that of the encoder. -/
def fields : List Field :=
  [.hash, .message, .level, .url, .userAgent, .stack, .count, .firstSeen, .lastSeen, .lastEventID,
    .lastTimestamp]

def blank : Event := ⟨"", "", "", "", "", "", 0, zeroTime, zeroTime, "", zeroTime⟩

abbrev Entry := Σ _ : String, Option Address

/-- A member of the object `events` in a file. -/
abbrev Member := Σ _ : String, Option Event

/-- How far the encoder is. It visits the entries of the map, each that was there from the
start and is not deleted (`due`) and none twice (`produced`), sorts them by their keys, and
then encodes one after the other. -/
inductive Encoding where
  | locked
  | iterating (due produced : Finset String) (found : List Entry)
  | encoding (done : List Member) (todo : List Entry)
  | reading (done : List Member) (key : String) (a : Address) (copied : Event)
      (rest : List Field) (todo : List Entry)

inductive Reading where
  | iterate
  | produce (h : String)
  | sort (order : List Entry)
  | read

def Encoding.step (m : Memory) : Encoding → Reading → Option Encoding
  | .locked, .iterate => some (.iterating m.pointers.keys ∅ [])
  | .iterating due produced found, .produce h =>
    if h ∈ produced then none
    else (m.pointers.lookup h).map fun p => .iterating due (insert h produced) (found ++ [⟨h, p⟩])
  | .iterating due produced found, .sort order =>
    if due ⊆ produced ∧ order.Perm found ∧ order.Pairwise fun x y => x.1 ≤ y.1 then
      some (.encoding [] order)
    else none
  | .encoding done (⟨key, none⟩ :: todo), .read => some (.encoding (done ++ [⟨key, none⟩]) todo)
  | .encoding done (⟨key, some a⟩ :: todo), .read => some (.reading done key a blank fields todo)
  | .reading done key a copied (f :: rest) todo, .read =>
    some (.reading done key a (f.copy (m.heap a) copied) rest todo)
  | .reading done key _ copied [] todo, .read =>
    some (.encoding (done ++ [⟨key, some copied⟩]) todo)
  | _, _ => none

/-- It has begun to read the memory and has something left to read. -/
def Encoding.reads : Encoding → Bool
  | .locked => false
  | .iterating .. => true
  | .encoding _ todo => !todo.isEmpty
  | .reading _ _ _ _ rest todo => !rest.isEmpty || !todo.isEmpty

/-- Where the flusher is, and after it `Close`, which waits for it to stop and flushes once
more. -/
inductive Control where
  | waiting
  | maintained
  | stopped
  | flushing (enc : Encoding) (last : Bool)
  | closed

/-- Only the flusher calls `maintain`, when the ticker ticks. -/
def Op.start : Op → Control → Option Control
  | .maintain .., .waiting => some .maintained
  | .maintain .., _ => none
  | _, c => some c

/-- An entry that is deleted is not visited, unless it is put in again. -/
def Control.written : Control → Write → Control
  | .flushing (.iterating due produced found) last, .delete h =>
    .flushing (.iterating (due.erase h) (produced.erase h) found) last
  | c, _ => c

def flushed (last : Bool) : Control := if last then .closed else .waiting

/-- `writer` is what the holder of the lock has yet to write, `stopping` says that the
flusher is told to stop, `files` are the contents that were written. -/
structure Persistence where
  memory : Memory
  writer : List Write
  control : Control
  stopping : Bool
  files : List (List Member)

inductive Step where
  | begin (op : Op) (visits : Visits)
  | write
  | close
  | stop
  | lock
  | encode (x : Reading)
  | rename
  | fail

def Persistence.step (sha256 : List UInt8 → List UInt8) (options : Store) (s : Persistence) :
    Step → Option Persistence
  | .begin op visits =>
    if s.writer.isEmpty then
      (op.start s.control).bind fun control =>
        (op.writes sha256 options visits s.memory).map fun writer => { s with writer, control }
    else none
  | .write =>
    match s.writer with
    | [] => none
    | w :: writer =>
      some { s with memory := s.memory.write w, writer, control := s.control.written w }
  | .close => if s.writer.isEmpty ∧ ¬ s.stopping then some { s with stopping := true } else none
  | .stop =>
    match s.control with
    | .waiting => if s.stopping then some { s with control := .stopped } else none
    | _ => none
  | .lock =>
    match s.writer, s.control with
    | [], .maintained => some { s with control := .flushing .locked false }
    | [], .stopped => some { s with control := .flushing .locked true }
    | _, _ => none
  | .encode x =>
    match s.control with
    | .flushing enc last =>
      (enc.step s.memory x).map fun enc => { s with control := .flushing enc last }
    | _ => none
  | .rename =>
    match s.control with
    | .flushing (.encoding done []) last =>
      some { s with control := flushed last, files := s.files ++ [done] }
    | _ => none
  | .fail =>
    match s.control with
    | .flushing _ last => some { s with control := flushed last }
    | _ => none

def persistence (sha256 : List UInt8 → List UInt8) (options : Store) (m : Memory) :
    Machine Persistence Step :=
  ⟨⟨m, [], .waiting, false, []⟩, Persistence.step sha256 options⟩

/-- The file has the events that the store held at some point of the run: all of them, and
nothing else. -/
def Held (M : Machine Persistence Step) (steps : List Step) (file : List Member) : Prop :=
  ∃ before s, before <+: steps ∧ M.run before = some s ∧ s.writer = [] ∧
    (file : Multiset Member) = s.memory.contents.entries

def Control.reads : Control → Bool
  | .flushing enc _ => enc.reads
  | _ => false

/-- Nothing is written between the first and the last time that a flush reads the memory,
and nothing is half written when it starts to. -/
def Undisturbed (s : Persistence) : Step → Prop
  | .write => s.control.reads = false
  | .encode .iterate => s.writer = []
  | _ => True

instance (s : Persistence) : ∀ step, Decidable (Undisturbed s step)
  | .write => inferInstanceAs (Decidable (s.control.reads = false))
  | .encode .iterate => inferInstanceAs (Decidable (s.writer = []))
  | .begin .. | .close | .stop | .lock | .rename | .fail | .encode (.produce _)
  | .encode (.sort _) | .encode .read => .isTrue trivial

def Memory.member (m : Memory) (x : Entry) : Member := ⟨x.1, x.2.map m.heap⟩

structure Iterated (m : Memory) (due produced : Finset String) (found : List Entry) : Prop where
  keys : due = m.pointers.keys
  marked : ∀ x ∈ found, x.1 ∈ produced
  visited : ∀ h ∈ produced, ∃ x ∈ found, x.1 = h
  nodup : (found.map Sigma.fst).Nodup
  sub : ∀ x ∈ found, x ∈ m.pointers.entries

/-- What the encoder has is from this memory, and with what is left will make all of it. -/
def Follows (m : Memory) : Encoding → Prop
  | .locked => True
  | .iterating due produced found => Iterated m due produced found
  | .encoding done todo =>
    ((done ++ todo.map m.member : List Member) : Multiset Member) = m.contents.entries
  | .reading done key a copied rest todo =>
    rest.foldl (fun copied f => f.copy (m.heap a) copied) copied = m.heap a ∧
      ((done ++ m.member ⟨key, some a⟩ :: todo.map m.member : List Member) : Multiset Member) =
        m.contents.entries

section

variable {sha256 : List UInt8 → List UInt8} {options : Store} {m cur : Memory}
  {enc enc' : Encoding} {due produced : Finset String} {found order : List Entry}

theorem copy_fields (e : Event) : fields.foldl (fun copied f => f.copy e copied) blank = e := by
  cases e
  rfl

theorem Iterated.produce (hi : Iterated m due produced found) {h : String} {p : Option Address}
    (hnew : h ∉ produced) (hp : m.pointers.lookup h = some p) :
    Iterated m due (insert h produced) (found ++ [⟨h, p⟩]) where
  keys := hi.keys
  marked := by
    intro x hx
    obtain hx | hx := List.mem_append.mp hx
    · exact Finset.mem_insert_of_mem (hi.marked x hx)
    · rw [List.mem_singleton.mp hx]
      exact Finset.mem_insert_self h produced
  visited := by
    intro k hk
    obtain rfl | hk := Finset.mem_insert.mp hk
    · exact ⟨⟨k, p⟩, by simp, rfl⟩
    · obtain ⟨x, hx, hkey⟩ := hi.visited k hk
      exact ⟨x, List.mem_append_left _ hx, hkey⟩
  nodup := by
    rw [List.map_append]
    apply hi.nodup.append (List.nodup_singleton _)
    intro k hk hsame
    obtain ⟨x, hx, rfl⟩ := List.mem_map.mp hk
    have hkey : x.1 = h := List.mem_singleton.mp hsame
    rw [← hkey] at hnew
    exact hnew (hi.marked x hx)
  sub := by
    intro x hx
    obtain hx | hx := List.mem_append.mp hx
    · exact hi.sub x hx
    · rw [List.mem_singleton.mp hx]
      exact mem_entries.mpr hp

theorem Iterated.entries (hi : Iterated m due produced found) (hall : due ⊆ produced) :
    (found : Multiset Entry) = m.pointers.entries := by
  apply (Multiset.Nodup.ext (Multiset.coe_nodup.mpr (List.Nodup.of_map _ hi.nodup))
    (Multiset.Nodup.of_map _ (Multiset.nodup_keys.mpr m.pointers.nodupKeys))).mpr
  intro x
  rw [Multiset.mem_coe]
  refine ⟨hi.sub x, fun hx => ?_⟩
  have hlookup := mem_entries.mp hx
  have hkey : x.1 ∈ due := by
    rw [hi.keys, Finmap.mem_keys]
    exact Finmap.mem_of_lookup_eq_some hlookup
  obtain ⟨y, hy, hsame⟩ := hi.visited x.1 (hall hkey)
  have hlookup' := mem_entries.mp (hi.sub y hy)
  rw [hsame, hlookup] at hlookup'
  cases x
  cases y
  cases hsame
  cases hlookup'
  exact hy

theorem contents_entries (m : Memory) : m.contents.entries = m.pointers.entries.map m.member := rfl

theorem follows_encoding {done : List Member} {todo : List Entry} :
    Follows m (.encoding done todo) ↔
      ((done ++ todo.map m.member : List Member) : Multiset Member) = m.contents.entries :=
  Iff.rfl

theorem Follows.step (hf : Follows m enc) (hsame : enc.reads = true → cur = m) {x : Reading}
    (h : enc.step cur x = some enc') (hx : enc ≠ .locked) :
    Follows m enc' ∧ (enc'.reads = true → cur = m) := by
  unfold Encoding.step at h
  split at h
  next => exact absurd rfl hx
  next =>
    obtain rfl := hsame rfl
    split at h
    · cases h
    next hnew =>
      obtain ⟨p, hp, rfl⟩ := Option.map_eq_some_iff.mp h
      exact ⟨hf.produce hnew hp, fun _ => rfl⟩
  next =>
    obtain rfl := hsame rfl
    split at h
    next hsorted =>
      cases h
      refine ⟨?_, fun _ => rfl⟩
      obtain ⟨hall, hperm, -⟩ := hsorted
      change ((List.map _ _ : List Member) : Multiset Member) = _
      rw [contents_entries, ← hf.entries hall, ← Multiset.map_coe, Multiset.coe_eq_coe.mpr hperm]
    next => cases h
  next =>
    cases h
    refine ⟨?_, fun _ => hsame rfl⟩
    rw [follows_encoding, List.append_assoc]
    exact hf
  next =>
    cases h
    exact ⟨⟨copy_fields _, hf⟩, fun _ => hsame rfl⟩
  next =>
    cases h
    obtain rfl := hsame rfl
    exact ⟨hf, fun _ => rfl⟩
  next =>
    cases h
    obtain ⟨hcopied, hall⟩ := hf
    refine ⟨?_, fun hreads => hsame ?_⟩
    · rw [List.foldl_nil] at hcopied
      rw [follows_encoding, List.append_assoc, hcopied]
      exact hall
    · exact hreads
  next => cases h

/-- The files so far were held, and a flush follows a point of the run. -/
structure Consistent (M : Machine Persistence Step) (steps : List Step) (s : Persistence) :
    Prop where
  files : ∀ file ∈ s.files, Held M steps file
  flush : ∀ enc last, s.control = .flushing enc last → ∃ before u, before <+: steps ∧
    M.run before = some u ∧ u.writer = [] ∧ Follows u.memory enc ∧
      (enc.reads = true → s.memory = u.memory)

variable {M : Machine Persistence Step} {steps : List Step} {s t : Persistence}

theorem Held.concat {file : List Member} (hfile : Held M steps file) (step : Step) :
    Held M (steps ++ [step]) file := by
  obtain ⟨before, u, hbefore, hu⟩ := hfile
  exact ⟨before, u, hbefore.trans (List.prefix_append _ _), hu⟩

theorem Consistent.keep (hs : Consistent M steps s) (step : Step) (hfiles : t.files = s.files)
    (hflush : ∀ enc last, t.control = .flushing enc last →
      s.control = .flushing enc last ∧ (enc.reads = true → t.memory = s.memory)) :
    Consistent M (steps ++ [step]) t where
  files := by
    rw [hfiles]
    exact fun file hfile => (hs.files file hfile).concat step
  flush := by
    intro enc last ht
    obtain ⟨hcontrol, hmemory⟩ := hflush enc last ht
    obtain ⟨before, u, hbefore, hu, hwriter, hfollows, hsame⟩ := hs.flush enc last hcontrol
    exact ⟨before, u, hbefore.trans (List.prefix_append _ _), hu, hwriter, hfollows,
      fun hreads => (hmemory hreads).trans (hsame hreads)⟩

theorem start_flushing {op : Op} {c c' : Control} (h : op.start c = some c') {last : Bool}
    (hc : c' = .flushing enc last) : c = .flushing enc last := by
  subst hc
  unfold Op.start at h
  split at h
  · cases h
  · cases h
  · exact Option.some.inj h

theorem written_of_not_reads {c : Control} (hc : c.reads = false) (w : Write) :
    c.written w = c := by
  unfold Control.written
  split
  · cases hc
  · rfl

theorem flushed_ne {last last' : Bool} : flushed last ≠ .flushing enc last' := by
  unfold flushed
  split <;> exact nofun

theorem step_consistent (hrun : M.run steps = some s) (hs : Consistent M steps s) {step : Step}
    (hmeets : Undisturbed s step) (h : s.step sha256 options step = some t) :
    Consistent M (steps ++ [step]) t := by
  cases step with
  | begin op visits =>
    simp only [Persistence.step] at h
    split at h
    · obtain ⟨control, hcontrol, h⟩ := Option.bind_eq_some_iff.mp h
      obtain ⟨writer, -, rfl⟩ := Option.map_eq_some_iff.mp h
      exact hs.keep _ rfl fun enc last ht => ⟨start_flushing hcontrol ht, fun _ => rfl⟩
    · cases h
  | write =>
    simp only [Persistence.step] at h
    split at h
    · cases h
    · cases h
      rw [written_of_not_reads hmeets]
      refine hs.keep _ rfl fun enc last ht => ⟨ht, fun hreads => ?_⟩
      change s.control = _ at ht
      change s.control.reads = false at hmeets
      rw [ht] at hmeets
      exact absurd hreads (Bool.eq_false_iff.mp hmeets)
  | close =>
    simp only [Persistence.step] at h
    split at h
    · cases h
      exact hs.keep _ rfl fun enc last ht => ⟨ht, fun _ => rfl⟩
    · cases h
  | stop =>
    simp only [Persistence.step] at h
    split at h
    · split at h
      · cases h
        exact hs.keep _ rfl nofun
      · cases h
    · cases h
  | lock =>
    have hlocked (last : Bool) (hwriter : s.writer = []) :
        Consistent M (steps ++ [.lock]) { s with control := .flushing .locked last } := by
      refine ⟨fun file hfile => (hs.files file hfile).concat _, fun enc last ht => ?_⟩
      cases ht
      exact ⟨steps, s, List.prefix_append _ _, hrun, hwriter, trivial, nofun⟩
    simp only [Persistence.step] at h
    split at h
    next hwriter _ =>
      cases h
      exact hlocked false hwriter
    next hwriter _ =>
      cases h
      exact hlocked true hwriter
    next => cases h
  | encode x =>
    simp only [Persistence.step] at h
    split at h
    next enc last hcontrol =>
      obtain ⟨enc', henc', rfl⟩ := Option.map_eq_some_iff.mp h
      refine ⟨fun file hfile => (hs.files file hfile).concat _, fun e l ht => ?_⟩
      cases ht
      by_cases hlocked : enc = .locked
      · subst hlocked
        cases x with
        | iterate =>
          cases henc'
          refine ⟨steps, s, List.prefix_append _ _, hrun, hmeets, ?_, fun _ => rfl⟩
          exact ⟨rfl, nofun, nofun, List.nodup_nil, nofun⟩
        | produce h => cases henc'
        | sort order => cases henc'
        | read => cases henc'
      · obtain ⟨before, u, hbefore, hu, hwriter, hfollows, hsame⟩ := hs.flush enc last hcontrol
        obtain ⟨hfollows', hsame'⟩ := hfollows.step hsame henc' hlocked
        exact ⟨before, u, hbefore.trans (List.prefix_append _ _), hu, hwriter, hfollows', hsame'⟩
    next => cases h
  | rename =>
    simp only [Persistence.step] at h
    split at h
    next done last hcontrol =>
      cases h
      refine ⟨fun file hfile => ?_, fun enc last ht => absurd ht flushed_ne⟩
      obtain hfile | hfile := List.mem_append.mp hfile
      · exact (hs.files file hfile).concat _
      · obtain ⟨before, u, hbefore, hu, hwriter, hfollows, -⟩ := hs.flush _ _ hcontrol
        rw [follows_encoding, List.map_nil, List.append_nil] at hfollows
        rw [List.mem_singleton.mp hfile]
        exact ⟨before, u, hbefore.trans (List.prefix_append _ _), hu, hwriter, hfollows⟩
    next => cases h
  | fail =>
    simp only [Persistence.step] at h
    split at h
    next =>
      cases h
      exact hs.keep _ rfl fun enc last ht => absurd ht flushed_ne
    next => cases h

/-- If no flush is disturbed, each file was held by the store at some point of the run. -/
theorem files_held (sha256 : List UInt8 → List UInt8) (options : Store) (m : Memory)
    {steps : List Step} {s : Persistence}
    (hmeets : (persistence sha256 options m).Meets Undisturbed
      (persistence sha256 options m).init steps)
    (hrun : (persistence sha256 options m).run steps = some s) :
    ∀ file ∈ s.files, Held (persistence sha256 options m) steps file := by
  have hconsistent : Consistent (persistence sha256 options m) steps s := by
    refine run_history_of_meets ⟨nofun, nofun⟩ (fun steps s step t hs hc hcond ht => ?_) hmeets hrun
    exact step_consistent hs hc hcond ht
  exact hconsistent.files

def Step.op : Step → Option Op
  | .begin op _ => some op
  | _ => none

structure Settles (sha256 : List UInt8 → List UInt8) (options : Store) (m : Memory)
    (steps : List Step) (s : Persistence) : Prop where
  separate : s.memory.Separate
  run : (operations sha256 options).runFrom { options with events := m.contents }
    (steps.filterMap Step.op) = some { options with events := (s.memory.writes s.writer).contents }

theorem Settles.keep (hs : Settles sha256 options m steps s) {step : Step} (hop : step.op = none)
    (hmemory : t.memory = s.memory) (hwriter : t.writer = s.writer) :
    Settles sha256 options m (steps ++ [step]) t := by
  refine ⟨hmemory ▸ hs.separate, ?_⟩
  rw [List.filterMap_append, List.filterMap_cons_none hop, List.filterMap_nil, List.append_nil,
    hmemory, hwriter]
  exact hs.run

theorem step_idle {step : Step} (h : s.step sha256 options step = some t)
    (hop : step.op = none) (hwrite : step ≠ .write) : t.memory = s.memory ∧ t.writer = s.writer := by
  cases step with
  | begin op visits => cases hop
  | write => exact absurd rfl hwrite
  | encode x =>
    simp only [Persistence.step] at h
    split at h
    · obtain ⟨enc, -, rfl⟩ := Option.map_eq_some_iff.mp h
      exact ⟨rfl, rfl⟩
    · cases h
  | close | stop | lock | rename | fail =>
    simp only [Persistence.step] at h
    grind

theorem step_settles (hs : Settles sha256 options m steps s) {step : Step}
    (h : s.step sha256 options step = some t) : Settles sha256 options m (steps ++ [step]) t := by
  cases step with
  | begin op visits =>
    simp only [Persistence.step] at h
    split at h
    next hwriter =>
      obtain ⟨control, -, h⟩ := Option.bind_eq_some_iff.mp h
      obtain ⟨writer, hwriter', rfl⟩ := Option.map_eq_some_iff.mp h
      refine ⟨hs.separate, ?_⟩
      have hrun := writes_run sha256 hs.separate options visits op
      rw [hwriter'] at hrun
      obtain ⟨u, hu, hevents⟩ := Option.map_eq_some_iff.mp hrun.symm
      rw [List.filterMap_append, runFrom_append, hs.run, List.isEmpty_iff.mp hwriter]
      rw [run_options hu, hevents] at hu
      exact runFrom_cons.mpr ⟨_, hu, rfl⟩
    next => cases h
  | write =>
    simp only [Persistence.step] at h
    split at h
    · cases h
    next w writer hwriter =>
      cases h
      refine ⟨hs.separate.write w, ?_⟩
      have hrun := hs.run
      rw [hwriter, writes_cons] at hrun
      rw [List.filterMap_append, List.filterMap_cons_none rfl, List.filterMap_nil, List.append_nil]
      exact hrun
  | close | stop | lock | encode | rename | fail =>
    obtain ⟨hmemory, hwriter⟩ := step_idle h rfl nofun
    exact hs.keep rfl hmemory hwriter

/-- Whenever the lock is free, the store holds what its operations, each as one step, leave. -/
theorem memory_settles (hm : m.Separate) (hrun : (persistence sha256 options m).run steps = some s)
    (hwriter : s.writer = []) :
    (operations sha256 options).runFrom { options with events := m.contents }
      (steps.filterMap Step.op) = some { options with events := s.memory.contents } := by
  have hs : Settles sha256 options m steps s := by
    refine @run_history _ _ _ (Settles sha256 options m) ⟨hm, rfl⟩ ?_ _ _ hrun
    exact fun steps s step t _ hs h => step_settles hs h
  have hend := hs.run
  rw [hwriter] at hend
  exact hend

end

/-- The event is read while it is recorded again. -/
noncomputable def torn : List Step :=
  [.begin (.record boom 1 1 (anySorting _)) (anySorting _), .write, .close, .stop, .lock,
    .encode .iterate, .encode (.produce "b254305fffd5f629"),
    .encode (.sort [⟨"b254305fffd5f629", some 0⟩]), .encode .read] ++
  List.replicate 7 (.encode .read) ++
  [.begin (.record boom 5 5 (anySorting _)) (anySorting _), .write, .write, .write, .write, .write,
    .write] ++
  List.replicate 5 (.encode .read) ++ [.rename]

def persisted : Store := ⟨"t.json", ∅, 7 * 24 * 3600000000000, 10000, 30000000000, true⟩

def tornEvent : Event :=
  ⟨"b254305fffd5f629", "boom", "error", "u", "ua/1", "s", 1, 1, 5, "e1", 1⟩

noncomputable def boomPersistence : Machine Persistence Step :=
  persistence boomDigest persisted ⟨∅, fun _ => blank, 0⟩

theorem torn_run : (boomPersistence.run torn).map (·.files) =
    some [[⟨"b254305fffd5f629", some tornEvent⟩]] := rfl

theorem torn_never : ((List.range 30).all fun n => (boomPersistence.run (torn.take n)).all fun s =>
    s.memory.contents.lookup "b254305fffd5f629" ≠ some (some tornEvent)) = true := by
  rfl

theorem files_torn : ¬ ∀ steps s, boomPersistence.run steps = some s →
    ∀ file ∈ s.files, Held boomPersistence steps file := by
  intro hall
  obtain ⟨s, hrun, hfiles⟩ := Option.map_eq_some_iff.mp torn_run
  obtain ⟨before, u, hbefore, hu, -, hentries⟩ := hall torn s hrun
    [⟨"b254305fffd5f629", some tornEvent⟩] (by rw [hfiles]; exact List.mem_singleton_self _)
  have hheld : u.memory.contents.lookup "b254305fffd5f629" = some (some tornEvent) := by
    rw [← mem_entries, ← hentries]
    exact List.mem_singleton_self _
  have hlen : before.length < 30 := Nat.lt_succ_of_le hbefore.length_le
  have hnever := List.all_eq_true.mp torn_never _ (List.mem_range.mpr hlen)
  rw [← List.prefix_iff_eq_take.mp hbefore, hu] at hnever
  exact of_decide_eq_true hnever hheld

/-- No one else writes. -/
noncomputable def calm : List Step :=
  [.begin (.record boom 1 1 (anySorting _)) (anySorting _), .write, .close, .stop, .lock,
    .encode .iterate, .encode (.produce "b254305fffd5f629"),
    .encode (.sort [⟨"b254305fffd5f629", some 0⟩]), .encode .read] ++
  List.replicate 12 (.encode .read) ++ [.rename]

def calmFile : List Member := [⟨"b254305fffd5f629", some { tornEvent with lastSeen := 1 }⟩]

theorem files_held_calm : ∃ s, boomPersistence.run calm = some s ∧ s.files = [calmFile] ∧
    Held boomPersistence calm calmFile := by
  have hcalm : boomPersistence.Meets Undisturbed boomPersistence.init calm := by decide +kernel
  have hfiles : (boomPersistence.run calm).map (·.files) = some [calmFile] := rfl
  obtain ⟨s, hrun, hfiles⟩ := Option.map_eq_some_iff.mp hfiles
  refine ⟨s, hrun, hfiles, files_held _ _ _ hcalm hrun calmFile ?_⟩
  rw [hfiles]
  exact List.mem_singleton_self _

end LearnPg.Telemetry
