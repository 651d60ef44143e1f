import LearnPg.Collector.Kernel

/-! Every thread's events are what its own hits would give it alone, whatever the other threads do,
as long as no more threads are hit than the smallest map has entries. -/
namespace LearnPg.Collector.Kernel

open Wal Basis.Maps Basis.Runs Basis.Slots

/-! What a hit submits. -/

/-- Nothing, or one event of its thread, of one of these kinds and with room for it. -/
def Submits (hit : Hit) (kinds : List EventKind) (es : List Event) : Prop :=
  es = [] ∨ hit.room = true ∧ ∃ payload : Payload, payload.kind ∈ kinds ∧
    es = [newEvent hit payload]

theorem submits_nil (hit : Hit) (kinds : List EventKind) : Submits hit kinds [] := .inl rfl

theorem submits_submit {hit : Hit} {kinds : List EventKind} {payload : Payload}
    (h : payload.kind ∈ kinds) : Submits hit kinds (submit hit payload) := by
  unfold submit
  split
  · next hroom => exact .inr ⟨hroom, payload, h, rfl⟩
  · exact .inl rfl

def walKinds : List EventKind := [.walInsert]

def xactKinds : List EventKind := [.xactState, .lock]

def bufferKinds : List EventKind := [.bufferPin]

theorem wal_submits (h : WalHit) (args : Option WalArgs) :
    Submits h.hit walKinds (h.run args).2 := by
  cases h with
  | heapEntry | xlogEntry => exact submits_nil _ _
  | xlogReturn hit =>
    cases args with
    | none => exact submits_nil _ _
    | some args => exact submits_submit (List.mem_singleton.mpr rfl)

theorem xact_submits (h : XactHit) (xact : Option ThreadXact) :
    Submits h.hit xactKinds (h.run xact).2 := by
  have hend (state : Vector UInt8 16) (hit : Hit) :
      Submits hit xactKinds (probeXactEnd state hit xact).2 := by
    cases xact with
    | none => exact submits_nil _ _
    | some xact =>
      unfold probeXactEnd
      dsimp only
      split
      · next hroom => exact .inr ⟨hroom, _, by simp [xactKinds, Payload.kind], rfl⟩
      · exact submits_nil _ _
  cases h with
  | start | lockEntry => exact submits_nil _ _
  | commit hit => exact hend commitText hit
  | abort hit => exact hend abortText hit
  | lockReturn hit => exact submits_submit (by simp [xactKinds, Payload.kind])

theorem buffer_submits (h : BufferHit) (state : Option ThreadBuf) :
    Submits h.hit bufferKinds (h.run state).2 := by
  cases h with
  | entry => exact submits_nil _ _
  | ret hit =>
    change Submits hit bufferKinds (probeBufReturn hit state).2
    unfold probeBufReturn
    split
    · exact submits_nil _ _
    · split
      · exact submits_nil _ _
      · exact submits_submit (List.mem_singleton.mpr rfl)

theorem Submits.tid {hit : Hit} {kinds : List EventKind} {es : List Event}
    (h : Submits hit kinds es) : ∀ e ∈ es, e.header.tid = hit.tid ∧ e.payload.kind ∈ kinds := by
  intro e he
  rcases h with rfl | ⟨-, payload, hkind, rfl⟩
  · cases he
  · cases List.mem_singleton.mp he
    exact ⟨rfl, hkind⟩

/-! One map. -/

section

variable {σ ι : Type} {M : Table UInt32 σ ι Event} {hit : ι → Hit} {kinds : List EventKind}
  {cells : Map UInt32 σ} {events es : List Event} {is : List ι} {i : ι}

/-- The map is what its own hits make of it, and of the events those of its kinds are theirs. -/
structure Tracks (M : Table UInt32 σ ι Event) (kinds : List EventKind) (cells : Map UInt32 σ)
    (events : List Event) (is : List ι) : Prop where
  cells : cells = M.after ∅ is
  events : events.filter (·.payload.kind ∈ kinds) = (M.outputs ∅ is).map Prod.snd

theorem Tracks.own (h : Tracks M kinds cells events is)
    (hkinds : ∀ e ∈ M.output cells i, e.payload.kind ∈ kinds) :
    Tracks M kinds (M.step cells i) (events ++ M.output cells i) (is ++ [i]) := by
  have hall : (M.output cells i).filter (·.payload.kind ∈ kinds) = M.output cells i :=
    List.filter_eq_self.mpr fun e he => decide_eq_true (hkinds e he)
  refine ⟨?_, ?_⟩
  · rw [after_concat, ← h.cells]
  · rw [List.filter_append, h.events, hall, outputs_concat, ← h.cells, List.map_append,
      List.map_map]
    simp [Function.comp_def]

theorem Tracks.other (h : Tracks M kinds cells events is)
    (hkinds : ∀ e ∈ es, e.payload.kind ∉ kinds) : Tracks M kinds cells (events ++ es) is := by
  have hnone : es.filter (·.payload.kind ∈ kinds) = [] :=
    List.filter_eq_nil_iff.mpr fun e he => by simpa using hkinds e he
  exact ⟨h.cells, by rw [List.filter_append, hnone, List.append_nil, h.events]⟩

theorem outputs_tid (hM : ∀ i, M.key i = (hit i).tid)
    (hrun : ∀ i cell, Submits (hit i) kinds (M.inside i cell).2) (cells : Map UInt32 σ)
    (is : List ι) : ∀ x ∈ M.outputs cells is, x.2.header.tid = x.1 := by
  induction is generalizing cells with
  | nil => exact List.forall_mem_nil _
  | cons i is ih =>
    intro x hx
    rcases List.mem_append.mp hx with hx | hx
    · obtain ⟨e, he, rfl⟩ := List.mem_map.mp hx
      exact ((hrun i _).tid e he).1.trans (hM i).symm
    · exact ih _ x hx

/-- The events of one thread are those of its hits alone. -/
theorem Tracks.alone {keys : Finset UInt32} (h : Tracks M kinds cells events is)
    (hM : ∀ i, M.key i = (hit i).tid)
    (hrun : ∀ i cell, Submits (hit i) kinds (M.inside i cell).2) (hcap : keys.card ≤ M.cap)
    (his : ∀ i ∈ is, M.key i ∈ keys) (tid : UInt32) :
    events.filter (fun e => e.payload.kind ∈ kinds ∧ e.header.tid = tid) =
      M.alone none (is.filter (M.under tid)) := by
  have hunder := outputs_under hcap tid (m := ∅) (by simp) his
  rw [Finmap.lookup_empty] at hunder
  have htags : (M.outputs ∅ is).filter (fun x => x.2.header.tid = tid) =
      (M.outputs ∅ is).filter (fun x => x.1 = tid) :=
    List.filter_congr fun x hx => by rw [outputs_tid hM hrun ∅ is x hx]
  rw [← hunder, ← htags]
  have hboth : events.filter (fun e => e.payload.kind ∈ kinds ∧ e.header.tid = tid) =
      (events.filter (·.payload.kind ∈ kinds)).filter (·.header.tid = tid) := by
    rw [List.filter_filter]
    simp [Bool.and_comm]
  rw [hboth, h.events, List.filter_map]
  rfl

end

/-! Runs. -/

section

variable {Value : Type} {toValue : EventData → Option Value} {s t : State Value}
  {labels : List Label}

def walHits (labels : List Label) : List WalHit :=
  labels.filterMap fun
    | .wal _ h => some h
    | _ => none

def xactHits (labels : List Label) : List XactHit :=
  labels.filterMap fun
    | .xact _ h => some h
    | _ => none

def bufferHits (labels : List Label) : List BufferHit :=
  labels.filterMap fun
    | .buffer _ h => some h
    | _ => none

def State.events (s : State Value) : List Event := s.submitted.map Prod.snd

def State.eventsOf (s : State Value) (tid : UInt32) (kinds : List EventKind) : List Event :=
  s.events.filter fun e => e.payload.kind ∈ kinds ∧ e.header.tid = tid

theorem submit_spec (s : State Value) (cpu : Nat) (es : List Event) :
    (s.submit cpu es).ring = s.ring ++ es ∧
      (s.submit cpu es).submitted = s.submitted ++ es.map (cpu, ·) ∧
      (s.submit cpu es).walArgs = s.walArgs ∧ (s.submit cpu es).threadXact = s.threadXact ∧
      (s.submit cpu es).threadBuf = s.threadBuf ∧ (s.submit cpu es).handed = s.handed ∧
      (s.submit cpu es).consumed = s.consumed := by
  induction es generalizing s with
  | nil => simp [State.submit]
  | cons e es ih =>
    obtain ⟨hring, hsubmitted, hrest⟩ := ih (s.submitted₁ cpu e)
    refine ⟨?_, ?_, hrest⟩
    · exact hring.trans (by simp [State.submitted₁])
    · exact hsubmitted.trans (by simp [State.submitted₁])

theorem events_submit (s : State Value) (cpu : Nat) (es : List Event) :
    (s.submit cpu es).events = s.events ++ es := by
  unfold State.events
  rw [(submit_spec s cpu es).2.1]
  simp [Function.comp_def]

structure Tracked (labels : List Label) (s : State Value) : Prop where
  wal : Tracks walArgs walKinds s.walArgs s.events (walHits labels)
  xact : Tracks threadXact xactKinds s.threadXact s.events (xactHits labels)
  buffer : Tracks threadBuf bufferKinds s.threadBuf s.events (bufferHits labels)

theorem Submits.kinds {hit : Hit} {kinds : List EventKind} {es : List Event}
    (h : Submits hit kinds es) {others : List EventKind} (hothers : ∀ kind ∈ kinds, kind ∉ others) :
    ∀ e ∈ es, e.payload.kind ∉ others :=
  fun e he => hothers _ (h.tid e he).2

theorem Tracked.step {l : Label} (h : Tracked labels s) (hstep : step toValue s l = some t) :
    Tracked (labels ++ [l]) t := by
  cases l with
  | wal cpu hit =>
    have hwals : walHits (labels ++ [.wal cpu hit]) = walHits labels ++ [hit] := by simp [walHits]
    have hxacts : xactHits (labels ++ [.wal cpu hit]) = xactHits labels := by simp [xactHits]
    have hbuffers : bufferHits (labels ++ [.wal cpu hit]) = bufferHits labels := by
      simp [bufferHits]
    obtain ⟨-, heq⟩ := Option.ite_none_right_eq_some.mp hstep
    cases heq
    have hsubmits : Submits hit.hit walKinds (walArgs.output s.walArgs hit) := wal_submits hit _
    obtain ⟨-, -, hwal, hxact, hbuffer, -⟩ := submit_spec
      { s with walArgs := walArgs.step s.walArgs hit } cpu (walArgs.output s.walArgs hit)
    refine ⟨?_, ?_, ?_⟩
    · rw [hwal, events_submit, hwals]
      exact h.wal.own fun e he => (hsubmits.tid e he).2
    · rw [hxact, events_submit, hxacts]
      exact h.xact.other (hsubmits.kinds (by decide))
    · rw [hbuffer, events_submit, hbuffers]
      exact h.buffer.other (hsubmits.kinds (by decide))
  | xact cpu hit =>
    have hwals : walHits (labels ++ [.xact cpu hit]) = walHits labels := by simp [walHits]
    have hxacts : xactHits (labels ++ [.xact cpu hit]) = xactHits labels ++ [hit] := by
      simp [xactHits]
    have hbuffers : bufferHits (labels ++ [.xact cpu hit]) = bufferHits labels := by
      simp [bufferHits]
    obtain ⟨-, heq⟩ := Option.ite_none_right_eq_some.mp hstep
    cases heq
    have hsubmits : Submits hit.hit xactKinds (threadXact.output s.threadXact hit) :=
      xact_submits hit _
    obtain ⟨-, -, hwal, hxact, hbuffer, -⟩ := submit_spec
      { s with threadXact := threadXact.step s.threadXact hit } cpu
      (threadXact.output s.threadXact hit)
    refine ⟨?_, ?_, ?_⟩
    · rw [hwal, events_submit, hwals]
      exact h.wal.other (hsubmits.kinds (by decide))
    · rw [hxact, events_submit, hxacts]
      exact h.xact.own fun e he => (hsubmits.tid e he).2
    · rw [hbuffer, events_submit, hbuffers]
      exact h.buffer.other (hsubmits.kinds (by decide))
  | buffer cpu hit =>
    have hwals : walHits (labels ++ [.buffer cpu hit]) = walHits labels := by simp [walHits]
    have hxacts : xactHits (labels ++ [.buffer cpu hit]) = xactHits labels := by simp [xactHits]
    have hbuffers : bufferHits (labels ++ [.buffer cpu hit]) = bufferHits labels ++ [hit] := by
      simp [bufferHits]
    obtain ⟨-, heq⟩ := Option.ite_none_right_eq_some.mp hstep
    cases heq
    have hsubmits : Submits hit.hit bufferKinds (threadBuf.output s.threadBuf hit) :=
      buffer_submits hit _
    obtain ⟨-, -, hwal, hxact, hbuffer, -⟩ := submit_spec
      { s with threadBuf := threadBuf.step s.threadBuf hit } cpu (threadBuf.output s.threadBuf hit)
    refine ⟨?_, ?_, ?_⟩
    · rw [hwal, events_submit, hwals]
      exact h.wal.other (hsubmits.kinds (by decide))
    · rw [hxact, events_submit, hxacts]
      exact h.xact.other (hsubmits.kinds (by decide))
    · rw [hbuffer, events_submit, hbuffers]
      exact h.buffer.own fun e he => (hsubmits.tid e he).2
  | read pad seq =>
    have hwals : walHits (labels ++ [.read pad seq]) = walHits labels := by simp [walHits]
    have hxacts : xactHits (labels ++ [.read pad seq]) = xactHits labels := by simp [xactHits]
    have hbuffers : bufferHits (labels ++ [.read pad seq]) = bufferHits labels := by
      simp [bufferHits]
    have hsame : t.walArgs = s.walArgs ∧ t.threadXact = s.threadXact ∧
        t.threadBuf = s.threadBuf ∧ t.submitted = s.submitted := by
      simp only [Kernel.step] at hstep
      split at hstep
      · cases hstep
      · split at hstep
        · cases hstep
          exact ⟨rfl, rfl, rfl, rfl⟩
        · cases hstep
    obtain ⟨hwal, hxact, hbuffer, hsubmitted⟩ := hsame
    have hevents : t.events = s.events := congrArg (List.map Prod.snd) hsubmitted
    refine ⟨?_, ?_, ?_⟩
    · rw [hwal, hevents, hwals]
      exact h.wal
    · rw [hxact, hevents, hxacts]
      exact h.xact
    · rw [hbuffer, hevents, hbuffers]
      exact h.buffer

theorem Tracked.unread {pad : Nat → UInt8} {seq : UInt64}
    (h : Tracked (labels ++ [.read pad seq]) s) : Tracked labels s := by
  have hwals : walHits (labels ++ [.read pad seq]) = walHits labels := by simp [walHits]
  have hxacts : xactHits (labels ++ [.read pad seq]) = xactHits labels := by simp [xactHits]
  have hbuffers : bufferHits (labels ++ [.read pad seq]) = bufferHits labels := by simp [bufferHits]
  obtain ⟨hwal, hxact, hbuffer⟩ := h
  rw [hwals] at hwal
  rw [hxacts] at hxact
  rw [hbuffers] at hbuffer
  exact ⟨hwal, hxact, hbuffer⟩

theorem tracked_run (hrun : (kernel toValue).run labels = some s) : Tracked labels s := by
  have hinit : Tracked [] (kernel toValue).init := ⟨⟨rfl, rfl⟩, ⟨rfl, rfl⟩, ⟨rfl, rfl⟩⟩
  exact run_history hinit (fun _ _ _ _ _ h hstep => h.step hstep) hrun

theorem alone_xactEvents (xact : Option ThreadXact) (hits : List XactHit) :
    threadXact.alone xact hits = xactEvents xact hits := by
  induction hits generalizing xact with
  | nil => rfl
  | cons h hits ih => exact congrArg ((h.run xact).2 ++ ·) (ih _)

def Label.hit : Label → Option Hit
  | .wal _ h => some h.hit
  | .xact _ h => some h.hit
  | .buffer _ h => some h.hit
  | .read .. => none

/-- With no more threads than entries, the events of each are those that its own hits submit one
after the other, in every order of the hits of all. -/
theorem threads_alone (hrun : (kernel toValue).run labels = some s) {threads : Finset UInt32}
    (hcap : threads.card ≤ 4096)
    (hthreads : ∀ l ∈ labels, ∀ hit, l.hit = some hit → hit.tid ∈ threads) (tid : UInt32) :
    s.eventsOf tid walKinds = walArgs.alone none ((walHits labels).filter (·.hit.tid = tid)) ∧
      s.eventsOf tid xactKinds = xactEvents none ((xactHits labels).filter (·.hit.tid = tid)) ∧
      s.eventsOf tid bufferKinds =
        threadBuf.alone none ((bufferHits labels).filter (·.hit.tid = tid)) := by
  have htracked := tracked_run hrun
  have hcap' : threads.card ≤ 8192 := Nat.le_trans hcap (by decide)
  refine ⟨?_, ?_, ?_⟩
  · refine htracked.wal.alone (fun _ => rfl) wal_submits hcap (fun h hh => ?_) tid
    obtain ⟨l, hl, hlh⟩ := List.mem_filterMap.mp hh
    cases l <;> cases hlh
    exact hthreads _ hl _ rfl
  · rw [← alone_xactEvents]
    refine htracked.xact.alone (fun _ => rfl) xact_submits hcap' (fun h hh => ?_) tid
    obtain ⟨l, hl, hlh⟩ := List.mem_filterMap.mp hh
    cases l <;> cases hlh
    exact hthreads _ hl _ rfl
  · refine htracked.buffer.alone (fun _ => rfl) buffer_submits hcap' (fun h hh => ?_) tid
    obtain ⟨l, hl, hlh⟩ := List.mem_filterMap.mp hh
    cases l <;> cases hlh
    exact hthreads _ hl _ rfl

end

/-- Two threads' inserts on two CPUs, the second's between the first's probes. -/
def twoThreads : List Label :=
  [.wal 0 (.heapEntry .insert 5 (threadHit 7)), .wal 1 (.heapEntry .update 6 (threadHit 8)),
    .wal 0 (.xlogReturn (threadHit 7)), .wal 1 (.xlogReturn (threadHit 8))]
where
  threadHit (tid : UInt64) : Hit := ⟨tid, 0, ⟨0, 0, 0, 0⟩, true⟩

theorem threads_alone_twoThreads : ∃ s : State Unit,
    (kernel fun _ => some ()).run twoThreads = some s ∧
      s.eventsOf 7 walKinds =
        walArgs.alone none ((walHits twoThreads).filter (·.hit.tid = 7)) ∧
      (s.eventsOf 7 walKinds).length = 1 := by
  have hsome : ((kernel fun _ => some ()).run twoThreads).isSome := by decide
  obtain ⟨s, hrun⟩ := Option.isSome_iff_exists.mp hsome
  have hthreads :
      ∀ l ∈ twoThreads, ∀ hit, l.hit = some hit → hit.tid ∈ ({7, 8} : Finset UInt32) := by
    intro l hl hit hhit
    simp only [twoThreads, List.mem_cons, List.not_mem_nil, or_false] at hl
    rcases hl with rfl | rfl | rfl | rfl <;> (cases hhit; decide)
  obtain ⟨hwal, -⟩ := threads_alone hrun (by decide) hthreads 7
  exact ⟨s, hrun, hwal, by rw [hwal]; decide⟩

end LearnPg.Collector.Kernel
