import LearnPg.Basis.Runs
import LearnPg.Collector.Probes

/-! To which call, and to which heap call, the WAL events of one thread are
attributed. That a heap call returns is no hit of any probe; the runs know it. -/
namespace LearnPg.Collector
open Wal LearnPg.Basis.Runs

inductive HeapCall where
  | insert | update | delete
deriving DecidableEq, Repr

namespace HeapCall

/-- The source the probe of the call marks its record with. -/
def src : HeapCall → UInt8
  | insert => walSrcHeapInsert
  | update => walSrcHeapUpdate
  | delete => walSrcHeapDelete

def probeEntry : HeapCall → UInt32 → WalArgs
  | insert => probeHeapInsertEntry
  | update => probeHeapUpdateEntry
  | delete => probeHeapDeleteEntry

theorem probeEntry_spec (call : HeapCall) (relOid : UInt32) :
    (call.probeEntry relOid).xid = 0 ∧ (call.probeEntry relOid).src = call.src := by
  cases call <;> exact ⟨rfl, rfl⟩

theorem src_ne_xlog (call : HeapCall) : call.src ≠ walSrcXlog := by
  cases call <;> decide

end HeapCall

/-- What the thread does: it enters and leaves heap calls, and it calls
`XLogInsert(rmid, info)`, where both of the call's probes are hit. -/
inductive WalStep where
  | heapEntry (call : HeapCall) (relOid : UInt32)
  | heapReturn
  | xlogInsert (entry ret : Hit)
deriving DecidableEq, Repr

structure Report where
  rmid : UInt8
  info : UInt8
  running : List HeapCall
  event : Event
deriving DecidableEq, Repr

structure WalState where
  running : List HeapCall
  walArgs : Option WalArgs
  reports : List Report
deriving DecidableEq, Repr

/-- The arguments of `XLogInsert`, in the registers the System V convention has them. -/
def Registers.rmid (regs : Registers) : UInt8 := regs.parm1.toUInt8
def Registers.info (regs : Registers) : UInt8 := regs.parm2.toUInt8

def walMachine : Machine WalState WalStep where
  init := ⟨[], none, []⟩
  step s
    | .heapEntry call relOid =>
      some { s with running := call :: s.running, walArgs := some (call.probeEntry relOid) }
    | .heapReturn =>
      match s.running with
      | [] => none
      | _ :: running => some { s with running }
    | .xlogInsert entry ret =>
      let (walArgs, events) :=
        probeXlogInsertReturn ret (some (probeXlogInsertEntry entry s.walArgs))
      some { s with
        walArgs
        reports := s.reports ++
          events.map (Report.mk entry.regs.rmid entry.regs.info s.running) }

/-- The event carries the call's arguments, and a heap source only of a running call. -/
def Report.Attributed (r : Report) : Prop :=
  ∃ p, r.event.payload = .wal p ∧ p.rmgrId = r.rmid ∧ p.info = r.info ∧
    ∀ call, p.src = call.src → call ∈ r.running

/-- The registers read are those of the arguments, in content if not in place, and the
record found, if there is one, is of a running call. -/
def Sound (s : WalState) : WalStep → Prop
  | .xlogInsert entry ret => ret.room = true →
    entry.regs.parm2.toUInt8 = entry.regs.rmid ∧ entry.regs.parm3.toUInt8 = entry.regs.info ∧
      ∀ args, s.walArgs = some args → ∀ call, args.src = call.src → call ∈ s.running
  | _ => True

/-- The entry found is always one that a heap probe left. -/
def OfHeap (s : WalState) : Prop :=
  ∀ args, s.walArgs = some args → args.xid = 0 ∧ ∃ call : HeapCall, args.src = call.src

theorem ofHeap_step (s : WalState) (step : WalStep) (t : WalState) (h : OfHeap s)
    (ht : walMachine.step s step = some t) : OfHeap t := by
  cases step with
  | heapEntry call relOid =>
    cases ht
    intro args hargs
    cases hargs
    exact ⟨(call.probeEntry_spec relOid).1, call, (call.probeEntry_spec relOid).2⟩
  | heapReturn =>
    simp only [walMachine] at ht
    split at ht
    · cases ht
    · cases ht
      exact h
  | xlogInsert entry ret =>
    cases ht
    exact nofun

theorem probeXlogInsert_reports {s : WalState} (h : OfHeap s) (entry : Hit) :
    (probeXlogInsertEntry entry s.walArgs).rmgrId = entry.regs.parm2.toUInt8 ∧
      (probeXlogInsertEntry entry s.walArgs).info = entry.regs.parm3.toUInt8 ∧
      ∀ call : HeapCall, (probeXlogInsertEntry entry s.walArgs).src = call.src ↔
        ∃ args, s.walArgs = some args ∧ args.src = call.src := by
  cases hargs : s.walArgs with
  | none =>
    refine ⟨rfl, rfl, fun call => ⟨fun hsrc => absurd hsrc.symm call.src_ne_xlog, ?_⟩⟩
    rintro ⟨args, hnone, -⟩
    cases hnone
  | some args =>
    obtain ⟨hxid, origin, horigin⟩ := h args hargs
    have hsrc : (probeXlogInsertEntry entry (some args)).src = args.src := by
      rw [probeXlogInsertEntry, if_pos hxid, horigin]
      cases origin <;> rfl
    refine ⟨?_, ?_, fun call => ?_⟩
    · rw [probeXlogInsertEntry, if_pos hxid]
    · rw [probeXlogInsertEntry, if_pos hxid]
    · rw [hsrc]
      constructor
      · exact fun hcall => ⟨args, rfl, hcall⟩
      · rintro ⟨_, hsome, hcall⟩
        cases hsome
        exact hcall

theorem attributed_step (s : WalState) (step : WalStep) (t : WalState) (h : OfHeap s)
    (ht : walMachine.step s step = some t) :
    (∀ r ∈ t.reports, r.Attributed) ↔ (∀ r ∈ s.reports, r.Attributed) ∧ Sound s step := by
  cases step with
  | heapEntry call relOid =>
    cases ht
    exact (and_iff_left trivial).symm
  | heapReturn =>
    simp only [walMachine] at ht
    split at ht
    · cases ht
    · cases ht
      exact (and_iff_left trivial).symm
  | xlogInsert entry ret =>
    cases ht
    obtain ⟨hrmgr, hinfo, hsrc⟩ := probeXlogInsert_reports h entry
    simp only [List.forall_mem_append, submit]
    apply and_congr_right
    intro _
    by_cases hroom : ret.room = true
    · rw [if_pos hroom, List.map_singleton, List.forall_mem_singleton]
      constructor
      · rintro ⟨p, hp, hp1, hp2, hp3⟩ -
        cases hp
        refine ⟨hrmgr ▸ hp1, hinfo ▸ hp2, fun args hargs call hcall => ?_⟩
        exact hp3 call ((hsrc call).mpr ⟨args, hargs, hcall⟩)
      · intro hsound
        obtain ⟨h1, h2, h3⟩ := hsound hroom
        refine ⟨_, rfl, hrmgr.trans h1, hinfo.trans h2, fun call hcall => ?_⟩
        obtain ⟨args, hargs, hargsrc⟩ := (hsrc call).mp hcall
        exact h3 args hargs call hargsrc
    · rw [if_neg hroom]
      exact iff_of_true (List.forall_mem_nil _) fun hr => absurd hr hroom

/-- WAL events are attributed correctly in exactly the runs whose calls have in the
registers read what they should hold, and find no record of a heap call that is over. -/
theorem reports_attributed_iff {steps : List WalStep} {s : WalState}
    (hrun : walMachine.run steps = some s) :
    (∀ r ∈ s.reports, r.Attributed) ↔ walMachine.Meets Sound walMachine.init steps :=
  run_monitored ofHeap_step attributed_step nofun (List.forall_mem_nil _) hrun

/-- A hit on the thread 7 with these first parameters. -/
def callHit (parm1 parm2 parm3 : UInt64) : Hit where
  pidTgid := 7
  ktimeNs := 0
  regs := ⟨0x16D4F30, parm1, parm2, parm3⟩
  room := true

def afterCall (parm1 parm2 parm3 : UInt64) : WalState where
  running := []
  walArgs := none
  reports := [{
    rmid := parm1.toUInt8
    info := parm2.toUInt8
    running := []
    event := newEvent (callHit 0 0 0) (.wal {
      xlogPtr := 0x16D4F30
      recordLen := 0
      xid := 0
      rmgrId := parm2.toUInt8
      info := parm3.toUInt8
      src := walSrcXlog
      blockCount := 0 }) }]

/-- `XLogInsert(RM_XACT_ID, XLOG_XACT_COMMIT)` with the third register at 5. -/
theorem not_attributed_commit :
    walMachine.run [.xlogInsert (callHit 1 0 5) (callHit 0 0 0)] = some (afterCall 1 0 5) ∧
      ¬ ∀ r ∈ (afterCall 1 0 5).reports, r.Attributed := by
  refine ⟨rfl, fun h => ?_⟩
  obtain ⟨p, hp, hrmgr, -⟩ := List.forall_mem_singleton.mp h
  cases hp
  revert hrmgr
  decide

theorem reports_attributed_iff_commit :
    (∀ r ∈ (afterCall 1 0 5).reports, r.Attributed) ↔
      walMachine.Meets Sound walMachine.init [.xlogInsert (callHit 1 0 5) (callHit 0 0 0)] :=
  reports_attributed_iff rfl

end LearnPg.Collector
