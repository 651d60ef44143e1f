import LearnPg.Basis.Runs
import LearnPg.Collector.Probes
import Mathlib.Logic.Function.Basic

/-! The probes of `ReadBuffer`, over the calls of all threads. -/
namespace LearnPg.Collector
open Wal Basis.Runs

structure ThreadBuf where
  relNode : UInt32
  blockNum : UInt32
  forkNum : UInt8
  isHit : UInt8
deriving DecidableEq, Repr

/-- What `bpf_probe_read_kernel` finds at an address, nothing where the read fails. The
variable read into is zero then. -/
structure KernelMemory where
  word64 : UInt64 → Option UInt64
  word32 : UInt64 → Option UInt32

def probeBufEntry (hit : Hit) (memory : KernelMemory) : ThreadBuf where
  relNode :=
    let relPtr := (memory.word64 hit.regs.parm1).getD 0
    if relPtr = 0 then 0
    else
      let relNode := (memory.word32 (relPtr + 0x18)).getD 0
      if relNode = 0 then (memory.word32 (relPtr + 0x10)).getD 0 else relNode
  forkNum := hit.regs.parm2.toUInt8
  blockNum := hit.regs.parm3.toUInt32
  isHit := 0

/-- The buffer that `ReadBuffer` returned, 0 for none. -/
def Hit.bufferId (hit : Hit) : UInt32 := hit.regs.rc.toUInt32

def bufferPayload (hit : Hit) (state : ThreadBuf) : BufferPayload where
  bufferId := hit.bufferId
  isHit := if 0 < state.blockNum then 1 else 0
  forkNum := state.forkNum
  pad1 := 0
  pad2 := 0
  blockNum := state.blockNum
  relNode := state.relNode

/-- The thread's entry afterwards, and the events. -/
def probeBufReturn (hit : Hit) : Option ThreadBuf → Option ThreadBuf × List Event
  | none => (none, [])
  | some state =>
    if hit.bufferId = 0 then (none, [])
    else (none, submit hit (.buf (bufferPayload hit state)))

/-! The threads. A call of a thread ends before its next one begins. -/

def Hit.tid (hit : Hit) : UInt32 := hit.pidTgid.toUInt32

/-- Where a thread is: in no call, or in one whose entry was seen or was not. -/
inductive BufferCall where
  | idle
  | unseen
  | seen (entry : Hit) (memory : KernelMemory)

/-- The map and the events submitted; `calls` is what the threads do, which no probe reads. -/
structure BufferProbes where
  threadBuf : UInt32 → Option ThreadBuf
  events : List Event
  calls : UInt32 → BufferCall

inductive BufferLabel where
  | entry (hit : Hit) (memory : KernelMemory)
  /-- A call begins where no probe is attached yet. -/
  | unseenEntry (tid : UInt32)
  | ret (hit : Hit)
  /-- An error jumps out of the call. -/
  | abandon (tid : UInt32)

/-- Both the map and the ring buffer have space. -/
def bufferStep (st : BufferProbes) : BufferLabel → Option BufferProbes
  | .entry hit memory =>
    match st.calls hit.tid with
    | .idle => some { st with
        threadBuf := Function.update st.threadBuf hit.tid (some (probeBufEntry hit memory))
        calls := Function.update st.calls hit.tid (.seen hit memory) }
    | _ => none
  | .unseenEntry tid =>
    match st.calls tid with
    | .idle => some { st with calls := Function.update st.calls tid .unseen }
    | _ => none
  | .ret hit =>
    match st.calls hit.tid with
    | .idle => none
    | _ =>
      if hit.room then
        let after := probeBufReturn hit (st.threadBuf hit.tid)
        some {
          threadBuf := Function.update st.threadBuf hit.tid after.1
          events := st.events ++ after.2
          calls := Function.update st.calls hit.tid .idle }
      else none
  | .abandon tid =>
    match st.calls tid with
    | .idle => none
    | _ => some { st with calls := Function.update st.calls tid .idle }

def bufferProbes : Machine BufferProbes BufferLabel where
  init := { threadBuf := fun _ => none, events := [], calls := fun _ => .idle }
  step := bufferStep

/-- A thread in a call whose entry was seen has the entry's arguments in the map. -/
def CallsRecorded (threadBuf : UInt32 → Option ThreadBuf) (calls : UInt32 → BufferCall) : Prop :=
  ∀ tid entry memory, calls tid = .seen entry memory →
    threadBuf tid = some (probeBufEntry entry memory)

section

variable {threadBuf threadBuf' : UInt32 → Option ThreadBuf} {calls : UInt32 → BufferCall}
  {tid : UInt32}

theorem CallsRecorded.enter {hit : Hit} {memory : KernelMemory} (h : CallsRecorded threadBuf calls) :
    CallsRecorded (Function.update threadBuf tid (some (probeBufEntry hit memory)))
      (Function.update calls tid (.seen hit memory)) := by
  intro other entry memory' hseen
  by_cases heq : other = tid
  · subst heq
    rw [Function.update_self] at hseen ⊢
    cases hseen
    rfl
  · rw [Function.update_of_ne heq] at hseen ⊢
    exact h other entry memory' hseen

theorem CallsRecorded.leave {call : BufferCall} (h : CallsRecorded threadBuf calls)
    (hcall : ∀ entry memory, call ≠ .seen entry memory)
    (hother : ∀ other, other ≠ tid → threadBuf' other = threadBuf other) :
    CallsRecorded threadBuf' (Function.update calls tid call) := by
  intro other entry memory hseen
  by_cases heq : other = tid
  · subst heq
    rw [Function.update_self] at hseen
    exact absurd hseen (hcall entry memory)
  · rw [Function.update_of_ne heq] at hseen
    rw [hother other heq]
    exact h other entry memory hseen

end

def BufferProbes.Recorded (st : BufferProbes) : Prop := CallsRecorded st.threadBuf st.calls

section

variable {st st' : BufferProbes} {hit : Hit}

theorem step_ret (h : bufferStep st (.ret hit) = some st') :
    hit.room = true ∧
      st'.threadBuf = Function.update st.threadBuf hit.tid none ∧
      st'.events = st.events ++ (probeBufReturn hit (st.threadBuf hit.tid)).2 ∧
      st'.calls = Function.update st.calls hit.tid .idle := by
  have hnone : ∀ state, (probeBufReturn hit state).1 = none := by
    intro state
    unfold probeBufReturn
    split
    · rfl
    · split
      · rfl
      · rfl
  unfold bufferStep at h
  dsimp only at h
  split at h
  · cases h
  · split at h
    next hroom =>
      cases h
      rw [hnone]
      exact ⟨hroom, rfl, rfl, rfl⟩
    next => cases h

theorem bufferStep_recorded {label : BufferLabel} (h : st.Recorded)
    (hstep : bufferStep st label = some st') : st'.Recorded := by
  cases label with
  | entry hit memory =>
    unfold bufferStep at hstep
    dsimp only at hstep
    split at hstep
    next =>
      cases hstep
      exact CallsRecorded.enter h
    next => cases hstep
  | unseenEntry tid =>
    unfold bufferStep at hstep
    dsimp only at hstep
    split at hstep
    next =>
      cases hstep
      exact CallsRecorded.leave h nofun fun _ _ => rfl
    next => cases hstep
  | ret hit =>
    obtain ⟨-, hbuf, -, hcalls⟩ := step_ret hstep
    unfold BufferProbes.Recorded
    rw [hbuf, hcalls]
    exact CallsRecorded.leave h nofun fun _ hne => Function.update_of_ne hne _ _
  | abandon tid =>
    unfold bufferStep at hstep
    dsimp only at hstep
    split at hstep
    next => cases hstep
    next =>
      cases hstep
      exact CallsRecorded.leave h nofun fun _ _ => rfl

/-- A return causes the one event that its own call's entry has the arguments of, or none if
it returns no buffer, and leaves nothing in the map. -/
theorem buffer_pin_pairing {labels : List BufferLabel} (hrun : bufferProbes.run labels = some st)
    (hstep : bufferProbes.step st (.ret hit) = some st') :
    st'.threadBuf hit.tid = none ∧
      (hit.bufferId = 0 → st'.events = st.events) ∧
      (hit.bufferId ≠ 0 → ∀ entry memory, st.calls hit.tid = .seen entry memory →
        st'.events = st.events ++
          [newEvent hit (.buf (bufferPayload hit (probeBufEntry entry memory)))]) := by
  have hinit : bufferProbes.init.Recorded := fun _ _ _ => nofun
  have hrecorded : st.Recorded := run_keeps hinit (fun _ _ _ => bufferStep_recorded) hrun
  obtain ⟨hroom, hbuf, hevents, -⟩ := step_ret hstep
  refine ⟨?_, fun hzero => ?_, fun hne entry memory hseen => ?_⟩
  · rw [hbuf, Function.update_self]
  · have hnone : (probeBufReturn hit (st.threadBuf hit.tid)).2 = [] := by
      unfold probeBufReturn
      split
      · rfl
      · rw [if_pos hzero]
    rw [hevents, hnone, List.append_nil]
  · rw [hevents, hrecorded hit.tid entry memory hseen, probeBufReturn, if_neg hne, submit,
      if_pos hroom]

end

/-- The first page of a relation, read by thread 7 into buffer 3. -/
def readHit (rc : UInt64) : Hit where
  pidTgid := 7
  ktimeNs := 0
  regs := { rc, parm1 := 0, parm2 := 0, parm3 := 0 }
  room := true

def noMemory : KernelMemory := ⟨fun _ => none, fun _ => none⟩

def abandonedThenRead : List BufferLabel :=
  [.entry (readHit 0) noMemory, .abandon 7, .entry (readHit 0) noMemory]

theorem buffer_pin_pairing_abandoned : ∃ st st', bufferProbes.run abandonedThenRead = some st ∧
    bufferProbes.step st (.ret (readHit 3)) = some st' ∧ st'.threadBuf 7 = none ∧
    st'.events = [newEvent (readHit 3)
      (.buf (bufferPayload (readHit 3) (probeBufEntry (readHit 0) noMemory)))] := by
  refine ⟨_, _, rfl, rfl, ?_⟩
  have h := @buffer_pin_pairing _ _ (readHit 3) abandonedThenRead rfl rfl
  exact ⟨h.1, h.2.2 (by decide) _ _ rfl⟩

end LearnPg.Collector
