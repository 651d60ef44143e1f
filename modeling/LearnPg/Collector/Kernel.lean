import LearnPg.Basis.Runs
import LearnPg.Basis.Slots
import LearnPg.Collector.BufferPins
import LearnPg.Collector.EventWire
import LearnPg.Collector.WalAttribution
import LearnPg.Collector.XactPairs

/-! All probes of all threads over the maps they share, with the ring buffer between them and its
reader. A probe is one step: what it does to the maps it does under its own thread's key. -/
namespace LearnPg.Collector.Kernel

open Wal Basis.Maps Basis.Runs Basis.Slots

/-! The hits. -/

inductive WalHit where
  | heapEntry (call : HeapCall) (relOid : UInt32) (hit : Hit)
  | xlogEntry (hit : Hit)
  | xlogReturn (hit : Hit)

def WalHit.hit : WalHit → Hit
  | heapEntry _ _ hit | xlogEntry hit | xlogReturn hit => hit

/-- The thread's entry after a hit, and the events it submits. -/
def WalHit.run : WalHit → Option WalArgs → Option WalArgs × List Event
  | heapEntry call relOid _, _ => (some (call.probeEntry relOid), [])
  | xlogEntry hit, args => (some (probeXlogInsertEntry hit args), [])
  | xlogReturn hit, args => probeXlogInsertReturn hit args

inductive BufferHit where
  | entry (hit : Hit) (memory : KernelMemory)
  | ret (hit : Hit)

def BufferHit.hit : BufferHit → Hit
  | entry hit _ | ret hit => hit

def BufferHit.run : BufferHit → Option ThreadBuf → Option ThreadBuf × List Event
  | entry hit memory, _ => (some (probeBufEntry hit memory), [])
  | ret hit, state => probeBufReturn hit state

/-! The maps. -/

def walArgs : Table UInt32 WalArgs WalHit Event := ⟨4096, fun h => h.hit.tid, WalHit.run⟩

def threadXact : Table UInt32 ThreadXact XactHit Event := ⟨8192, fun h => h.hit.tid, XactHit.run⟩

def threadBuf : Table UInt32 ThreadBuf BufferHit Event := ⟨8192, fun h => h.hit.tid, BufferHit.run⟩

/-- `probe_counts`, a value for each CPU under each key. -/
structure ProbeCounts where
  present : UInt32 → Bool
  value : Nat → UInt32 → UInt64

def probeIdx : EventKind → UInt32
  | .walInsert => 0
  | .bufferPin => 1
  | .xactState => 2
  | .lock => 3

/-- A key that is not there yet is made with zeros for the other CPUs. -/
def ProbeCounts.probeHit (counts : ProbeCounts) (cpu : Nat) (idx : UInt32) : ProbeCounts :=
  if counts.present idx then
    { counts with
      value := Function.update counts.value cpu
        (Function.update (counts.value cpu) idx (counts.value cpu idx + 1)) }
  else
    { present := Function.update counts.present idx true
      value := fun other =>
        Function.update (counts.value other) idx (if other = cpu then 1 else 0) }

/-! The ring buffer. -/

def ringSize : Nat := 256 * 1024

/-- A record has a header of 8 bytes. -/
def recordSize : Nat := 88 + 8

/-- `ring` holds the records that the reader has not consumed. `submitted`, with the CPU of each,
and `consumed` record what went in and out. -/
structure State (Value : Type) where
  walArgs : Map UInt32 WalArgs
  threadXact : Map UInt32 ThreadXact
  threadBuf : Map UInt32 ThreadBuf
  counts : ProbeCounts
  ring : List Event
  handed : List (WsEvent Value)
  submitted : List (Nat × Event)
  consumed : List Event

section

variable {Value : Type}

/-- `bpf_ringbuf_reserve` gets a record. -/
def State.hasRoom (s : State Value) : Bool :=
  recordSize * s.ring.length + recordSize < ringSize

def State.submitted₁ (s : State Value) (cpu : Nat) (e : Event) : State Value :=
  { s with
    ring := s.ring ++ [e]
    counts := s.counts.probeHit cpu (probeIdx e.payload.kind)
    submitted := s.submitted ++ [(cpu, e)] }

def State.submit (s : State Value) (cpu : Nat) (es : List Event) : State Value :=
  es.foldl (·.submitted₁ cpu ·) s

inductive Label where
  | wal (cpu : Nat) (h : WalHit)
  | xact (cpu : Nat) (h : XactHit)
  | buffer (cpu : Nat) (h : BufferHit)
  /-- The reader's next record, with the bytes that no member of its payload covers. -/
  | read (pad : Nat → UInt8) (seq : UInt64)

/-- A hit's `room` is the ring buffer's; `toValue` is the JSON library. -/
def step (toValue : EventData → Option Value) (s : State Value) : Label → Option (State Value)
  | .wal cpu h =>
    if h.hit.room = s.hasRoom then
      some ({ s with walArgs := walArgs.step s.walArgs h }.submit cpu (walArgs.output s.walArgs h))
    else none
  | .xact cpu h =>
    if h.hit.room = s.hasRoom then
      some ({ s with threadXact := threadXact.step s.threadXact h }.submit cpu
        (threadXact.output s.threadXact h))
    else none
  | .buffer cpu h =>
    if h.hit.room = s.hasRoom then
      some ({ s with threadBuf := threadBuf.step s.threadBuf h }.submit cpu
        (threadBuf.output s.threadBuf h))
    else none
  | .read pad seq =>
    match s.ring with
    | [] => none
    | e :: rest =>
      match parseRawEvent toValue seq (e.bytes pad) with
      | .ok event => some { s with
          ring := rest
          handed := s.handed ++ event.toList
          consumed := s.consumed ++ [e] }
      | .error _ => none

def kernel (toValue : EventData → Option Value) : Machine (State Value) Label where
  init := ⟨∅, ∅, ∅, ⟨fun _ => false, fun _ _ => 0⟩, [], [], [], []⟩
  step := step toValue

end

end LearnPg.Collector.Kernel
