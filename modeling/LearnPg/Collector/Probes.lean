import LearnPg.Collector.ProbeEvent

/-! The uprobes of the collector: what each does to its thread's map entries, and
the events it submits. The maps are keyed by thread, so one thread's entries are
the whole state of its probes. -/
namespace LearnPg.Collector
open Wal

/-- The registers a probe reads: the return value and the first parameters. -/
structure Registers where
  rc : UInt64
  parm1 : UInt64
  parm2 : UInt64
  parm3 : UInt64
deriving DecidableEq, Repr

/-- What a probe is run with. `room` is whether the ring buffer has space. -/
structure Hit where
  pidTgid : UInt64
  ktimeNs : UInt64
  regs : Registers
  room : Bool
deriving DecidableEq, Repr

def fillHeader (hit : Hit) (kind : EventKind) : EventHeader where
  kind := kind.code
  size := 88
  timestamp := hit.ktimeNs / 1000
  tid := hit.pidTgid.toUInt32
  pid := (hit.pidTgid >>> 32).toUInt32

def newEvent (hit : Hit) (payload : Payload) : Event where
  header := fillHeader hit payload.kind
  payload
  kind_eq := rfl

/-- `bpf_ringbuf_reserve` and `bpf_ringbuf_submit`. -/
def submit (hit : Hit) (payload : Payload) : List Event :=
  if hit.room then [newEvent hit payload] else []

/-! WAL inserts. -/

structure WalArgs where
  xid : UInt32
  relOid : UInt32
  blockNum : UInt32
  rmgrId : UInt8
  info : UInt8
  src : UInt8
deriving DecidableEq, Repr

def walSrcHeapInsert : UInt8 := 1
def walSrcHeapUpdate : UInt8 := 2
def walSrcHeapDelete : UInt8 := 3
def walSrcXlog : UInt8 := 4

/-- `read_current_xid`, which cannot find the transaction and says so. -/
def readCurrentXid : UInt32 := 0

/-- The record a heap probe leaves; `relOid` is what it reads from the relation. -/
def heapArgs (src : UInt8) (blocks relOid : UInt32) : WalArgs where
  src
  rmgrId := 2
  info := 0
  xid := readCurrentXid
  blockNum := blocks
  relOid

def probeHeapInsertEntry (relOid : UInt32) : WalArgs := heapArgs walSrcHeapInsert 1 relOid
def probeHeapUpdateEntry (relOid : UInt32) : WalArgs := heapArgs walSrcHeapUpdate 2 relOid
def probeHeapDeleteEntry (relOid : UInt32) : WalArgs := heapArgs walSrcHeapDelete 1 relOid

def probeXlogInsertEntry (hit : Hit) : Option WalArgs → WalArgs
  | none =>
    { rmgrId := hit.regs.parm2.toUInt8
      info := hit.regs.parm3.toUInt8
      src := walSrcXlog
      xid := 0
      relOid := 0
      blockNum := 0 }
  | some existing =>
    let args := { existing with
      src :=
        if existing.src = walSrcHeapInsert then walSrcHeapInsert
        else if existing.src = walSrcHeapUpdate then walSrcHeapUpdate
        else if existing.src = walSrcHeapDelete then walSrcHeapDelete
        else walSrcXlog }
    if existing.xid = 0 then
      { args with rmgrId := hit.regs.parm2.toUInt8, info := hit.regs.parm3.toUInt8 }
    else args

/-- The thread's entry afterwards, and the events. -/
def probeXlogInsertReturn (hit : Hit) : Option WalArgs → Option WalArgs × List Event
  | none => (none, [])
  | some args =>
    (none, submit hit (.wal {
      xlogPtr := hit.regs.rc
      recordLen := 0
      xid := args.xid
      rmgrId := args.rmgrId
      info := args.info
      src := args.src
      blockCount := args.blockNum.toUInt8 }))

/-! Transactions and locks. -/

/-- A `char[16]` holding a text. -/
def stateText (text : List UInt8) : Vector UInt8 16 := Vector.ofFn fun i => text.getD i 0

def beginText : Vector UInt8 16 := stateText [98, 101, 103, 105, 110]
def commitText : Vector UInt8 16 := stateText [99, 111, 109, 109, 105, 116]
def abortText : Vector UInt8 16 := stateText [97, 98, 111, 114, 116]

structure ThreadXact where
  xid : UInt32
  topXid : UInt32
  state : Vector UInt8 16
deriving DecidableEq, Repr

def probeXactBegin : ThreadXact where
  xid := 0
  topXid := 0
  state := beginText

/-- What the probes of a commit and of an abort do. -/
def probeXactEnd (state : Vector UInt8 16) (hit : Hit) :
    Option ThreadXact → Option ThreadXact × List Event
  | none => (none, [])
  | some xact =>
    if hit.room then
      (none, [newEvent hit (.xact {
        xid := xact.xid
        topXid := xact.topXid
        lsn := 0
        state
        vxid := Vector.replicate 32 0 })])
    else (some xact, [])

def probeXactCommit : Hit → Option ThreadXact → Option ThreadXact × List Event :=
  probeXactEnd commitText

def probeXactAbort : Hit → Option ThreadXact → Option ThreadXact × List Event :=
  probeXactEnd abortText

def probeLockAcquireEntry : ThreadXact where
  xid := 0
  topXid := 0
  state := stateText []

def probeLockAcquireReturn (hit : Hit) : Option ThreadXact × List Event :=
  (none, submit hit (.lock {
    xid := 0
    mode := hit.regs.parm2.toUInt8
    granted := if hit.regs.rc ≠ 0 then 1 else 0
    pad := 0
    locktag := Vector.replicate 32 0 }))

/-- A hit of one of the probes that share the map of transactions. -/
inductive XactHit where
  | start (hit : Hit)
  | commit (hit : Hit)
  | abort (hit : Hit)
  | lockEntry (hit : Hit)
  | lockReturn (hit : Hit)
deriving DecidableEq, Repr

/-- The thread's entry after a hit, and the events it submits. -/
def XactHit.run : XactHit → Option ThreadXact → Option ThreadXact × List Event
  | start _, _ => (some probeXactBegin, [])
  | commit hit, xact => probeXactCommit hit xact
  | abort hit, xact => probeXactAbort hit xact
  | lockEntry _, _ => (some probeLockAcquireEntry, [])
  | lockReturn hit, _ => probeLockAcquireReturn hit

end LearnPg.Collector
