import LearnPg.Basis.Utf8
import LearnPg.Collector.ProbeEvent
import LearnPg.Collector.Reader

/-! The collector's decoder of ring buffer entries. A slice taken past the end is
a panic here, so that the absence of panics is something to prove. -/
namespace LearnPg.Collector
open Wal LearnPg.Basis LearnPg.Basis.StructLayout

inductive Panic where
  | outOfRange
  | expect (text : String)
deriving DecidableEq, Repr

/-- `raw[i]`. -/
def index (raw : Bytes) (i : Nat) : Except Panic UInt8 :=
  match raw[i]? with
  | some b => .ok b
  | none => .error .outOfRange

/-- `&raw[lo..hi]`. -/
def sliceOf (raw : Bytes) (lo hi : Nat) : Except Panic Bytes :=
  if lo ≤ hi ∧ hi ≤ raw.length then .ok (slice raw lo hi) else .error .outOfRange

/-- `try_into().expect(text)` into an array of `n` bytes. -/
def expectLength (n : Nat) (text : String) (bytes : Bytes) : Except Panic Bytes :=
  if bytes.length = n then .ok bytes else .error (.expect text)

def readU32 (raw : Bytes) (offset : Nat) : Except Panic UInt32 := do
  let bytes ← sliceOf raw offset (offset + 4)
  let bytes ← expectLength 4 "u32 bytes" bytes
  pure (readLE32 bytes)

def readU64 (raw : Bytes) (offset : Nat) : Except Panic UInt64 := do
  let bytes ← sliceOf raw offset (offset + 8)
  let bytes ← expectLength 8 "u64 bytes" bytes
  pure (readLE64 bytes)

/-- `position(|byte| *byte == 0).unwrap_or(bytes.len())`, and the slice up to there. -/
def cstrFromBytes (bytes : Bytes) : String :=
  String.ofList (Utf8.decodeLossy (bytes.take ((bytes.findIdx? (· == 0)).getD bytes.length)))

def eventHeaderLen : Nat := 24
def walPayloadOffset : Nat := eventHeaderLen
def bufPayloadOffset : Nat := eventHeaderLen
def xactPayloadOffset : Nat := eventHeaderLen
def lockPayloadOffset : Nat := eventHeaderLen
def walPayloadSize : Nat := 20
def bufPayloadSize : Nat := 16
def xactPayloadSize : Nat := 64
def lockPayloadSize : Nat := 40

inductive LockMode where
  | noLock | forShare | forUpdate | exclusive | shareLock | shareUpdateExclusive | accessExclusive
deriving DecidableEq, Repr

structure BufferPinEvent where
  bufferId : UInt32
  isHit : Bool
  relfilenode : UInt64
  forkNum : UInt8
  blockNum : UInt32
  lockMode : LockMode
deriving DecidableEq, Repr

structure XactStateEvent where
  xid : UInt32
  vxid : String
  state : String
  lsn : Option String
  topXid : Option UInt32
deriving DecidableEq, Repr

structure LockEvent where
  xid : UInt32
  mode : LockMode
  granted : Bool
  locktag : String
deriving DecidableEq, Repr

/-- What an event carries before it is turned into JSON. -/
inductive EventData where
  | walInsert (event : WalInsertEvent)
  | bufferPin (event : BufferPinEvent)
  | xactState (event : XactStateEvent)
  | lock (event : LockEvent)
deriving DecidableEq, Repr

structure WsEvent (Value : Type) where
  eventType : String
  timestamp : UInt64
  pid : UInt32
  seq : UInt64
  data : Value
deriving DecidableEq, Repr

def walSrcToSource : UInt8 → String
  | 1 => "ebpf:heap_insert"
  | 2 => "ebpf:heap_update"
  | 3 => "ebpf:heap_delete"
  | 4 => "ebpf:xlog"
  | _ => "ebpf:unknown"

/-- The lock modes `parse_lock_event` maps bytes to. -/
def lockModeOf : UInt8 → LockMode
  | 0 => .noLock
  | 1 => .forShare
  | 2 => .forUpdate
  | 3 => .exclusive
  | 4 => .shareLock
  | 5 => .shareUpdateExclusive
  | 6 => .accessExclusive
  | _ => .noLock

section
variable {Value : Type} (toValue : EventData → Option Value) (seq : UInt64)

/-- The event to send; `toValue` is the JSON library and `seq` the counter's next number. -/
def wsEvent (eventType : String) (timestamp : UInt64) (pid : UInt32) (data : EventData) :
    Option (WsEvent Value) :=
  (toValue data).map fun value => { eventType, timestamp, pid, seq, data := value }

def parseWalEvent (raw : Bytes) (timestamp : UInt64) (pid : UInt32) :
    Except Panic (Option (WsEvent Value)) :=
  if raw.length < walPayloadOffset + walPayloadSize then pure none
  else do
    let p := walPayloadOffset
    let lsnValue ← readU64 raw p
    let recordLen ← readU32 raw (p + 8)
    let xid ← readU32 raw (p + 12)
    let rmgrId ← index raw (p + 16)
    let info ← index raw (p + 17)
    let src ← index raw (p + 18)
    let blockCount ← index raw (p + 19)
    pure (wsEvent toValue seq "wal_insert" timestamp pid (.walInsert {
      xlogPtr := formatLSN64 lsnValue
      lsnValue
      recordLen
      payloadLen := 0
      rmgrId
      rmgrName := (RmgrId.ofByte rmgrId).name
      operation := operationName rmgrId info
      info
      xid
      blockNum := none
      relOid := none
      blocks := []
      source := walSrcToSource src
      blockCount }))

def parseBufferPinEvent (raw : Bytes) (timestamp : UInt64) (pid : UInt32) :
    Except Panic (Option (WsEvent Value)) :=
  if raw.length < bufPayloadOffset + bufPayloadSize then pure none
  else do
    let p := bufPayloadOffset
    let bufferId ← readU32 raw p
    let isHit ← index raw (p + 4)
    let forkNum ← index raw (p + 5)
    let blockNum ← readU32 raw (p + 8)
    let relNode ← readU32 raw (p + 12)
    pure (wsEvent toValue seq "buffer_pin" timestamp pid (.bufferPin {
      bufferId
      isHit := isHit != 0
      relfilenode := relNode.toUInt64
      forkNum
      blockNum
      lockMode := .noLock }))

def parseXactEvent (raw : Bytes) (timestamp : UInt64) (pid : UInt32) :
    Except Panic (Option (WsEvent Value)) :=
  if raw.length < xactPayloadOffset + xactPayloadSize then pure none
  else do
    let p := xactPayloadOffset
    let xid ← readU32 raw p
    let topXid ← readU32 raw (p + 4)
    let lsn ← readU64 raw (p + 8)
    let state ← sliceOf raw (p + 16) (p + 32)
    let vxid ← sliceOf raw (p + 32) (p + 64)
    pure (wsEvent toValue seq "xact_state" timestamp pid (.xactState {
      xid
      vxid := cstrFromBytes vxid
      state := cstrFromBytes state
      lsn := if lsn = 0 then none else some (formatLSN64 lsn)
      topXid := if topXid = 0 then none else some topXid }))

def parseLockEvent (raw : Bytes) (timestamp : UInt64) (pid : UInt32) :
    Except Panic (Option (WsEvent Value)) :=
  if raw.length < lockPayloadOffset + lockPayloadSize then pure none
  else do
    let p := lockPayloadOffset
    let xid ← readU32 raw p
    let mode ← index raw (p + 4)
    let granted ← index raw (p + 5)
    let locktag ← sliceOf raw (p + 8) (p + 40)
    pure (wsEvent toValue seq "lock" timestamp pid (.lock {
      xid
      mode := lockModeOf mode
      granted := granted != 0
      locktag := cstrFromBytes locktag }))

def parseRawEvent (raw : Bytes) : Except Panic (Option (WsEvent Value)) :=
  if raw.length < eventHeaderLen then pure none
  else do
    let kind ← readU32 raw 0
    let timestamp ← readU64 raw 8
    let pid ← readU32 raw 20
    if kind = 1 then parseWalEvent toValue seq raw timestamp pid
    else if kind = 2 then parseBufferPinEvent toValue seq raw timestamp pid
    else if kind = 3 then parseXactEvent toValue seq raw timestamp pid
    else if kind = 4 then parseLockEvent toValue seq raw timestamp pid
    else pure none

end

/-! Reads within the bytes. -/

theorem index_ok {raw : Bytes} {i : Nat} (h : i + 1 ≤ raw.length) :
    index raw i = .ok (byteAt raw i) := by
  rw [index, byteAt, List.getD_eq_getElem?_getD, List.getElem?_eq_getElem h]
  rfl

theorem sliceOf_ok {raw : Bytes} {lo hi : Nat} (hlo : lo ≤ hi) (hhi : hi ≤ raw.length) :
    sliceOf raw lo hi = .ok (slice raw lo hi) :=
  if_pos ⟨hlo, hhi⟩

theorem readU32_ok {raw : Bytes} {offset : Nat} (h : offset + 4 ≤ raw.length) :
    readU32 raw offset = .ok (readLE32 (slice raw offset (offset + 4))) := by
  have hlen : (slice raw offset (offset + 4)).length = 4 := by
    rw [slice_length]
    omega
  rw [readU32, sliceOf_ok (by omega) h]
  show (expectLength 4 _ _ >>= _) = _
  rw [expectLength, if_pos hlen]
  rfl

theorem readU64_ok {raw : Bytes} {offset : Nat} (h : offset + 8 ≤ raw.length) :
    readU64 raw offset = .ok (readLE64 (slice raw offset (offset + 8))) := by
  have hlen : (slice raw offset (offset + 8)).length = 8 := by
    rw [slice_length]
    omega
  rw [readU64, sliceOf_ok (by omega) h]
  show (expectLength 8 _ _ >>= _) = _
  rw [expectLength, if_pos hlen]
  rfl

theorem except_ok_bind {α β : Type} (a : α) (f : α → Except Panic β) :
    (Except.ok a >>= f) = f a := rfl

theorem answers_of_long {α : Type} {raw : Bytes} {len : Nat} {decode : Except Panic (Option α)}
    (h : ¬ raw.length < len → ∃ answer, decode = .ok answer) :
    ∃ answer, (if raw.length < len then pure none else decode) = .ok answer := by
  split
  case isTrue => exact ⟨none, rfl⟩
  case isFalse hlen => exact h hlen

section
variable {Value : Type} (toValue : EventData → Option Value) (seq : UInt64) (raw : Bytes)
  (timestamp : UInt64) (pid : UInt32)

theorem parseWalEvent_answers :
    ∃ answer, parseWalEvent toValue seq raw timestamp pid = .ok answer := by
  refine answers_of_long fun hlen => ?_
  simp only [walPayloadOffset, walPayloadSize, eventHeaderLen] at hlen ⊢
  simp (disch := omega) only [readU64_ok, readU32_ok, index_ok, except_ok_bind]
  exact ⟨_, rfl⟩

theorem parseBufferPinEvent_answers :
    ∃ answer, parseBufferPinEvent toValue seq raw timestamp pid = .ok answer := by
  refine answers_of_long fun hlen => ?_
  simp only [bufPayloadOffset, bufPayloadSize, eventHeaderLen] at hlen ⊢
  simp (disch := omega) only [readU32_ok, index_ok, except_ok_bind]
  exact ⟨_, rfl⟩

theorem parseXactEvent_answers :
    ∃ answer, parseXactEvent toValue seq raw timestamp pid = .ok answer := by
  refine answers_of_long fun hlen => ?_
  simp only [xactPayloadOffset, xactPayloadSize, eventHeaderLen] at hlen ⊢
  simp (disch := omega) only [readU64_ok, readU32_ok, sliceOf_ok, except_ok_bind]
  exact ⟨_, rfl⟩

theorem parseLockEvent_answers :
    ∃ answer, parseLockEvent toValue seq raw timestamp pid = .ok answer := by
  refine answers_of_long fun hlen => ?_
  simp only [lockPayloadOffset, lockPayloadSize, eventHeaderLen] at hlen ⊢
  simp (disch := omega) only [readU32_ok, index_ok, sliceOf_ok, except_ok_bind]
  exact ⟨_, rfl⟩

theorem parseRawEvent_header (h : eventHeaderLen ≤ raw.length) :
    parseRawEvent toValue seq raw =
      (let kind := readLE32 (slice raw 0 4)
      let timestamp := readLE64 (slice raw 8 16)
      let pid := readLE32 (slice raw 20 24)
      if kind = 1 then parseWalEvent toValue seq raw timestamp pid
      else if kind = 2 then parseBufferPinEvent toValue seq raw timestamp pid
      else if kind = 3 then parseXactEvent toValue seq raw timestamp pid
      else if kind = 4 then parseLockEvent toValue seq raw timestamp pid
      else pure none) := by
  rw [parseRawEvent, if_neg (Nat.not_lt.mpr h)]
  rw [eventHeaderLen] at h
  rw [readU32_ok (by omega), readU64_ok (by omega), readU32_ok (by omega)]
  rfl

/-- Whatever the bytes, the decoder answers. -/
theorem parseRawEvent_answers : ∃ answer, parseRawEvent toValue seq raw = .ok answer := by
  by_cases h : raw.length < eventHeaderLen
  · exact ⟨none, if_pos h⟩
  · rw [parseRawEvent_header toValue seq raw (Nat.not_lt.mp h)]
    dsimp only
    split
    · exact parseWalEvent_answers toValue seq raw _ _
    split
    · exact parseBufferPinEvent_answers toValue seq raw _ _
    split
    · exact parseXactEvent_answers toValue seq raw _ _
    split
    · exact parseLockEvent_answers toValue seq raw _ _
    · exact ⟨none, rfl⟩

end

/-! Reads of what the probe stored. -/

theorem index_of_hasAt {raw : Bytes} {i : Nat} {b : UInt8} (h : HasAt raw i [b]) :
    index raw i = .ok b := by
  have hle := h.le (List.cons_ne_nil b [])
  have hslice := slice_of_hasAt h rfl
  rw [index_ok hle, byteAt]
  rw [slice, Nat.add_sub_cancel_left] at hslice
  have := congrArg (·.getD 0 0) hslice
  simpa [List.getD_eq_getElem?_getD] using this

theorem sliceOf_of_hasAt {raw bytes : Bytes} {lo hi : Nat} (h : HasAt raw lo bytes)
    (hne : bytes ≠ []) (hhi : lo + bytes.length = hi) : sliceOf raw lo hi = .ok bytes := by
  have hle := h.le hne
  rw [sliceOf_ok (by omega) (by omega), slice_of_hasAt h hhi]

theorem readU32_of_hasAt {raw : Bytes} {offset : Nat} {v : UInt32}
    (h : HasAt raw offset (storeLE32 v)) : readU32 raw offset = .ok v := by
  have hslice : slice raw offset (offset + 4) = storeLE32 v := slice_of_hasAt h rfl
  rw [readU32_ok (h.le (List.cons_ne_nil _ _)), hslice, readLE32_storeLE32]

theorem readU64_of_hasAt {raw : Bytes} {offset : Nat} {v : UInt64}
    (h : HasAt raw offset (storeLE64 v)) : readU64 raw offset = .ok v := by
  have hslice : slice raw offset (offset + 8) = storeLE64 v := slice_of_hasAt h rfl
  rw [readU64_ok (h.le (List.cons_ne_nil _ _)), hslice, readLE64_storeLE64]

end LearnPg.Collector
