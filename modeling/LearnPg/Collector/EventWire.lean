import LearnPg.Collector.EventParser

/-! What the decoder makes of the events the probes store: the two sides, written in
different languages, agree on every offset. -/
namespace LearnPg.Collector
open Wal LearnPg.Basis LearnPg.Basis.StructLayout

def EventKind.eventType : EventKind → String
  | walInsert => "wal_insert"
  | bufferPin => "buffer_pin"
  | xactState => "xact_state"
  | lock => "lock"

def textOf {n : Nat} (text : Vector UInt8 n) : Bytes := text.toList.takeWhile (· != 0)

/-- The decoded text is the stored one, byte for byte, if that is ASCII. -/
def RecoversText {n : Nat} (text : Vector UInt8 n) (decoded : String) : Prop :=
  (∀ b ∈ textOf text, b < 0x80) →
    decoded = String.ofList ((textOf text).map fun b => Char.ofNat b.toNat)

/-- The event carries every field of the payload. -/
def Recovers : Payload → EventData → Prop
  | .wal p, .walInsert d =>
    d.lsnValue = p.xlogPtr ∧ d.xlogPtr = formatLSN64 p.xlogPtr ∧ d.recordLen = p.recordLen ∧
      d.xid = p.xid ∧ d.rmgrId = p.rmgrId ∧ d.rmgrName = (RmgrId.ofByte p.rmgrId).name ∧
      d.info = p.info ∧ d.operation = operationName p.rmgrId p.info ∧
      d.source = walSrcToSource p.src ∧ d.blockCount = p.blockCount
  | .buf p, .bufferPin d =>
    d.bufferId = p.bufferId ∧ (d.isHit = true ↔ p.isHit ≠ 0) ∧ d.forkNum = p.forkNum ∧
      d.blockNum = p.blockNum ∧ d.relfilenode.toNat = p.relNode.toNat
  | .xact p, .xactState d =>
    d.xid = p.xid ∧ d.topXid = (if p.topXid = 0 then none else some p.topXid) ∧
      d.lsn = (if p.lsn = 0 then none else some (formatLSN64 p.lsn)) ∧
      RecoversText p.state d.state ∧ RecoversText p.vxid d.vxid
  | .lock p, .lock d =>
    d.xid = p.xid ∧ d.mode = lockModeOf p.mode ∧ (d.granted = true ↔ p.granted ≠ 0) ∧
      RecoversText p.locktag d.locktag
  | _, _ => False

theorem recoversText_cstrFromBytes {n : Nat} (text : Vector UInt8 n) :
    RecoversText text (cstrFromBytes text.toList) := by
  intro hascii
  have htext : text.toList.take ((text.toList.findIdx? (· == 0)).getD text.toList.length) =
      textOf text := by
    rw [textOf, List.takeWhile_eq_take_findIdx_not, ← List.findIdx_eq_getD_findIdx?]
    simp only [bne, Bool.not_not]
  rw [cstrFromBytes, htext, Utf8.decodeLossy_ascii hascii]

/-- The event the decoder builds from a payload. -/
def decoded : Payload → EventData
  | .wal p => .walInsert {
      xlogPtr := formatLSN64 p.xlogPtr
      lsnValue := p.xlogPtr
      recordLen := p.recordLen
      payloadLen := 0
      rmgrId := p.rmgrId
      rmgrName := (RmgrId.ofByte p.rmgrId).name
      operation := operationName p.rmgrId p.info
      info := p.info
      xid := p.xid
      blockNum := none
      relOid := none
      blocks := []
      source := walSrcToSource p.src
      blockCount := p.blockCount }
  | .buf p => .bufferPin {
      bufferId := p.bufferId
      isHit := p.isHit != 0
      relfilenode := p.relNode.toUInt64
      forkNum := p.forkNum
      blockNum := p.blockNum
      lockMode := .noLock }
  | .xact p => .xactState {
      xid := p.xid
      vxid := cstrFromBytes p.vxid.toList
      state := cstrFromBytes p.state.toList
      lsn := if p.lsn = 0 then none else some (formatLSN64 p.lsn)
      topXid := if p.topXid = 0 then none else some p.topXid }
  | .lock p => .lock {
      xid := p.xid
      mode := lockModeOf p.mode
      granted := p.granted != 0
      locktag := cstrFromBytes p.locktag.toList }

theorem recovers_decoded (p : Payload) : Recovers p (decoded p) := by
  cases p with
  | wal p => exact ⟨rfl, rfl, rfl, rfl, rfl, rfl, rfl, rfl, rfl, rfl⟩
  | buf p => exact ⟨rfl, bne_iff_ne, rfl, rfl, UInt32.toNat_toUInt64 _⟩
  | xact p =>
    exact ⟨rfl, rfl, rfl, recoversText_cstrFromBytes p.state, recoversText_cstrFromBytes p.vxid⟩
  | lock p => exact ⟨rfl, rfl, bne_iff_ne, recoversText_cstrFromBytes p.locktag⟩

section
variable (e : Event) (pad : Nat → UInt8)

theorem readU32_header (i offset : Nat) (v : UInt32) (h : e.header.members[i]? = some (u32 v))
    (hoffset : offsetFrom 0 headerShapes i = offset) : readU32 (e.bytes pad) offset = .ok v :=
  readU32_of_hasAt (hoffset ▸ e.hasAt_header pad i _ h)

theorem readU64_header (i offset : Nat) (v : UInt64) (h : e.header.members[i]? = some (u64 v))
    (hoffset : offsetFrom 0 headerShapes i = offset) : readU64 (e.bytes pad) offset = .ok v :=
  readU64_of_hasAt (hoffset ▸ e.hasAt_header pad i _ h)

variable {e} {p : Payload} (hp : e.payload = p)
include hp

theorem hasAt_payload (i offset : Nat) (m : Stored UInt8) (h : p.members[i]? = some m)
    (hoffset : offsetFrom 0 p.kind.memberShapes i = offset) :
    HasAt (e.bytes pad) (24 + offset) m.bytes := by
  subst hp hoffset
  exact e.hasAt_payload pad i m h

theorem readU32_payload (i offset : Nat) (v : UInt32) (h : p.members[i]? = some (u32 v))
    (hoffset : offsetFrom 0 p.kind.memberShapes i = offset) :
    readU32 (e.bytes pad) (24 + offset) = .ok v :=
  readU32_of_hasAt (hasAt_payload pad hp i offset _ h hoffset)

theorem readU64_payload (i offset : Nat) (v : UInt64) (h : p.members[i]? = some (u64 v))
    (hoffset : offsetFrom 0 p.kind.memberShapes i = offset) :
    readU64 (e.bytes pad) (24 + offset) = .ok v :=
  readU64_of_hasAt (hasAt_payload pad hp i offset _ h hoffset)

theorem index_payload (i offset : Nat) (v : UInt8) (h : p.members[i]? = some (u8 v))
    (hoffset : offsetFrom 0 p.kind.memberShapes i = offset) :
    index (e.bytes pad) (24 + offset) = .ok v :=
  index_of_hasAt (hasAt_payload pad hp i offset _ h hoffset)

theorem sliceOf_payload (i offset : Nat) {n : Nat} (text : Vector UInt8 (n + 1))
    (h : p.members[i]? = some (chars text))
    (hoffset : offsetFrom 0 p.kind.memberShapes i = offset) :
    sliceOf (e.bytes pad) (24 + offset) (24 + offset + (n + 1)) = .ok text.toList := by
  have hlen : text.toList.length = n + 1 := text.length_toList
  have hat : HasAt (e.bytes pad) (24 + offset) text.toList :=
    hasAt_payload pad hp i offset _ h hoffset
  exact sliceOf_of_hasAt hat (List.ne_nil_of_length_eq_add_one hlen) (by rw [hlen])

end

section
variable {e : Event} (pad : Nat → UInt8) {Value : Type} (toValue : EventData → Option Value)
  (seq : UInt64) (timestamp : UInt64) (pid : UInt32)

theorem parseWalEvent_bytes {p : WalPayload} (hp : e.payload = .wal p) :
    parseWalEvent toValue seq (e.bytes pad) timestamp pid =
      .ok (wsEvent toValue seq "wal_insert" timestamp pid (decoded (.wal p))) := by
  rw [parseWalEvent, if_neg (by rw [e.bytes_length]; decide)]
  simp only [walPayloadOffset, eventHeaderLen,
    readU64_payload pad hp 0 0 p.xlogPtr rfl rfl, readU32_payload pad hp 1 8 p.recordLen rfl rfl,
    readU32_payload pad hp 2 12 p.xid rfl rfl, index_payload pad hp 3 16 p.rmgrId rfl rfl,
    index_payload pad hp 4 17 p.info rfl rfl, index_payload pad hp 5 18 p.src rfl rfl,
    index_payload pad hp 6 19 p.blockCount rfl rfl, except_ok_bind]
  rfl

theorem parseBufferPinEvent_bytes {p : BufferPayload} (hp : e.payload = .buf p) :
    parseBufferPinEvent toValue seq (e.bytes pad) timestamp pid =
      .ok (wsEvent toValue seq "buffer_pin" timestamp pid (decoded (.buf p))) := by
  rw [parseBufferPinEvent, if_neg (by rw [e.bytes_length]; decide)]
  simp only [bufPayloadOffset, eventHeaderLen,
    readU32_payload pad hp 0 0 p.bufferId rfl rfl, index_payload pad hp 1 4 p.isHit rfl rfl,
    index_payload pad hp 2 5 p.forkNum rfl rfl, readU32_payload pad hp 5 8 p.blockNum rfl rfl,
    readU32_payload pad hp 6 12 p.relNode rfl rfl, except_ok_bind]
  rfl

theorem parseXactEvent_bytes {p : XactPayload} (hp : e.payload = .xact p) :
    parseXactEvent toValue seq (e.bytes pad) timestamp pid =
      .ok (wsEvent toValue seq "xact_state" timestamp pid (decoded (.xact p))) := by
  rw [parseXactEvent, if_neg (by rw [e.bytes_length]; decide)]
  simp only [xactPayloadOffset, eventHeaderLen,
    readU32_payload pad hp 0 0 p.xid rfl rfl, readU32_payload pad hp 1 4 p.topXid rfl rfl,
    readU64_payload pad hp 2 8 p.lsn rfl rfl, sliceOf_payload pad hp 3 16 p.state rfl rfl,
    sliceOf_payload pad hp 4 32 p.vxid rfl rfl, except_ok_bind]
  rfl

theorem parseLockEvent_bytes {p : LockPayload} (hp : e.payload = .lock p) :
    parseLockEvent toValue seq (e.bytes pad) timestamp pid =
      .ok (wsEvent toValue seq "lock" timestamp pid (decoded (.lock p))) := by
  rw [parseLockEvent, if_neg (by rw [e.bytes_length]; decide)]
  simp only [lockPayloadOffset, eventHeaderLen,
    readU32_payload pad hp 0 0 p.xid rfl rfl, index_payload pad hp 1 4 p.mode rfl rfl,
    index_payload pad hp 2 5 p.granted rfl rfl, sliceOf_payload pad hp 4 8 p.locktag rfl rfl,
    except_ok_bind]
  rfl

end

section
variable {Value : Type} (toValue : EventData → Option Value) (seq : UInt64)

/-- The decoder inverts the layout of the probes. -/
theorem parseRawEvent_bytes (e : Event) (pad : Nat → UInt8) :
    parseRawEvent toValue seq (e.bytes pad) =
      .ok (wsEvent toValue seq e.payload.kind.eventType e.header.timestamp e.header.pid
        (decoded e.payload)) := by
  rw [parseRawEvent, if_neg (by rw [e.bytes_length]; decide),
    readU32_header e pad 0 0 e.header.kind rfl rfl,
    readU64_header e pad 2 8 e.header.timestamp rfl rfl,
    readU32_header e pad 4 20 e.header.pid rfl rfl]
  simp only [except_ok_bind]
  cases hp : e.payload with
  | wal p =>
    have hkind : e.header.kind = 1 := by rw [e.kind_eq, hp]; rfl
    rw [if_pos hkind]
    exact parseWalEvent_bytes pad toValue seq _ _ hp
  | buf p =>
    have hkind : e.header.kind = 2 := by rw [e.kind_eq, hp]; rfl
    rw [if_neg (by rw [hkind]; decide), if_pos hkind]
    exact parseBufferPinEvent_bytes pad toValue seq _ _ hp
  | xact p =>
    have hkind : e.header.kind = 3 := by rw [e.kind_eq, hp]; rfl
    rw [if_neg (by rw [hkind]; decide), if_neg (by rw [hkind]; decide), if_pos hkind]
    exact parseXactEvent_bytes pad toValue seq _ _ hp
  | lock p =>
    have hkind : e.header.kind = 4 := by rw [e.kind_eq, hp]; rfl
    rw [if_neg (by rw [hkind]; decide), if_neg (by rw [hkind]; decide),
      if_neg (by rw [hkind]; decide), if_pos hkind]
    exact parseLockEvent_bytes pad toValue seq _ _ hp

/-- The kind a header names. -/
def EventKind.ofCode : UInt32 → Option EventKind
  | 1 => some walInsert
  | 2 => some bufferPin
  | 3 => some xactState
  | 4 => some lock
  | _ => none

def EventKind.payloadLen (kind : EventKind) : Nat := endFrom 0 kind.memberShapes

/-- No event can be read from these bytes. -/
def Unreadable (raw : Bytes) : Prop :=
  raw.length < 24 ∨ EventKind.ofCode (readLE32 (slice raw 0 4)) = none ∨
    ∃ kind, EventKind.ofCode (readLE32 (slice raw 0 4)) = some kind ∧
      raw.length < 24 + kind.payloadLen

theorem Unreadable.short {raw : Bytes} (h : Unreadable raw) (hlen : ¬ raw.length < 24)
    (kind : EventKind) (hkind : readLE32 (slice raw 0 4) = kind.code) :
    raw.length < 24 + kind.payloadLen := by
  have hcode : EventKind.ofCode (readLE32 (slice raw 0 4)) = some kind := by
    rw [hkind]
    cases kind <;> rfl
  rcases h with h | h | ⟨other, hother, hshort⟩
  · exact absurd h hlen
  · rw [hcode] at h
    cases h
  · rw [hcode] at hother
    cases hother
    exact hshort

theorem parseRawEvent_unreadable {raw : Bytes} (h : Unreadable raw) :
    parseRawEvent toValue seq raw = .ok none := by
  by_cases hlen : raw.length < eventHeaderLen
  · exact if_pos hlen
  · rw [parseRawEvent_header toValue seq raw (Nat.not_lt.mp hlen)]
    dsimp only
    split
    case isTrue hkind => exact if_pos (h.short hlen .walInsert hkind)
    split
    case isTrue hkind => exact if_pos (h.short hlen .bufferPin hkind)
    split
    case isTrue hkind => exact if_pos (h.short hlen .xactState hkind)
    split
    case isTrue hkind => exact if_pos (h.short hlen .lock hkind)
    case isFalse => rfl

/-- The wire format: what the probes store comes back field by field, and any other
bytes are refused without a panic. -/
theorem parseRawEvent_wire (htoValue : ∀ data, (toValue data).isSome) :
    (∀ (e : Event) (pad : Nat → UInt8), ∃ data value, Recovers e.payload data ∧
      toValue data = some value ∧
      parseRawEvent toValue seq (e.bytes pad) = .ok (some {
        eventType := e.payload.kind.eventType
        timestamp := e.header.timestamp
        pid := e.header.pid
        seq
        data := value })) ∧
    ∀ raw, ∃ answer, parseRawEvent toValue seq raw = .ok answer ∧
      (Unreadable raw → answer = none) := by
  refine ⟨fun e pad => ?_, fun raw => ?_⟩
  · obtain ⟨value, hvalue⟩ := Option.isSome_iff_exists.mp (htoValue (decoded e.payload))
    refine ⟨decoded e.payload, value, recovers_decoded e.payload, hvalue, ?_⟩
    rw [parseRawEvent_bytes, wsEvent, hvalue]
    rfl
  · obtain ⟨answer, hanswer⟩ := parseRawEvent_answers toValue seq raw
    refine ⟨answer, hanswer, fun h => ?_⟩
    rw [parseRawEvent_unreadable toValue seq h] at hanswer
    cases hanswer
    rfl

end

def commitEvent : Event where
  header := { kind := 3, size := 88, timestamp := 1000, tid := 7, pid := 6 }
  payload := .xact {
    xid := 42
    topXid := 0
    lsn := 0
    state := #v[99, 111, 109, 109, 105, 116, 0, 0, 0, 0, 0, 0, 0, 0, 0, 0]
    vxid := Vector.replicate 32 0 }
  kind_eq := rfl

theorem parseRawEvent_wire_commit :
    (∃ data value, Recovers commitEvent.payload data ∧ some data = some value ∧
      parseRawEvent some 5 (commitEvent.bytes fun _ => 0xAA) = .ok (some {
        eventType := "xact_state"
        timestamp := 1000
        pid := 6
        seq := 5
        data := value })) ∧
      ∃ answer : Option (WsEvent EventData), parseRawEvent some 5 [3, 0, 0] = .ok answer ∧
        (Unreadable [3, 0, 0] → answer = none) :=
  ⟨(parseRawEvent_wire some 5 fun _ => rfl).1 commitEvent fun _ => 0xAA,
    (parseRawEvent_wire some 5 fun _ => rfl).2 [3, 0, 0]⟩

end LearnPg.Collector
