import LearnPg.Basis.StructLayout
import LearnPg.Wal.Bytes

/-! `struct event_t` of the eBPF probes, as it lies in the ring buffer. -/
namespace LearnPg.Collector
open Wal LearnPg.Basis.StructLayout

/-! Little-endian integers. -/

def storeLE16 (v : UInt16) : Bytes := [v.toUInt8, (v >>> 8).toUInt8]

def storeLE32 (v : UInt32) : Bytes :=
  [v.toUInt8, (v >>> 8).toUInt8, (v >>> 16).toUInt8, (v >>> 24).toUInt8]

def storeLE64 (v : UInt64) : Bytes := storeLE32 v.toUInt32 ++ storeLE32 (v >>> 32).toUInt32

theorem readLE32_storeLE32 (v : UInt32) : readLE32 (storeLE32 v) = v := by
  rw [← UInt32.toNat_inj]
  apply Nat.eq_of_testBit_eq
  intro i
  have hbound : 32 ≤ i → v.toNat.testBit i = false := fun h =>
    Nat.testBit_lt_two_pow (Nat.lt_of_lt_of_le v.toNat_lt (Nat.pow_le_pow_right (by decide) h))
  -- each byte is shifted back to where it was taken from
  have hbyte (k : Nat) :
      (decide (i ≥ k) && (decide (i - k < 8) && v.toNat.testBit (k + (i - k)))) =
        (decide (k ≤ i ∧ i < k + 8) && v.toNat.testBit i) := by
    by_cases hk : k ≤ i
    · rw [Nat.add_sub_cancel' hk]
      simp [hk, Nat.sub_lt_iff_lt_add' hk]
    · simp [hk]
  simp only [readLE32, storeLE32, byteAt, List.getD_cons_zero, List.getD_cons_succ,
    UInt32.toNat_or, UInt32.toNat_shiftLeft, UInt8.toNat_toUInt32, UInt32.toNat_toUInt8,
    UInt32.toNat_shiftRight, Nat.testBit_or, Nat.testBit_mod_two_pow, Nat.testBit_shiftLeft,
    Nat.testBit_shiftRight, UInt32.reduceToNat, Nat.reduceMod, hbyte]
  cases hbit : v.toNat.testBit i with
  | false => simp
  | true =>
    have hlt : i < 32 := by
      by_contra hge
      rw [hbound (Nat.not_lt.mp hge)] at hbit
      cases hbit
    simp [hlt]
    omega

theorem readLE64_storeLE64 (v : UInt64) : readLE64 (storeLE64 v) = v := by
  have h1 : slice (storeLE64 v) 0 4 = storeLE32 v.toUInt32 := rfl
  have h2 : slice (storeLE64 v) 4 8 = storeLE32 (v >>> 32).toUInt32 := rfl
  rw [readLE64, h1, h2, readLE32_storeLE32, readLE32_storeLE32, ← UInt64.toNat_inj]
  apply Nat.eq_of_testBit_eq
  intro i
  have hbound : 64 ≤ i → v.toNat.testBit i = false := fun h =>
    Nat.testBit_lt_two_pow (Nat.lt_of_lt_of_le v.toNat_lt (Nat.pow_le_pow_right (by decide) h))
  simp only [UInt64.toNat_or, UInt64.toNat_shiftLeft, UInt32.toNat_toUInt64, UInt64.toNat_toUInt32,
    UInt64.toNat_shiftRight, Nat.testBit_or, Nat.testBit_mod_two_pow, Nat.testBit_shiftLeft,
    Nat.testBit_shiftRight, UInt64.reduceToNat, Nat.reduceMod]
  grind

theorem slice_of_hasAt {raw bytes : Bytes} {lo hi : Nat} (h : HasAt raw lo bytes)
    (hhi : lo + bytes.length = hi) : slice raw lo hi = bytes := by
  rw [slice, show hi - lo = bytes.length by omega]
  exact h

def u8Shape : Shape := ⟨1, 1⟩
def u16Shape : Shape := ⟨2, 2⟩
def u32Shape : Shape := ⟨4, 4⟩
def u64Shape : Shape := ⟨8, 8⟩
def charsShape (n : Nat) : Shape := ⟨n, 1⟩

def u8 (v : UInt8) : Stored UInt8 := ⟨u8Shape, [v], rfl⟩
def u16 (v : UInt16) : Stored UInt8 := ⟨u16Shape, storeLE16 v, rfl⟩
def u32 (v : UInt32) : Stored UInt8 := ⟨u32Shape, storeLE32 v, rfl⟩
def u64 (v : UInt64) : Stored UInt8 := ⟨u64Shape, storeLE64 v, rfl⟩
def chars {n : Nat} (text : Vector UInt8 n) : Stored UInt8 :=
  ⟨charsShape n, text.toList, text.length_toList⟩

/-! The structs. -/

inductive EventKind where
  | walInsert | bufferPin | xactState | lock
deriving DecidableEq, Repr

def EventKind.code : EventKind → UInt32
  | walInsert => 1
  | bufferPin => 2
  | xactState => 3
  | lock => 4

structure EventHeader where
  kind : UInt32
  size : UInt32
  timestamp : UInt64
  tid : UInt32
  pid : UInt32
deriving DecidableEq, Repr

structure WalPayload where
  xlogPtr : UInt64
  recordLen : UInt32
  xid : UInt32
  rmgrId : UInt8
  info : UInt8
  src : UInt8
  blockCount : UInt8
deriving DecidableEq, Repr

structure BufferPayload where
  bufferId : UInt32
  isHit : UInt8
  forkNum : UInt8
  pad1 : UInt8
  pad2 : UInt8
  blockNum : UInt32
  relNode : UInt32
deriving DecidableEq, Repr

structure XactPayload where
  xid : UInt32
  topXid : UInt32
  lsn : UInt64
  state : Vector UInt8 16
  vxid : Vector UInt8 32
deriving DecidableEq, Repr

structure LockPayload where
  xid : UInt32
  mode : UInt8
  granted : UInt8
  pad : UInt16
  locktag : Vector UInt8 32
deriving DecidableEq, Repr

/-- The union, with the member that was written. -/
inductive Payload where
  | wal (payload : WalPayload)
  | buf (payload : BufferPayload)
  | xact (payload : XactPayload)
  | lock (payload : LockPayload)
deriving DecidableEq, Repr

def Payload.kind : Payload → EventKind
  | wal _ => .walInsert
  | buf _ => .bufferPin
  | xact _ => .xactState
  | lock _ => .lock

/-- `event_t`: the header's kind tells which member of the union it holds. -/
structure Event where
  header : EventHeader
  payload : Payload
  kind_eq : header.kind = payload.kind.code
deriving DecidableEq, Repr

/-! Their layout. -/

def EventHeader.members (h : EventHeader) : List (Stored UInt8) :=
  [u32 h.kind, u32 h.size, u64 h.timestamp, u32 h.tid, u32 h.pid]

def Payload.members : Payload → List (Stored UInt8)
  | wal p => [u64 p.xlogPtr, u32 p.recordLen, u32 p.xid, u8 p.rmgrId, u8 p.info, u8 p.src,
      u8 p.blockCount]
  | buf p => [u32 p.bufferId, u8 p.isHit, u8 p.forkNum, u8 p.pad1, u8 p.pad2, u32 p.blockNum,
      u32 p.relNode]
  | xact p => [u32 p.xid, u32 p.topXid, u64 p.lsn, chars p.state, chars p.vxid]
  | lock p => [u32 p.xid, u8 p.mode, u8 p.granted, u16 p.pad, chars p.locktag]

def headerShapes : List Shape := [u32Shape, u32Shape, u64Shape, u32Shape, u32Shape]

def EventKind.memberShapes : EventKind → List Shape
  | walInsert => [u64Shape, u32Shape, u32Shape, u8Shape, u8Shape, u8Shape, u8Shape]
  | bufferPin => [u32Shape, u8Shape, u8Shape, u8Shape, u8Shape, u32Shape, u32Shape]
  | xactState => [u32Shape, u32Shape, u64Shape, charsShape 16, charsShape 32]
  | lock => [u32Shape, u8Shape, u8Shape, u16Shape, charsShape 32]

def unionShapes : List Shape :=
  [EventKind.walInsert, .bufferPin, .xactState, .lock].map fun kind => .struct kind.memberShapes

theorem EventHeader.shape_members (h : EventHeader) :
    h.members.map Stored.shape = headerShapes := rfl

theorem Payload.shape_members (p : Payload) :
    p.members.map Stored.shape = p.kind.memberShapes := by
  cases p <;> rfl

theorem Payload.shape_mem (p : Payload) (pad : Nat → UInt8) :
    (Stored.struct pad p.members).shape ∈ unionShapes := by
  rw [show (Stored.struct pad p.members).shape = .struct p.kind.memberShapes from
    congrArg Shape.struct p.shape_members]
  exact List.mem_map_of_mem (by cases p <;> simp [Payload.kind])

def Payload.stored (p : Payload) (pad : Nat → UInt8) : Stored UInt8 :=
  .union pad unionShapes (.struct pad p.members) (p.shape_mem pad)

/-- The header has no padding, so the payload's begins with the offset 24. -/
def Event.members (e : Event) (pad : Nat → UInt8) : List (Stored UInt8) :=
  [.struct pad e.header.members, e.payload.stored fun i => pad (24 + i)]

/-- What the ring buffer holds; `pad` is whatever lies in the bytes no member covers. -/
def Event.bytes (e : Event) (pad : Nat → UInt8) : Bytes :=
  (Stored.struct pad (e.members pad)).bytes

def eventShapes : List Shape := [.struct headerShapes, .union unionShapes]

theorem Event.shape_members (e : Event) (pad : Nat → UInt8) :
    (e.members pad).map Stored.shape = eventShapes := rfl

theorem offsets_event : offsetFrom 0 eventShapes 0 = 0 ∧ offsetFrom 0 eventShapes 1 = 24 := by
  decide

theorem Event.bytes_length (e : Event) (pad : Nat → UInt8) : (e.bytes pad).length = 88 := by
  rw [Event.bytes, Stored.length_bytes, Stored.shape_struct, e.shape_members]
  decide

theorem Event.hasAt_header (e : Event) (pad : Nat → UInt8) (i : Nat) (m : Stored UInt8)
    (h : e.header.members[i]? = some m) :
    HasAt (e.bytes pad) (offsetFrom 0 headerShapes i) m.bytes := by
  have hat := (hasAt_struct pad (e.members pad) 0 _ rfl).trans
    (hasAt_struct pad e.header.members i m h)
  rwa [e.shape_members, e.header.shape_members, offsets_event.1, Nat.zero_add] at hat

theorem Event.hasAt_payload (e : Event) (pad : Nat → UInt8) (i : Nat) (m : Stored UInt8)
    (h : e.payload.members[i]? = some m) :
    HasAt (e.bytes pad) (24 + offsetFrom 0 e.payload.kind.memberShapes i) m.bytes := by
  have hat := ((hasAt_struct pad (e.members pad) 1 _ rfl).trans
    (hasAt_union _ unionShapes _ _)).trans (hasAt_struct _ e.payload.members i m h)
  rwa [e.shape_members, e.payload.shape_members, offsets_event.2] at hat

end LearnPg.Collector
