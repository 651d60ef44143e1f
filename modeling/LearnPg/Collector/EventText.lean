import LearnPg.Basis.CompactJson
import LearnPg.Basis.Doubles
import LearnPg.Basis.JsonTypes
import LearnPg.Basis.Utf8
import LearnPg.Collector.EventParser

/-! The texts of the events as the collector writes them and the pages read them. -/
namespace LearnPg.Collector.EventText

open LearnPg.Basis Basis.Json Basis.JsonTypes Basis.Doubles

/-! The data. The library's maps have their keys in order. -/

def natural (n : Nat) : Value := encodeInt n

def orNull {α : Type} (f : α → Value) : Option α → Value
  | none => .null
  | some a => f a

def lockModeText : LockMode → String
  | .noLock => "NoLock"
  | .forShare => "ForShare"
  | .forUpdate => "ForUpdate"
  | .exclusive => "Exclusive"
  | .shareLock => "ShareLock"
  | .shareUpdateExclusive => "ShareUpdateExclusive"
  | .accessExclusive => "AccessExclusive"

def blockValue (b : WalBlockRef) : Value :=
  .object [
    ("block_num", natural b.blockNum.toNat),
    ("data_len", natural b.dataLen.toNat),
    ("fork_num", natural b.forkNum.toNat),
    ("has_data", .bool b.hasData),
    ("has_image", .bool b.hasImage),
    ("id", natural b.id.toNat),
    ("image_len", orNull (natural ·.toNat) b.imageLen),
    ("rel_db_node", orNull (natural ·.toNat) b.relDbNode),
    ("rel_node", orNull (natural ·.toNat) b.relNode),
    ("rel_spc_node", orNull (natural ·.toNat) b.relSpcNode),
    ("same_rel", .bool b.sameRel),
    ("will_init", .bool b.willInit)]

def eventValue : EventData → Value
  | .walInsert e => .object [
      ("block_count", natural e.blockCount.toNat),
      ("block_num", orNull (natural ·.toNat) e.blockNum),
      ("blocks", .array (e.blocks.map blockValue)),
      ("info", natural e.info.toNat),
      ("lsn_value", natural e.lsnValue.toNat),
      ("operation", .string e.operation),
      ("payload_len", natural e.payloadLen.toNat),
      ("record_len", natural e.recordLen.toNat),
      ("rel_oid", orNull (natural ·.toNat) e.relOid),
      ("rmgr_id", natural e.rmgrId.toNat),
      ("rmgr_name", .string e.rmgrName),
      ("source", .string e.source),
      ("xid", natural e.xid.toNat),
      ("xlog_ptr", .string e.xlogPtr)]
  | .bufferPin e => .object [
      ("block_num", natural e.blockNum.toNat),
      ("buffer_id", natural e.bufferId.toNat),
      ("fork_num", natural e.forkNum.toNat),
      ("is_hit", .bool e.isHit),
      ("lock_mode", .string (lockModeText e.lockMode)),
      ("relfilenode", natural e.relfilenode.toNat)]
  | .xactState e => .object [
      ("lsn", orNull .string e.lsn),
      ("state", .string e.state),
      ("top_xid", orNull (natural ·.toNat) e.topXid),
      ("vxid", .string e.vxid),
      ("xid", natural e.xid.toNat)]
  | .lock e => .object [
      ("granted", .bool e.granted),
      ("locktag", .string e.locktag),
      ("mode", .string (lockModeText e.mode)),
      ("xid", natural e.xid.toNat)]

def ebpfStatusValue : Value :=
  .object [("mode", .string "ebpf-uprobe"), ("probes", .array []),
    ("source", .string "ebpf-collector")]

def walFileStatusValue (walEventsSeen : Nat) : Value :=
  .object [("mode", .string "wal-file"), ("source", .string "wal-file-collector"),
    ("wal_events_seen", natural walEventsSeen)]

def IsNatural (literal : List Char) : Prop :=
  literal = Nat.toDigits 10 (Nat.ofDigitChars 10 literal 0)

instance : DecidablePred IsNatural := fun literal =>
  inferInstanceAs (Decidable (literal = Nat.toDigits 10 (Nat.ofDigitChars 10 literal 0)))

/-- A value that may be a member of an object that is read. The collector has whole numbers only. -/
structure Data where
  value : Value
  within : value.Within (maxNestingDepth - 1)
  naturals : AllNumbers IsNatural value

section

variable {n : Nat} {depth : Nat}

theorem within_natural (n : Nat) : (natural n).Within depth := isNumber_toString n

theorem within_orNull {α : Type} {f : α → Value} (hf : ∀ a, (f a).Within depth) (o : Option α) :
    (orNull f o).Within depth := by
  cases o with
  | none => trivial
  | some a => exact hf a

theorem within_blockValue (b : WalBlockRef) : (blockValue b).Within (depth + 1) := by
  have hnatural {α : Type} (f : α → Nat) (o : Option α) :
      (orNull (fun a => natural (f a)) o).Within depth :=
    within_orNull (fun a => within_natural (f a)) o
  simp [blockValue, Value.Within, MembersWithin, within_natural, hnatural]

theorem within_eventValue (e : EventData) : (eventValue e).Within (depth + 3) := by
  have hnatural {α : Type} (f : α → Nat) (o : Option α) :
      (orNull (fun a => natural (f a)) o).Within (depth + 2) :=
    within_orNull (fun a => within_natural (f a)) o
  have htext (o : Option String) : (orNull Value.string o).Within (depth + 2) :=
    within_orNull (f := Value.string) (fun _ => trivial) o
  cases e with
  | walInsert e =>
    have hblocks : ItemsWithin (depth + 1) (e.blocks.map blockValue) :=
      itemsWithin_map fun b _ => within_blockValue b
    simp [eventValue, Value.Within, MembersWithin, within_natural, hnatural, hblocks]
  | bufferPin | xactState | lock =>
    simp [eventValue, Value.Within, MembersWithin, within_natural, hnatural, htext]

theorem within_walFileStatus : (walFileStatusValue n).Within (depth + 1) := by
  simp [walFileStatusValue, Value.Within, MembersWithin, within_natural]

theorem natural_eq (n : Nat) : natural n = .number (Nat.toDigits 10 n) := by
  unfold natural encodeInt
  exact congrArg Value.number (Decimal.toList_ofNat n)

theorem isNatural_toDigits (n : Nat) : IsNatural (Nat.toDigits 10 n) := by
  unfold IsNatural
  rw [Nat.ofDigitChars_ten_toDigits]

theorem naturals_natural (n : Nat) : AllNumbers IsNatural (natural n) := by
  rw [natural_eq]
  exact isNatural_toDigits n

theorem naturals_orNull {α : Type} {f : α → Value} (hf : ∀ a, AllNumbers IsNatural (f a))
    (o : Option α) : AllNumbers IsNatural (orNull f o) := by
  cases o with
  | none => trivial
  | some a => exact hf a

theorem naturals_blockValue (b : WalBlockRef) : AllNumbers IsNatural (blockValue b) := by
  have hnatural {α : Type} (f : α → Nat) (o : Option α) :
      AllNumbers IsNatural (orNull (fun a => natural (f a)) o) :=
    naturals_orNull (fun a => naturals_natural (f a)) o
  simp [blockValue, AllNumbers, AllMembers, naturals_natural, hnatural]

theorem naturals_eventValue (e : EventData) : AllNumbers IsNatural (eventValue e) := by
  have hnatural {α : Type} (f : α → Nat) (o : Option α) :
      AllNumbers IsNatural (orNull (fun a => natural (f a)) o) :=
    naturals_orNull (fun a => naturals_natural (f a)) o
  have htext (o : Option String) : AllNumbers IsNatural (orNull Value.string o) :=
    naturals_orNull (f := Value.string) (fun _ => trivial) o
  cases e with
  | walInsert e =>
    have hblocks : AllItems IsNatural (e.blocks.map blockValue) :=
      allItems_map fun b _ => naturals_blockValue b
    simp [eventValue, AllNumbers, AllMembers, naturals_natural, hnatural, hblocks]
  | bufferPin | xactState | lock =>
    simp [eventValue, AllNumbers, AllMembers, naturals_natural, hnatural, htext]

theorem naturals_walFileStatus : AllNumbers IsNatural (walFileStatusValue n) := by
  simp [walFileStatusValue, AllNumbers, AllMembers, naturals_natural]

end

def toValue (e : EventData) : Data := ⟨eventValue e, within_eventValue e, naturals_eventValue e⟩

def ebpfStatus : Data := ⟨ebpfStatusValue, by decide, by decide⟩

def walFileStatus (walEventsSeen : Nat) : Data :=
  ⟨walFileStatusValue walEventsSeen, within_walFileStatus, naturals_walFileStatus⟩

/-! The texts. -/

def wsEventValue (e : WsEvent Data) : Value :=
  .object [
    ("type", .string e.eventType),
    ("timestamp", natural e.timestamp.toNat),
    ("pid", natural e.pid.toNat),
    ("seq", natural e.seq.toNat),
    ("data", e.data.value)]

/-- `serde_json::to_string`. -/
def text (e : WsEvent Data) : List UInt8 := Utf8.encodeRunes (wsEventValue e).compact

def readNatural : Value → Option Nat
  | .number literal =>
    if literal ≠ [] ∧ literal.all Char.isDigit = true then some (Nat.ofDigitChars 10 literal 0)
    else none
  | _ => none

/-- A value as an event, when it is one that the collector has. -/
def eventOf : Value → Option (WsEvent Data)
  | .object [(k₁, .string eventType), (k₂, timestamp), (k₃, pid), (k₄, seq), (k₅, data)] => do
    let timestamp ← readNatural timestamp
    let pid ← readNatural pid
    let seq ← readNatural seq
    if h : [k₁, k₂, k₃, k₄, k₅] = ["type", "timestamp", "pid", "seq", "data"] ∧
        timestamp < 2 ^ 64 ∧ pid < 2 ^ 32 ∧ seq < 2 ^ 64 ∧
        data.Within (maxNestingDepth - 1) ∧ AllNumbers IsNatural data then
      some ⟨eventType, .ofNat timestamp, .ofNat pid, .ofNat seq, data, h.2.2.2.2.1, h.2.2.2.2.2⟩
    else none
  | _ => none

def readText (m : List UInt8) : Option (WsEvent Data) := (parse (Utf8.decodeRunes m)).bind eventOf

/-- A whole number as JavaScript has it. -/
def double (n : Nat) : Nat := nearest 53 n

/-- Literals that are no whole numbers, which the collector does not write, are left alone. -/
def doubleLiteral (literal : List Char) : List Char :=
  if IsNatural literal then Nat.toDigits 10 (double (Nat.ofDigitChars 10 literal 0)) else literal

/-- `JSON.parse`. -/
def jsonParse (m : List UInt8) : Option Value :=
  (parse (Utf8.decodeRunes m)).map (mapNumbers doubleLiteral)

/-- No number of the event has more than 53 significant bits. -/
structure FitsDoubles (e : WsEvent Data) : Prop where
  timestamp : Fits 53 e.timestamp.toNat
  seq : Fits 53 e.seq.toNat
  data : AllNumbers (fun literal => Fits 53 (Nat.ofDigitChars 10 literal 0)) e.data.value

section

variable (e : WsEvent Data)

theorem readNatural_natural (n : Nat) : readNatural (natural n) = some n := by
  rw [natural_eq, readNatural, if_pos, Nat.ofDigitChars_ten_toDigits]
  exact ⟨Nat.toDigits_ne_nil, List.all_eq_true.mpr Decimal.isDigit_of_mem⟩

theorem within_wsEventValue : (wsEventValue e).Within maxNestingDepth := by
  simp [wsEventValue, Value.Within, MembersWithin, within_natural, e.data.within,
    show 0 < maxNestingDepth by decide]

theorem eventOf_wsEventValue : eventOf (wsEventValue e) = some e := by
  have hfits : True ∧ e.timestamp.toNat < 2 ^ 64 ∧ e.pid.toNat < 2 ^ 32 ∧
      e.seq.toNat < 2 ^ 64 ∧ e.data.value.Within (maxNestingDepth - 1) ∧
      AllNumbers IsNatural e.data.value :=
    ⟨trivial, e.timestamp.toNat_lt, e.pid.toNat_lt, e.seq.toNat_lt, e.data.within, e.data.naturals⟩
  simp only [wsEventValue, eventOf, readNatural_natural, Option.bind_eq_bind, Option.bind_some]
  rw [dif_pos hfits]
  simp

theorem parse_text : parse (Utf8.decodeRunes (text e)) = some (wsEventValue e) := by
  unfold text
  rw [Utf8.decodeRunes_encodeRunes, parse_compact (within_wsEventValue e)]

theorem readText_text : readText (text e) = some e := by
  unfold readText
  rw [parse_text, Option.bind_some, eventOf_wsEventValue]

/-! The numbers of a page. -/

theorem mapNumbers_natural (n : Nat) :
    mapNumbers doubleLiteral (natural n) = natural (double n) := by
  rw [natural_eq, natural_eq, mapNumbers, doubleLiteral, if_pos (isNatural_toDigits n),
    Nat.ofDigitChars_ten_toDigits]

theorem doubleLiteral_eq_self_iff {literal : List Char} (h : IsNatural literal) :
    doubleLiteral literal = literal ↔ Fits 53 (Nat.ofDigitChars 10 literal 0) := by
  rw [doubleLiteral, if_pos h, ← nearest_eq_self_iff]
  constructor
  · intro hdigits
    have hback := congrArg (Nat.ofDigitChars 10 · 0) hdigits
    rwa [Nat.ofDigitChars_ten_toDigits] at hback
  · intro hnearest
    unfold double
    rw [hnearest]
    exact h.symm

theorem data_eq_self_iff : mapNumbers doubleLiteral e.data.value = e.data.value ↔
    AllNumbers (fun literal => Fits 53 (Nat.ofDigitChars 10 literal 0)) e.data.value :=
  mapNumbers_eq_self_iff e.data.value e.data.naturals fun _ => doubleLiteral_eq_self_iff

theorem mapNumbers_wsEventValue : mapNumbers doubleLiteral (wsEventValue e) = .object [
    ("type", .string e.eventType),
    ("timestamp", natural (double e.timestamp.toNat)),
    ("pid", natural (double e.pid.toNat)),
    ("seq", natural (double e.seq.toNat)),
    ("data", mapNumbers doubleLiteral e.data.value)] := by
  simp only [wsEventValue, mapNumbers, mapMembers, mapNumbers_natural]

theorem double_pid : double e.pid.toNat = e.pid.toNat :=
  nearest_of_lt (e.pid.toNat_lt.trans (by decide))

theorem mapNumbers_wsEventValue_of_fits (h : FitsDoubles e) :
    mapNumbers doubleLiteral (wsEventValue e) = wsEventValue e := by
  rw [mapNumbers_wsEventValue, double_pid, (data_eq_self_iff e).mpr h.data]
  unfold double
  rw [nearest_eq_self_iff.mpr h.timestamp, nearest_eq_self_iff.mpr h.seq]
  rfl

theorem fits_of_eventOf (h : eventOf (mapNumbers doubleLiteral (wsEventValue e)) = some e) :
    FitsDoubles e := by
  rw [mapNumbers_wsEventValue] at h
  simp only [eventOf, readNatural_natural, Option.bind_eq_bind, Option.bind_some] at h
  split at h
  next hfits =>
    have he := Option.some_inj.mp h
    have htimestamp : UInt64.ofNat (double e.timestamp.toNat) = e.timestamp :=
      congrArg WsEvent.timestamp he
    have hseq : UInt64.ofNat (double e.seq.toNat) = e.seq := congrArg WsEvent.seq he
    have hdata : mapNumbers doubleLiteral e.data.value = e.data.value :=
      congrArg (·.data.value) he
    refine ⟨nearest_eq_self_iff.mp ?_, nearest_eq_self_iff.mp ?_, (data_eq_self_iff e).mp hdata⟩
    · exact (UInt64.toNat_ofNat_of_lt' hfits.2.1).symm.trans (congrArg UInt64.toNat htimestamp)
    · exact (UInt64.toNat_ofNat_of_lt' hfits.2.2.2.1).symm.trans (congrArg UInt64.toNat hseq)
  next => cases h

/-- What the collector writes is one JSON text. A page that reads it has the event with its numbers
rounded to doubles, and so that event just when they all are doubles. -/
theorem eventOf_text_iff :
    jsonParse (text e) = some (mapNumbers doubleLiteral (wsEventValue e)) ∧
      ((jsonParse (text e)).bind eventOf = some e ↔ FitsDoubles e) := by
  have hparse : jsonParse (text e) = some (mapNumbers doubleLiteral (wsEventValue e)) := by
    unfold jsonParse
    rw [parse_text, Option.map_some]
  refine ⟨hparse, ?_⟩
  rw [hparse, Option.bind_some]
  refine ⟨fits_of_eventOf e, fun h => ?_⟩
  rw [mapNumbers_wsEventValue_of_fits e h, eventOf_wsEventValue]

end

/-- A position in the WAL that no page can show. -/
example : double 0x00A0000100000014 = 0x00A0000100000010 := by decide

end LearnPg.Collector.EventText
