import LearnPg.Wal.Bytes

/-! Resource managers: names, operation names, and the details shown for a
record's payload. -/
namespace LearnPg.Wal
open LearnPg.Basis

/-- `RmgrNames`, the names for PG 18. -/
def rmgrNames : UInt8 → Option String
  | 0 => some "XLOG"
  | 1 => some "Heap2"
  | 2 => some "Heap"
  | 3 => some "Btree"
  | 4 => some "Hash"
  | 5 => some "Gist"
  | 6 => some "SpGist"
  | 7 => some "Gin"
  | 8 => some "BRIN"
  | 9 => some "Standby"
  | 10 => some "Heap3"
  | 11 => some "Logical"
  | _ => none

def lookupRmgrName (rmgrID : UInt8) : String :=
  match rmgrNames rmgrID with
  | some name => name
  | none => "RMgr" ++ toString rmgrID.toNat

def numbered (text : String) (op : UInt8) : String := text ++ toString op.toNat

/-- The operation name; the source's description field always equals it. -/
def parseRecordInfo (rmgrid info : UInt8) : String :=
  match rmgrid with
  | 0 =>
    match info &&& 0x0F with
    | 0x00 => "XLOG_NOOP"
    | 0x01 => "XLOG/NEXTOID"
    | 0x02 => "XLOG/SLRU"
    | op => numbered "XLOG/OP_" op
  | 1 =>
    match info with
    | 0x00 => "HEAP2/CLEAN"
    | 0x10 => "HEAP2/NEW_CID"
    | 0x20 => "HEAP2/VISIBLE"
    | 0x30 => "HEAP2/FREEZE"
    | op => numbered "HEAP2/OP_" op
  | 2 =>
    match info with
    | 0x00 => "HEAP/INSERT"
    | 0x10 => "HEAP/DELETE"
    | 0x20 => "HEAP/UPDATE"
    | 0x30 => "HEAP/HOT_UPDATE"
    | 0x40 => "HEAP/TRUNCATE"
    | 0x50 => "HEAP/TBLSPC_CREATE"
    | op => numbered "HEAP/OP_" op
  | 3 => numbered "BTREE/OP_" (info &&& 0x0F)
  | 10 =>
    match info &&& 0x0F with
    | 0x00 => "HEAP3/CLEAN"
    | 0x01 => "HEAP3/FREEZE"
    | 0x02 => "HEAP3/MULTI_INSERT"
    | op => numbered "HEAP3/OP_" op
  | _ => numbered (numbered "RMGR_" rmgrid ++ "/OP_") info

inductive Detail where
  | byte (value : UInt8)
  | half (value : UInt16)
  | word (value : UInt32)
  | int (value : Nat)
  | flag (value : Bool)
  | text (value : String)
deriving DecidableEq, Repr

def hexEncode (data : Bytes) : String :=
  String.ofList (data.flatMap fun b =>
    [HexText.lowerDigit (b.toNat / 16), HexText.lowerDigit (b.toNat % 16)])

/-- The details map as its entries, in the order they are set. -/
def parseRMgrData (rmgrid info : UInt8) (data : Bytes) : List (String × Detail) :=
  [("rmgrid", .byte rmgrid), ("rmgr", .text ((rmgrNames rmgrid).getD "")), ("info", .byte info),
    ("len", .int data.length), ("hex", .text (hexEncode (slice data 0 (min 64 data.length))))] ++
  (if data.length > 64 then [("truncated", .flag true), ("total_len", .int data.length)] else []) ++
  match rmgrid with
  | 0 =>
    if data.length ≥ 8 then
      [("next_len", .word (readLE32 (slice data 0 4))), ("block_id", .byte (byteAt data 4))]
    else []
  | 2 =>
    if data.length ≥ 24 then
      [("block_rnode", .word (readLE32 (slice data 0 4))),
        ("block_forknum", .word (readLE32 (slice data 4 8))),
        ("block_num", .word (readLE32 (slice data 8 12))),
        ("page_offset", .half (readLE16 (slice data 12 14)))]
    else []
  | _ => []

end LearnPg.Wal
