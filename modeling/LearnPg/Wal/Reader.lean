import LearnPg.Wal.BlockRefs
import LearnPg.Wal.Rmgr

/-! The backend's segment reader. The loops are kept as the source has them: one
state is carried over the pages, a record that runs past its page is kept
pending, and `limit` ends everything early. What is built from a record's bytes
is a parameter of the loops; the program's instance is `buildRecord`. -/
namespace LearnPg.Wal

def pageSize : Nat := 8192
def xlogPageHeaderSize : Nat := 20
def xlogLongPageHeaderSize : Nat := 40
def walSegmentSize : Nat := 16777216
def xlogRecordHeaderSize : Nat := 24
def walRecordAlign : Nat := 8

def pageMagic : UInt16 := 0xD118

structure Record where
  lsn : String
  lsnValue : UInt64
  pageOffset : UInt32
  recordLen : UInt32
  payloadLen : UInt32
  rmgrID : UInt8
  rmgrName : String
  operation : String
  info : UInt8
  xid : UInt32
  prevLSN : String
  prevLSNValue : UInt64
  crc : UInt32
  data : Bytes
  blocks : List BlockRef
  details : List (String × Detail)
deriving DecidableEq

def buildRecord (raw : Bytes) (lsnValue : UInt64) (pageOffset : UInt32) : Record :=
  let prevLSNValue := readLE64 (slice raw 8 16)
  let info := byteAt raw 16
  let rmgrID := byteAt raw 17
  let payload := raw.drop xlogRecordHeaderSize
  let blocks := parseBlockReferences payload
  { lsn := formatLSN64 lsnValue
    lsnValue
    pageOffset
    recordLen := UInt32.ofNat raw.length
    payloadLen := UInt32.ofNat payload.length
    rmgrID
    rmgrName := lookupRmgrName rmgrID
    operation := parseRecordInfo rmgrID info
    info
    xid := readLE32 (slice raw 4 8)
    prevLSN := formatLSN64 prevLSNValue
    prevLSNValue
    crc := readLE32 (slice raw 20 24)
    data := payload
    blocks
    details := parseRMgrData rmgrID info payload ++
      (if blocks.length > 0 then [("block_ref_count", .int blocks.length)] else []) }

/-- `(length + 7) &^ 7`: the low three bits are cleared. -/
def alignRecordLength (length : Nat) : Nat :=
  (length + (walRecordAlign - 1)) / walRecordAlign * walRecordAlign

/-- What the page loop carries. `stopped` is set where the source returns or
breaks out of the page loop. -/
structure ReadState (ρ : Type) where
  records : List ρ
  pending : Bytes
  pendingLen : Nat
  pendingLSN : UInt64
  pendingOffset : UInt32
  stopped : Bool

def ReadState.init (ρ : Type) : ReadState ρ := ⟨[], [], 0, 0, 0, false⟩

section
variable {ρ : Type} (build : Bytes → UInt64 → UInt32 → ρ) (segNum : UInt64)
  (startOffset limit : Int)

/-- `records = append(records, record)` and the check of the limit behind it. -/
def ReadState.append (st : ReadState ρ) (record : ρ) : ReadState ρ :=
  { st with
    records := st.records ++ [record]
    stopped := limit > 0 ∧ ((st.records ++ [record]).length : Int) ≥ limit }

/-- `int(readLE32(page[offset : offset+4]))`. -/
def recLenAt (page : Bytes) (offset : Nat) : Nat :=
  (readLE32 (slice page offset (offset + 4))).toNat

/-- The record loop of one page. -/
def readPageRecords (page : Bytes) (pageStart : Nat) (offset : Nat) (st : ReadState ρ) :
    ReadState ρ :=
  if offset + xlogRecordHeaderSize ≤ pageSize then
    if startOffset > 0 ∧ ((pageStart + offset : Nat) : Int) < startOffset then
      readPageRecords page pageStart (offset + 1) st
    else
      if recLenAt page offset = 0 then st
      else if _h : recLenAt page offset < xlogRecordHeaderSize then st
      else
        let lsnValue := segNum <<< 32 ||| UInt64.ofNat offset
        if offset + recLenAt page offset > pageSize then
          { st with
            pending := slice page offset pageSize
            pendingLen := recLenAt page offset
            pendingLSN := lsnValue
            pendingOffset := UInt32.ofNat offset }
        else
          let st := st.append limit (build (slice page offset (offset + recLenAt page offset))
            lsnValue (UInt32.ofNat offset))
          if st.stopped then st
          else readPageRecords page pageStart (offset + alignRecordLength (recLenAt page offset)) st
  else st
termination_by pageSize - offset
decreasing_by
  · simp only [pageSize, xlogRecordHeaderSize] at *
    omega
  · simp only [pageSize, xlogRecordHeaderSize, alignRecordLength, walRecordAlign] at *
    omega

def headerSize (pageStart : Nat) : Nat :=
  if pageStart = 0 then xlogLongPageHeaderSize else xlogPageHeaderSize

/-- One round of the page loop. -/
def readPage (page : Bytes) (pageStart : Nat) (st : ReadState ρ) : ReadState ρ :=
  if st.stopped then st
  else if page.length < headerSize pageStart then { st with stopped := true }
  else if readLE16 (slice page 0 2) ≠ pageMagic then st
  else
    let offset := headerSize pageStart
    if st.pending.length > 0 then
      let available := pageSize - headerSize pageStart
      let need := st.pendingLen - st.pending.length
      let take := if need > available then available else need
      let pending := st.pending ++ slice page offset (offset + take)
      if pending.length = st.pendingLen then
        let st := { st.append limit (build pending st.pendingLSN st.pendingOffset) with pending }
        if st.stopped then st
        else readPageRecords build segNum startOffset limit page pageStart (offset + take)
          { st with pending := [], pendingLen := 0 }
      else { st with pending }
    else readPageRecords build segNum startOffset limit page pageStart offset st

def pageAt (data : Bytes) (pageStart : Nat) : Bytes := slice data pageStart (pageStart + pageSize)

/-- `for pageStart := 0; pageStart+PageSize <= len(data); pageStart += PageSize`. -/
def readPages (data : Bytes) : ReadState ρ :=
  (List.range (data.length / pageSize)).foldl
    (fun st i => readPage build segNum startOffset limit (pageAt data (i * pageSize))
      (i * pageSize) st)
    (ReadState.init ρ)

end

/-- `ReadRecords`; the argument stands for the outcome of reading the file. -/
def readRecords (file : Except String Bytes) (segNum : UInt64) (startOffset limit : Int) :
    Except String (List Record) := do
  let data ← file
  pure (readPages buildRecord segNum startOffset limit data).records

/-! Segment files. -/

def isWALSegmentName (name : String) : Bool :=
  name.utf8ByteSize = 24 ∧ name.toList.all fun ch => "0123456789ABCDEF".toList.contains ch

/-- The number in the last eight digits of the name; names are ASCII, so a
character is a byte. -/
def extractSegNum (filename : String) : UInt64 :=
  if filename.length ≥ 8 then
    UInt64.ofNat (Basis.HexText.value (filename.toList.drop (filename.length - 8)))
  else 0

end LearnPg.Wal
