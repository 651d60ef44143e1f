import LearnPg.Collector.BlockRefs
import LearnPg.Wal.Scan

/-! The collector's segment reader, and what it finds: the paged scan again, with
its own header sizes and with the remainder a page announces left out. Pages of
any magic are read. -/
namespace LearnPg.Collector
open Wal LearnPg.Basis.RecordScan

def pageHeaderSize : Nat := 20
def longPageHeaderSize : Nat := 36
def recordHeaderSize : Nat := 24
def recordAlign : Nat := 8

inductive RmgrId where
  | xlog | heap2 | heap | btree | hash | gist | spgist | gin | brin | standby | heap3 | logical
  | maxRmgr
deriving DecidableEq, Repr

/-- `RmgrId::from`. -/
def RmgrId.ofByte : UInt8 → RmgrId
  | 0 => xlog
  | 1 => heap2
  | 2 => heap
  | 3 => btree
  | 4 => hash
  | 5 => gist
  | 6 => spgist
  | 7 => gin
  | 8 => brin
  | 9 => standby
  | 10 => heap3
  | 11 => logical
  | _ => maxRmgr

def RmgrId.name : RmgrId → String
  | xlog => "Xlog"
  | heap2 => "Heap2"
  | heap => "Heap"
  | btree => "Btree"
  | hash => "Hash"
  | gist => "Gist"
  | spgist => "Spgist"
  | gin => "Gin"
  | brin => "BRIN"
  | standby => "Standby"
  | heap3 => "Heap3"
  | logical => "Logical"
  | maxRmgr => "Unknown"

def operationName (rmgrId info : UInt8) : String :=
  match rmgrId with
  | 0 =>
    match info &&& 0x0F with
    | 0x00 => "Xlog_NOOP"
    | 0x01 => "Xlog/NEXTOID"
    | 0x02 => "Xlog/SLRU"
    | op => numbered "Xlog/OP_" op
  | 1 =>
    match info with
    | 0x00 => "HEAP2/CLEAN"
    | 0x10 => "HEAP2/NEW_CID"
    | 0x20 => "HEAP2/VISIBLE"
    | 0x30 => "HEAP2/FREEZE"
    | op => numbered "HEAP2/OP_" op
  | 2 =>
    match info with
    | 0x00 => "HEAP/INSERT"
    | 0x10 => "HEAP/DELETE"
    | 0x20 => "HEAP/UPDATE"
    | 0x30 => "HEAP/HOT_UPDATE"
    | 0x40 => "HEAP/TRUNCATE"
    | 0x50 => "HEAP/TBLSPC_CREATE"
    | op => numbered "HEAP/OP_" op
  | 3 => numbered "BTREE/OP_" (info &&& 0x0F)
  | 10 => numbered "HEAP3/OP_" info
  | _ => numbered (numbered "RMGR_" rmgrId ++ "/OP_") info

structure WalInsertEvent where
  xlogPtr : String
  lsnValue : UInt64
  recordLen : UInt32
  payloadLen : UInt32
  rmgrId : UInt8
  rmgrName : String
  operation : String
  info : UInt8
  xid : UInt32
  blockNum : Option UInt32
  relOid : Option UInt32
  blocks : List WalBlockRef
  source : String
  blockCount : UInt8
deriving DecidableEq, Repr

def parseRecordBytes (raw : Bytes) (lsnValue : UInt64) (source : String) : WalInsertEvent :=
  let info := byteAt raw 16
  let rmgrId := byteAt raw 17
  let payload := raw.drop recordHeaderSize
  let blocks := parseBlockRefs payload
  { xlogPtr := formatLSN64 lsnValue
    lsnValue
    recordLen := UInt32.ofNat raw.length
    payloadLen := UInt32.ofNat payload.length
    rmgrId
    rmgrName := (RmgrId.ofByte rmgrId).name
    operation := operationName rmgrId info
    info
    xid := readLE32 (slice raw 4 8)
    blockNum := blocks.head?.map WalBlockRef.blockNum
    relOid := blocks.head?.bind WalBlockRef.relNode
    blocks
    source
    blockCount := 0 }

def align (length : Nat) : Nat := (length + (recordAlign - 1)) / recordAlign * recordAlign

structure ReadState where
  events : List WalInsertEvent
  pending : Bytes
  pendingLen : Nat
  pendingLsn : UInt64

def totalLenAt (page : Bytes) (offset : Nat) : Nat :=
  (readLE32 (slice page offset (offset + 4))).toNat

/-- The record loop of one page. Sums with the page's address wrap around. -/
def readPageRecords (page : Bytes) (pageAddr : UInt64) (offset : Nat) (st : ReadState) :
    ReadState :=
  if offset + recordHeaderSize ≤ pageSize then
    if _h : totalLenAt page offset = 0 ∨ totalLenAt page offset < recordHeaderSize ∨
        offset + totalLenAt page offset > pageSize then
      if totalLenAt page offset ≥ recordHeaderSize ∧ offset + totalLenAt page offset > pageSize then
        { st with
          pending := st.pending ++ slice page offset pageSize
          pendingLen := totalLenAt page offset
          pendingLsn := pageAddr + UInt64.ofNat offset }
      else st
    else
      readPageRecords page pageAddr (offset + align (totalLenAt page offset))
        { st with
          events := st.events ++ [parseRecordBytes (slice page offset
            (offset + totalLenAt page offset)) (pageAddr + UInt64.ofNat offset) "wal-file"] }
  else st
termination_by pageSize - offset
decreasing_by
  simp only [pageSize, recordHeaderSize, align, recordAlign] at *
  omega

def headerSize (pageStart : Nat) : Nat :=
  if pageStart = 0 then longPageHeaderSize else pageHeaderSize

def pageAddr (page : Bytes) : UInt64 := readBE64 (slice page 8 16)
def remLen (page : Bytes) : Nat := (readBE32 (slice page 16 20)).toNat

/-- One round of the page loop. -/
def readPage (page : Bytes) (pageStart : Nat) (st : ReadState) : ReadState :=
  if page.length < headerSize pageStart then st
  else if st.pending ≠ [] then
    let available := pageSize - headerSize pageStart
    let need := st.pendingLen - st.pending.length
    let take := min need available
    let pending := st.pending ++ slice page (headerSize pageStart) (headerSize pageStart + take)
    if pending.length = st.pendingLen then
      readPageRecords page (pageAddr page) (headerSize pageStart + take)
        { events := st.events ++ [parseRecordBytes pending st.pendingLsn "wal-file"]
          pending := [], pendingLen := 0, pendingLsn := 0 }
    else { st with pending }
  else if pageStart > 0 ∧ remLen page > 0 then
    if remLen page ≥ pageSize - headerSize pageStart then st
    else readPageRecords page (pageAddr page) (headerSize pageStart + remLen page) st
  else readPageRecords page (pageAddr page) (headerSize pageStart) st

/-- `read_records`; the argument stands for the outcome of reading the file. -/
def readRecords (file : Except String Bytes) : Except String (List WalInsertEvent) := do
  let data ← file
  let st := (List.range (data.length / pageSize)).foldl
    (fun st i => readPage (pageAt data (i * pageSize)) (i * pageSize) st) ⟨[], [], 0, 0⟩
  pure st.events

/-! What it finds. -/

/-- Where the search on a page begins when no record is open. -/
def searchStart (page : Bytes) (pageStart : Nat) : Nat :=
  if pageStart > 0 then headerSize pageStart + remLen page else headerSize pageStart

def segmentPage (data : Bytes) (pageStart : Nat) : Page UInt8 where
  base := pageStart
  header := headerSize pageStart
  start := searchStart (pageAt data pageStart) pageStart
  bytes := pageAt data pageStart

def segmentExtents (data : Bytes) : List (Extent UInt8) :=
  walFormat.scan ((pageStarts data).map (segmentPage data)) none

section
variable (data : Bytes)

def lsnAt (base offset : Nat) : UInt64 := pageAddr (pageAt data base) + UInt64.ofNat offset

def emit (e : Extent UInt8) : WalInsertEvent :=
  parseRecordBytes e.raw (lsnAt data e.base e.offset) "wal-file"

/-- The carried state holds exactly this open record. -/
def Pends (st : ReadState) : Option (Open UInt8) → Prop
  | none => st.pending = []
  | some o => st.pending = o.raw ∧ o.raw ≠ [] ∧ st.pendingLen = o.need ∧
      st.pendingLsn = lsnAt data o.base o.offset

/-- Having had these events, the reader went on to `st`: it found these extents
and keeps this record pending. -/
structure Reached (events : List WalInsertEvent) (st : ReadState) (found : List (Extent UInt8))
    (record : Option (Open UInt8)) : Prop where
  all : st.events = events ++ found.map (emit data)
  pends : Pends data st record

variable {data}

theorem Reached.cons {events : List WalInsertEvent} {st : ReadState} {e : Extent UInt8}
    {found : List (Extent UInt8)} {record : Option (Open UInt8)}
    (h : Reached data (events ++ [emit data e]) st found record) :
    Reached data events st (e :: found) record :=
  ⟨by rw [h.all]; simp, h.pends⟩

theorem totalLenAt_eq (page : Bytes) (offset : Nat) :
    totalLenAt page offset = walFormat.lenOf (page.drop offset) := recLenAt_eq page offset

theorem readPageRecords_round {base : Nat} (hpage : base + pageSize ≤ data.length) (offset : Nat)
    (st : ReadState) (hpending : st.pending = []) :
    readPageRecords (pageAt data base) (pageAddr (pageAt data base)) offset st =
      if offset + walFormat.minLen ≤ walFormat.pageSize then
        if walFormat.lenOf ((pageAt data base).drop offset) < walFormat.minLen then st
        else if walFormat.pageSize < offset + walFormat.lenOf ((pageAt data base).drop offset) then
          { st with
            pending := (pageAt data base).drop offset
            pendingLen := walFormat.lenOf ((pageAt data base).drop offset)
            pendingLsn := lsnAt data base offset }
        else
          readPageRecords (pageAt data base) (pageAddr (pageAt data base))
            (offset + walFormat.align (walFormat.lenOf ((pageAt data base).drop offset)))
            { st with
              events := st.events ++ [emit data ⟨base, offset, ((pageAt data base).drop offset).take
                (walFormat.lenOf ((pageAt data base).drop offset))⟩] }
      else st := by
  have hlen : totalLenAt (pageAt data base) offset =
      walFormat.lenOf ((pageAt data base).drop offset) := totalLenAt_eq _ offset
  have hmin : recordHeaderSize = walFormat.minLen := rfl
  have hsize : pageSize = walFormat.pageSize := rfl
  have hpos := walFormat.minLen_pos
  rw [readPageRecords, slice_to_end (pageAt_length hpage), hlen, hmin, hsize, hpending,
    List.nil_append]
  by_cases hroom : offset + walFormat.minLen ≤ walFormat.pageSize
  · rw [if_pos hroom, if_pos hroom]
    by_cases hshort : walFormat.lenOf ((pageAt data base).drop offset) < walFormat.minLen
    · rw [if_pos hshort, dif_pos (.inr (.inl hshort)), if_neg (by omega)]
    · by_cases hover : walFormat.pageSize <
          offset + walFormat.lenOf ((pageAt data base).drop offset)
      · rw [if_neg hshort, if_pos hover, dif_pos (.inr (.inr hover)), if_pos (by omega)]
        rfl
      · rw [if_neg hshort, if_neg hover, dif_neg (by omega), slice, Nat.add_sub_cancel_left]
        rfl
  · rw [if_neg hroom, if_neg hroom]

theorem readPageRecords_reached {base : Nat} (hpage : base + pageSize ≤ data.length) (offset : Nat)
    (st : ReadState) (hpending : st.pending = []) :
    Reached data st.events
      (readPageRecords (pageAt data base) (pageAddr (pageAt data base)) offset st)
      (walFormat.scanFrom (segmentPage data base) offset).1
      (walFormat.scanFrom (segmentPage data base) offset).2 := by
  have hbytes : (segmentPage data base).bytes = pageAt data base := rfl
  induction offset using Format.scanFrom.induct walFormat (segmentPage data base)
      generalizing st with
  | case1 offset hroom hshort =>
    rw [scanFrom_short hroom hshort]
    rw [hbytes] at hshort
    rw [readPageRecords_round hpage _ _ hpending, if_pos hroom, if_pos hshort]
    exact ⟨by simp, hpending⟩
  | case2 offset hroom hshort hover =>
    rw [scanFrom_over hroom hshort hover]
    rw [hbytes] at hshort hover
    rw [readPageRecords_round hpage _ _ hpending, if_pos hroom, if_neg hshort, if_pos hover]
    have hlt : offset < (pageAt data base).length := by
      rw [pageAt_length hpage]
      have hroom' : offset + 24 ≤ pageSize := hroom
      omega
    have hne : (pageAt data base).drop offset ≠ [] := by
      rw [ne_eq, List.drop_eq_nil_iff]
      omega
    exact ⟨by simp, rfl, hne, rfl, rfl⟩
  | case3 offset hroom hshort hover ih =>
    rw [scanFrom_found hroom hshort hover]
    rw [hbytes] at hshort hover
    rw [readPageRecords_round hpage _ _ hpending, if_pos hroom, if_neg hshort, if_neg hover]
    exact .cons (ih { st with
      events := st.events ++ [emit data ⟨base, offset, ((pageAt data base).drop offset).take
        (walFormat.lenOf ((pageAt data base).drop offset))⟩] } hpending)
  | case4 offset hroom =>
    rw [scanFrom_past hroom, readPageRecords_round hpage _ _ hpending, if_neg hroom]
    exact ⟨by simp, hpending⟩

theorem scanFrom_pageEnd (page : Page UInt8) {offset : Nat} (h : pageSize ≤ offset) :
    walFormat.scanFrom page offset = ([], none) := by
  apply scanFrom_past
  show ¬ offset + 24 ≤ pageSize
  omega

/-- A page continues the scan: it completes or extends the pending record, or is
searched for records. -/
theorem readPage_scanPage {base : Nat} (hpage : base + pageSize ≤ data.length) (st : ReadState)
    (record : Option (Open UInt8)) (hpends : Pends data st record) :
    Reached data st.events (readPage (pageAt data base) base st)
      (walFormat.scanPage (segmentPage data base) record).1
      (walFormat.scanPage (segmentPage data base) record).2 := by
  have hlength := pageAt_length hpage
  have hsize : headerSize base ≤ pageSize := by
    rw [headerSize]
    split <;> decide
  rw [readPage, if_neg (by omega)]
  cases record with
  | none =>
    have hpending : st.pending = [] := hpends
    rw [if_neg (by simp [hpending]), Format.scanPage]
    have hstart : (segmentPage data base).start = searchStart (pageAt data base) base := rfl
    rw [hstart, searchStart]
    by_cases hrem : base > 0 ∧ remLen (pageAt data base) > 0
    · rw [if_pos hrem, if_pos hrem.1]
      by_cases hfull : remLen (pageAt data base) ≥ pageSize - headerSize base
      · rw [if_pos hfull, scanFrom_pageEnd _ (by omega)]
        exact ⟨by simp, hpending⟩
      · rw [if_neg hfull]
        exact readPageRecords_reached hpage _ st hpending
    · rw [if_neg hrem]
      have hzero : (if base > 0 then headerSize base + remLen (pageAt data base)
          else headerSize base) = headerSize base := by
        split <;> omega
      rw [hzero]
      exact readPageRecords_reached hpage _ st hpending
  | some o =>
    obtain ⟨hraw, hne, hneed, hlsn⟩ := hpends
    have hextend : o.raw ++ slice (pageAt data base) (headerSize base) (headerSize base +
        min (o.need - o.raw.length) (pageSize - headerSize base)) =
        o.extend (segmentPage data base) := by
      rw [slice, Nat.add_sub_cancel_left, ← hlength, ← List.length_drop, ← List.take_eq_take_min]
      rfl
    rw [Format.scanPage]
    simp only [hraw, hneed, if_pos hne, hextend]
    by_cases hlen : (o.extend (segmentPage data base)).length = o.need
    · rw [if_pos hlen, if_pos hlen]
      have hfit : o.need - o.raw.length ≤ pageSize - headerSize base := by
        rw [Open.extend] at hlen
        simp only [segmentPage, List.length_append, List.length_take, List.length_drop,
          hlength] at hlen
        omega
      rw [Nat.min_eq_left hfit, hlsn]
      exact .cons (readPageRecords_reached hpage _
        ⟨st.events ++ [emit data ⟨o.base, o.offset, o.extend (segmentPage data base)⟩],
          [], 0, 0⟩ rfl)
    · rw [if_neg hlen, if_neg hlen]
      exact ⟨by simp, rfl, by simp [Open.extend, hne], rfl, hlsn⟩

variable (data) in
theorem foldl_readPage (starts : List Nat) (hstarts : ∀ s ∈ starts, s + pageSize ≤ data.length)
    (st : ReadState) (record : Option (Open UInt8)) (hpends : Pends data st record) :
    (starts.foldl (fun st s => readPage (pageAt data s) s st) st).events =
      st.events ++
        (walFormat.scan (starts.map (segmentPage data)) record).map (emit data) := by
  induction starts generalizing st record with
  | nil => cases record <;> simp [Format.scan]
  | cons s starts ih =>
    obtain ⟨hall, hpends'⟩ := readPage_scanPage (hstarts s List.mem_cons_self) st record hpends
    rw [List.foldl_cons, List.map_cons, scan_cons, List.map_append, ← List.append_assoc, ← hall]
    exact ih (fun t ht => hstarts t (List.mem_cons_of_mem s ht)) _ _ hpends'

end

/-- The reader emits one event for each extent of the segment. -/
theorem readRecords_eq_scan (data : Bytes) :
    readRecords (.ok data) = .ok ((segmentExtents data).map (emit data)) := by
  have := foldl_readPage data (pageStarts data) (fun s hs => (mem_pageStarts hs).1)
    ⟨[], [], 0, 0⟩ none rfl
  rw [pageStarts, List.foldl_map] at this
  exact congrArg Except.ok this

end LearnPg.Collector
