import LearnPg.Basis.RecordSpans
import LearnPg.Wal.Checked
import LearnPg.Wal.Layout

/-! No content of a file makes the backend's reader fault, and what it returns is well
formed. -/
namespace LearnPg.Wal.Checked
open LearnPg.Basis.Faults LearnPg.Basis.RecordScan LearnPg.Basis.RecordStream

/-- The first number a 64-bit `int` does not reach. -/
def intBound : Nat := 2 ^ 63

/-- A file read into memory: no slice comes within a page of the largest `int`. -/
structure Loaded where
  bytes : Bytes
  fits : bytes.length + pageSize < intBound

/-- `ref.SameRel && lastRel.ok`. -/
def backendChecks : RefChecks RelTriple BlockRef where
  reader := backendRefs
  bound := intBound
  relation := fun payload offset sameRel lastRel =>
    match sameRel, lastRel with
    | true, some rel => pure (some (rel, 0, lastRel))
    | _, _ => do
      let rel ← readRelation intBound payload offset
      pure (rel.map fun rel => (rel, 12, some rel))
  relation_ok := by
    intro payload offset sameRel lastRel hbound
    unfold backendRefs
    cases sameRel <;> cases lastRel <;> simp [readRelation_ok hbound]
  size_le := by
    intro payload offset sameRel lastRel found hfound
    unfold backendRefs at hfound
    dsimp only at hfound
    split at hfound
    · cases hfound
      exact Nat.zero_le _
    · obtain ⟨rel, -, rfl⟩ := Option.map_eq_some_iff.mp hfound
      exact Nat.le_refl _

def parseBlockReferences (payload : Bytes) : Checked (List BlockRef) :=
  backendChecks.parse payload 0 none

/-- The fields `ParseRMgrData` reads for a resource manager. -/
def rmgrFields (rmgrid : UInt8) (data : Bytes) : Checked (List (String × Detail)) :=
  match rmgrid with
  | 0 =>
    if data.length ≥ 8 then do
      let nextLen ← readLE32 (← cut data 0 4)
      let blockID ← index data 4
      pure [("next_len", .word nextLen), ("block_id", .byte blockID)]
    else pure []
  | 2 =>
    if data.length ≥ 24 then do
      let rnode ← readLE32 (← cut data 0 4)
      let forknum ← readLE32 (← cut data 4 8)
      let num ← readLE32 (← cut data 8 12)
      let lo ← index data 12
      let hi ← index data 13
      pure [("block_rnode", .word rnode), ("block_forknum", .word forknum),
        ("block_num", .word num), ("page_offset", .half (lo.toUInt16 ||| hi.toUInt16 <<< 8))]
    else pure []
  | _ => pure []

def parseRMgrData (rmgrid info : UInt8) (data : Bytes) : Checked (List (String × Detail)) := do
  let preview ← cut data 0 (min 64 data.length)
  let fields ← rmgrFields rmgrid data
  pure ([("rmgrid", .byte rmgrid), ("rmgr", .text ((rmgrNames rmgrid).getD "")),
    ("info", .byte info), ("len", .int data.length), ("hex", .text (hexEncode preview))] ++
    (if data.length > 64 then [("truncated", .flag true), ("total_len", .int data.length)]
      else []) ++ fields)

def buildRecord (raw : Bytes) (lsnValue : UInt64) (pageOffset : UInt32) : Checked Record := do
  let xid ← readLE32 (← cut raw 4 8)
  let prevLSNValue ← readLE64 (← cut raw 8 16)
  let info ← index raw 16
  let rmgrID ← index raw 17
  let crc ← readLE32 (← cut raw 20 24)
  let payload ← cut raw xlogRecordHeaderSize raw.length
  let blocks ← parseBlockReferences payload
  let details ← parseRMgrData rmgrID info payload
  pure
    { lsn := formatLSN64 lsnValue
      lsnValue
      pageOffset
      recordLen := UInt32.ofNat raw.length
      payloadLen := UInt32.ofNat payload.length
      rmgrID
      rmgrName := lookupRmgrName rmgrID
      operation := parseRecordInfo rmgrID info
      info
      xid
      prevLSN := formatLSN64 prevLSNValue
      prevLSNValue
      crc
      data := payload
      blocks
      details := details ++
        (if blocks.length > 0 then [("block_ref_count", .int blocks.length)] else []) }

theorem parseBlockReferences_ok {payload : Bytes} (h : payload.length < 2 ^ 32) :
    parseBlockReferences payload = .ok (Wal.parseBlockReferences payload) :=
  RefChecks.parse_ok (Nat.zero_le _) (by simp only [backendChecks, intBound]; omega)

theorem rmgrFields_xlog {data : Bytes} (h : data.length ≥ 8) :
    rmgrFields 0 data =
      .ok [("next_len", .word (Wal.readLE32 (slice data 0 4))),
        ("block_id", .byte (byteAt data 4))] := by
  unfold rmgrFields
  rw [if_pos h, ← bind_assoc, cut_readLE32 (by omega) (by omega), ok_bind, byteAt_ok (by omega)]
  rfl

theorem rmgrFields_heap {data : Bytes} (h : data.length ≥ 24) :
    rmgrFields 2 data =
      .ok [("block_rnode", .word (Wal.readLE32 (slice data 0 4))),
        ("block_forknum", .word (Wal.readLE32 (slice data 4 8))),
        ("block_num", .word (Wal.readLE32 (slice data 8 12))),
        ("page_offset", .half (Wal.readLE16 (slice data 12 14)))] := by
  have hpair : Wal.readLE16 (slice data 12 14) =
      (byteAt data 12).toUInt16 ||| (byteAt data 13).toUInt16 <<< 8 := by
    simp [Wal.readLE16, slice, byteAt, List.getD_eq_getElem?_getD]
  unfold rmgrFields
  rw [if_pos h, hpair]
  simp (disch := omega) only [← bind_assoc, cut_readLE32, ok_bind, byteAt_ok]
  rfl

theorem parseRMgrData_ok (rmgrid info : UInt8) (data : Bytes) :
    parseRMgrData rmgrid info data = .ok (Wal.parseRMgrData rmgrid info data) := by
  have hpreview : cut data 0 (min 64 data.length) = .ok (slice data 0 (min 64 data.length)) :=
    cut_slice (Nat.zero_le _) (Nat.min_le_right _ _)
  by_cases hxlog : rmgrid = 0
  · subst hxlog
    by_cases h : data.length ≥ 8
    · simp [parseRMgrData, Wal.parseRMgrData, hpreview, rmgrFields_xlog h, h]
    · simp [parseRMgrData, Wal.parseRMgrData, hpreview, rmgrFields, h]
  · by_cases hheap : rmgrid = 2
    · subst hheap
      by_cases h : data.length ≥ 24
      · simp [parseRMgrData, Wal.parseRMgrData, hpreview, rmgrFields_heap h, h]
      · simp [parseRMgrData, Wal.parseRMgrData, hpreview, rmgrFields, h]
    · simp [parseRMgrData, Wal.parseRMgrData, hpreview, rmgrFields]

theorem buildRecord_ok {raw : Bytes} (hmin : xlogRecordHeaderSize ≤ raw.length)
    (hmax : raw.length < 2 ^ 32) (lsnValue : UInt64) (pageOffset : UInt32) :
    buildRecord raw lsnValue pageOffset = .ok (Wal.buildRecord raw lsnValue pageOffset) := by
  have hheader : 24 ≤ raw.length := hmin
  have hpayload : slice raw xlogRecordHeaderSize raw.length = raw.drop xlogRecordHeaderSize := by
    rw [slice]
    exact List.take_of_length_le (by rw [List.length_drop])
  have hshort : (raw.drop xlogRecordHeaderSize).length < 2 ^ 32 := by
    rw [List.length_drop]
    omega
  unfold buildRecord
  rw [← bind_assoc, cut_readLE32 (by omega) (by omega), ok_bind, ← bind_assoc,
    cut_readLE64 (by omega) (by omega), ok_bind, byteAt_ok (by omega), ok_bind,
    byteAt_ok (by omega), ok_bind, ← bind_assoc, cut_readLE32 (by omega) (by omega), ok_bind,
    cut_slice hmin (Nat.le_refl _), ok_bind, hpayload, parseBlockReferences_ok hshort, ok_bind,
    parseRMgrData_ok, ok_bind]
  rfl

/-! The loops. -/

section
variable (segNum : UInt64) (startOffset limit : Int)

def recLenAt (page : Bytes) (offset : Nat) : Checked Nat := do
  let recLen ← readLE32 (← cut page offset (offset + 4))
  pure recLen.toNat

def readPageRecords (page : Bytes) (pageStart offset : Nat) (st : ReadState Record) :
    Checked (ReadState Record) := do
  fit intBound (offset + xlogRecordHeaderSize)
  if offset + xlogRecordHeaderSize ≤ pageSize then
    fit intBound (pageStart + offset)
    if startOffset > 0 ∧ ((pageStart + offset : Nat) : Int) < startOffset then
      readPageRecords page pageStart (offset + 1) st
    else
      let recLen ← recLenAt page offset
      if recLen = 0 then pure st
      else if _h : recLen < xlogRecordHeaderSize then pure st
      else
        let lsnValue := segNum <<< 32 ||| UInt64.ofNat offset
        fit intBound (offset + recLen)
        if offset + recLen > pageSize then
          let rest ← cut page offset pageSize
          pure { st with
            pending := rest
            pendingLen := recLen
            pendingLSN := lsnValue
            pendingOffset := UInt32.ofNat offset }
        else
          let record ← buildRecord (← cut page offset (offset + recLen)) lsnValue
            (UInt32.ofNat offset)
          if (st.append limit record).stopped then pure (st.append limit record)
          else
            fit intBound (recLen + (walRecordAlign - 1))
            fit intBound (offset + alignRecordLength recLen)
            readPageRecords page pageStart (offset + alignRecordLength recLen)
              (st.append limit record)
  else pure st
termination_by pageSize - offset
decreasing_by
  · simp only [pageSize, xlogRecordHeaderSize] at *
    omega
  · simp only [pageSize, xlogRecordHeaderSize, alignRecordLength, walRecordAlign] at *
    omega

/-- One round of the page loop. Were more pending than the record's length, the bounds of
the slice taken from the page would cross. -/
def readPage (page : Bytes) (pageStart : Nat) (st : ReadState Record) :
    Checked (ReadState Record) := do
  if page.length < headerSize pageStart then pure { st with stopped := true }
  else
    let _walAddrHint ← readLE64 (← cut page 8 16)
    let magic ← readLE16 (← cut page 0 2)
    let _info ← readLE16 (← cut page 2 4)
    if magic ≠ pageMagic then pure st
    else
      let offset := headerSize pageStart
      if st.pending.length > 0 then
        let available := pageSize - headerSize pageStart
        let need ← sub st.pendingLen st.pending.length
        let take := if need > available then available else need
        let more ← cut page offset (offset + take)
        let pending := st.pending ++ more
        if pending.length = st.pendingLen then
          let record ← buildRecord pending st.pendingLSN st.pendingOffset
          let st := { st.append limit record with pending }
          if st.stopped then pure st
          else
            readPageRecords segNum startOffset limit page pageStart (offset + take)
              { st with pending := [], pendingLen := 0 }
        else pure { st with pending }
      else readPageRecords segNum startOffset limit page pageStart offset st

/-- `for pageStart := 0; pageStart+PageSize <= len(data); pageStart += PageSize`. -/
def readPages (data : Bytes) (pageStart : Nat) (st : ReadState Record) :
    Checked (ReadState Record) := do
  fit intBound (pageStart + pageSize)
  if pageStart + pageSize ≤ data.length then
    let st ← readPage segNum startOffset limit
      (← cut data pageStart (pageStart + pageSize)) pageStart st
    if st.stopped then pure st
    else readPages data (pageStart + pageSize) st
  else pure st
termination_by data.length - pageStart
decreasing_by
  simp only [pageSize] at *
  omega

def readRecords (file : Loaded) : Checked (List Record) := do
  let st ← readPages segNum startOffset limit file.bytes 0 (ReadState.init Record)
  pure st.records

end

/-- A record is pending only while bytes of it are missing. -/
def Sound (st : ReadState Record) : Prop :=
  st.pending ≠ [] → xlogRecordHeaderSize ≤ st.pendingLen ∧ st.pending.length < st.pendingLen ∧
    st.pendingLen < 2 ^ 32

section
variable {segNum : UInt64} {startOffset limit : Int} {page : Bytes}

theorem recLenAt_ok (hpage : page.length = pageSize) {offset : Nat}
    (hroom : offset + xlogRecordHeaderSize ≤ pageSize) :
    recLenAt page offset = .ok (Wal.recLenAt page offset) := by
  have hroom' : offset + 24 ≤ pageSize := hroom
  rw [recLenAt, ← bind_assoc, cut_readLE32 (Nat.le_refl _) (by omega)]
  rfl

theorem recLenAt_lt (page : Bytes) (offset : Nat) : Wal.recLenAt page offset < 2 ^ 32 :=
  UInt32.toNat_lt _

variable (segNum startOffset limit) in
theorem readPageRecords_round (hpage : page.length = pageSize) {pageStart : Nat}
    (hstart : pageStart + pageSize < intBound) {offset : Nat} (hoffset : offset ≤ 2 * pageSize)
    (st : ReadState Record) :
    readPageRecords segNum startOffset limit page pageStart offset st =
      if offset + xlogRecordHeaderSize ≤ pageSize then
        if startOffset > 0 ∧ ((pageStart + offset : Nat) : Int) < startOffset then
          readPageRecords segNum startOffset limit page pageStart (offset + 1) st
        else if Wal.recLenAt page offset = 0 then .ok st
        else if Wal.recLenAt page offset < xlogRecordHeaderSize then .ok st
        else if offset + Wal.recLenAt page offset > pageSize then
          .ok { st with
            pending := slice page offset pageSize
            pendingLen := Wal.recLenAt page offset
            pendingLSN := segNum <<< 32 ||| UInt64.ofNat offset
            pendingOffset := UInt32.ofNat offset }
        else
          let st := st.append limit (Wal.buildRecord
            (slice page offset (offset + Wal.recLenAt page offset))
            (segNum <<< 32 ||| UInt64.ofNat offset) (UInt32.ofNat offset))
          if st.stopped then .ok st
          else readPageRecords segNum startOffset limit page pageStart
            (offset + alignRecordLength (Wal.recLenAt page offset)) st
      else .ok st := by
  have hbound : intBound = 2 ^ 63 := rfl
  have hsize : pageSize = 8192 := rfl
  have hheader : xlogRecordHeaderSize = 24 := rfl
  have hlen := recLenAt_lt page offset
  rw [readPageRecords, fit_ok (by omega), ok_bind]
  by_cases hroom : offset + xlogRecordHeaderSize ≤ pageSize
  · rw [if_pos hroom, if_pos hroom, fit_ok (by omega), ok_bind]
    split
    · rfl
    · rw [recLenAt_ok hpage hroom, ok_bind]
      generalize Wal.recLenAt page offset = recLen at hlen
      split
      · rfl
      · split
        · rfl
        · rename_i hshort
          rw [fit_ok (by omega), ok_bind]
          split
          · rw [cut_slice (by omega) (by omega)]
            rfl
          · have hraw : (slice page offset (offset + recLen)).length = recLen := by
              rw [slice_length]
              omega
            rw [cut_slice (by omega) (by omega), ok_bind, buildRecord_ok (by omega) (by omega),
              ok_bind]
            dsimp only
            split
            · rfl
            · rw [fit_ok (by simp only [walRecordAlign]; omega), ok_bind,
                fit_ok (by simp only [alignRecordLength, walRecordAlign]; omega), ok_bind]
  · rw [if_neg hroom, if_neg hroom]
    rfl

variable (segNum startOffset limit) in
theorem readPageRecords_ok (hpage : page.length = pageSize) {pageStart : Nat}
    (hstart : pageStart + pageSize < intBound) (offset : Nat) (hoffset : offset ≤ 2 * pageSize)
    (st : ReadState Record) (hst : Sound st) :
    readPageRecords segNum startOffset limit page pageStart offset st =
        .ok (Wal.readPageRecords Wal.buildRecord segNum startOffset limit page pageStart offset
          st) ∧
      Sound (Wal.readPageRecords Wal.buildRecord segNum startOffset limit page pageStart offset
        st) := by
  have hsize : pageSize = 8192 := rfl
  have hheader : xlogRecordHeaderSize = 24 := rfl
  induction offset, st using Wal.readPageRecords.induct Wal.buildRecord segNum startOffset limit
      page pageStart with
  | case1 offset st hroom hskip ih =>
    rw [readPageRecords_round _ _ _ hpage hstart hoffset, Wal.readPageRecords, if_pos hroom,
      if_pos hroom, if_pos hskip, if_pos hskip]
    exact ih (by omega) hst
  | case2 offset st hroom hskip hzero =>
    rw [readPageRecords_round _ _ _ hpage hstart hoffset, Wal.readPageRecords, if_pos hroom,
      if_pos hroom, if_neg hskip, if_neg hskip, if_pos hzero, if_pos hzero]
    exact ⟨rfl, hst⟩
  | case3 offset st hroom hskip hzero hshort =>
    rw [readPageRecords_round _ _ _ hpage hstart hoffset, Wal.readPageRecords, if_pos hroom,
      if_pos hroom, if_neg hskip, if_neg hskip, if_neg hzero, if_neg hzero, if_pos hshort,
      dif_pos hshort]
    exact ⟨rfl, hst⟩
  | case4 offset st hroom hskip hzero hshort hover =>
    rw [readPageRecords_round _ _ _ hpage hstart hoffset, Wal.readPageRecords, if_pos hroom,
      if_pos hroom, if_neg hskip, if_neg hskip, if_neg hzero, if_neg hzero, if_neg hshort,
      dif_neg hshort, if_pos hover, if_pos hover]
    refine ⟨rfl, fun _ => ⟨Nat.le_of_not_lt hshort, ?_, recLenAt_lt page offset⟩⟩
    simp only [slice_length]
    omega
  | case5 offset st hroom hskip hzero hshort lsnValue hover st' hstop =>
    rw [readPageRecords_round _ _ _ hpage hstart hoffset, Wal.readPageRecords, if_pos hroom,
      if_pos hroom, if_neg hskip, if_neg hskip, if_neg hzero, if_neg hzero, if_neg hshort,
      dif_neg hshort, if_neg hover, if_neg hover]
    dsimp only
    rw [if_pos hstop, if_pos hstop]
    exact ⟨rfl, hst⟩
  | case6 offset st hroom hskip hzero hshort lsnValue hover st' hstop ih =>
    rw [readPageRecords_round _ _ _ hpage hstart hoffset, Wal.readPageRecords, if_pos hroom,
      if_pos hroom, if_neg hskip, if_neg hskip, if_neg hzero, if_neg hzero, if_neg hshort,
      dif_neg hshort, if_neg hover, if_neg hover]
    dsimp only
    rw [if_neg hstop, if_neg hstop]
    exact ih (by simp only [alignRecordLength, walRecordAlign]; omega) hst
  | case7 offset st hroom =>
    rw [readPageRecords_round _ _ _ hpage hstart hoffset, Wal.readPageRecords, if_neg hroom,
      if_neg hroom]
    exact ⟨rfl, hst⟩

variable (segNum startOffset limit) in
theorem readPage_ok (hpage : page.length = pageSize) {pageStart : Nat}
    (hstart : pageStart + pageSize < intBound) (st : ReadState Record) (hst : Sound st)
    (hrun : st.stopped = false) :
    readPage segNum startOffset limit page pageStart st =
        .ok (Wal.readPage Wal.buildRecord segNum startOffset limit page pageStart st) ∧
      ((Wal.readPage Wal.buildRecord segNum startOffset limit page pageStart st).stopped = false →
        Sound (Wal.readPage Wal.buildRecord segNum startOffset limit page pageStart st)) := by
  have hsize : pageSize = 8192 := rfl
  have hheader : headerSize pageStart ≤ 40 := by
    rw [headerSize]
    split <;> decide
  have hrecord : xlogRecordHeaderSize = 24 := rfl
  have hlong : ¬ page.length < headerSize pageStart := by omega
  have hrun' : ¬ st.stopped = true := by simp [hrun]
  unfold readPage Wal.readPage
  rw [if_neg hlong, if_neg hrun', if_neg hlong, ← bind_assoc,
    cut_readLE64 (by omega) (by omega), ok_bind, ← bind_assoc,
    cut_readLE16 (by omega) (by omega), ok_bind, ← bind_assoc,
    cut_readLE16 (by omega) (by omega), ok_bind]
  by_cases hmagic : Wal.readLE16 (slice page 0 2) ≠ pageMagic
  · rw [if_pos hmagic, if_pos hmagic]
    exact ⟨rfl, fun _ => hst⟩
  · rw [if_neg hmagic, if_neg hmagic]
    dsimp only
    by_cases hpending : st.pending.length > 0
    · obtain ⟨hmin, hlacks, hmax⟩ := hst (List.ne_nil_of_length_pos hpending)
      rw [if_pos hpending, if_pos hpending, sub_ok (by omega), ok_bind]
      generalize htake : (if st.pendingLen - st.pending.length > pageSize - headerSize pageStart
        then pageSize - headerSize pageStart else st.pendingLen - st.pending.length) = take
      have hle : take ≤ pageSize - headerSize pageStart ∧
          take ≤ st.pendingLen - st.pending.length := by split at htake <;> omega
      rw [cut_slice (by omega) (by omega), ok_bind]
      have hgrown : (st.pending ++ slice page (headerSize pageStart)
          (headerSize pageStart + take)).length = st.pending.length + take := by
        rw [List.length_append, slice_length]
        omega
      by_cases hfull : (st.pending ++ slice page (headerSize pageStart)
          (headerSize pageStart + take)).length = st.pendingLen
      · rw [if_pos hfull, if_pos hfull, buildRecord_ok (by omega) (by omega), ok_bind]
        split
        · rename_i hstop
          exact ⟨rfl, fun h => by simp [hstop] at h⟩
        · have hnext := readPageRecords_ok segNum startOffset limit hpage hstart
            (headerSize pageStart + take) (by omega)
          exact ⟨(hnext _ fun h => absurd rfl h).1, fun _ => (hnext _ fun h => absurd rfl h).2⟩
      · rw [if_neg hfull, if_neg hfull]
        exact ⟨rfl, fun _ _ => ⟨hmin, by simp only [hgrown] at hfull ⊢; omega, hmax⟩⟩
    · rw [if_neg hpending, if_neg hpending]
      obtain ⟨hok, hsound⟩ := readPageRecords_ok segNum startOffset limit hpage hstart
        (headerSize pageStart) (by omega) st hst
      exact ⟨hok, fun _ => hsound⟩

variable (segNum startOffset limit) in
theorem readPages_ok {data : Bytes} (hdata : data.length + pageSize < intBound) {n i s : Nat}
    (hn : i + n = data.length / pageSize) (hs : s = i * pageSize) (st : ReadState Record)
    (hst : Sound st) (hrun : st.stopped = false) :
    readPages segNum startOffset limit data s st =
      .ok (((List.range' i n).map (· * pageSize)).foldl (fun st s => Wal.readPage Wal.buildRecord
        segNum startOffset limit (pageAt data s) s st) st) := by
  have hsize : pageSize = 8192 := rfl
  induction n generalizing i s st with
  | zero =>
    have hend : ¬ s + pageSize ≤ data.length := by
      rw [hsize] at hn hs ⊢
      omega
    have hlast : s ≤ data.length := by
      rw [hsize] at hn hs
      omega
    unfold readPages
    rw [fit_ok (by omega), ok_bind, if_neg hend]
    rfl
  | succ n ih =>
    have hfits : s + pageSize ≤ data.length := by
      rw [hsize] at hn hs ⊢
      omega
    have hpage : (pageAt data s).length = pageSize := pageAt_length hfits
    have hstart : s + pageSize < intBound := by omega
    obtain ⟨hok, hsound⟩ := readPage_ok segNum startOffset limit hpage
      hstart st hst hrun
    have hcut : cut data s (s + pageSize) = .ok (pageAt data s) := cut_slice (by omega) hfits
    unfold readPages
    rw [fit_ok (by omega), ok_bind, if_pos hfits, hcut, ok_bind, hok, ok_bind,
      List.range'_succ, List.map_cons, List.foldl_cons, ← hs]
    split
    · rename_i hstop
      rw [foldl_readPage_stopped _ _ _ hstop]
      rfl
    · rename_i hgo
      have hgo : (Wal.readPage Wal.buildRecord segNum startOffset limit (pageAt data s) s
        st).stopped = false := by simpa using hgo
      have hnext : s + pageSize = (i + 1) * pageSize := by rw [hs, Nat.succ_mul]
      exact ih (by omega) hnext _ (hsound hgo) hgo

/-- The checked reader makes no fault and returns what the plain one returns: one record
for each extent of the segment, up to the limit. -/
theorem readRecords_ok (segNum : UInt64) (startOffset limit : Int) (file : Loaded) :
    readRecords segNum startOffset limit file =
      .ok (capped limit ((segmentExtents file.bytes startOffset.toNat).map
        (emit Wal.buildRecord segNum))) := by
  have hpages := readPages_ok segNum startOffset limit file.fits (n := file.bytes.length / pageSize)
    (i := 0) (s := 0) (by omega) (by omega) (ReadState.init Record) (fun h => absurd rfl h) rfl
  rw [← readPages_eq_scan]
  rw [readRecords, hpages, List.foldl_map, ← List.range_eq_range']
  rfl

/-- Every extent of a segment has the length its header claims. -/
theorem segmentExtents_sized (data : Bytes) (startOffset : Nat) :
    ∀ e ∈ segmentExtents data startOffset, WellSized walFormat e.raw := by
  refine Basis.RecordSpans.scan_sized (fun p hp => ?_) (by simp)
  obtain ⟨s, hs, rfl⟩ := List.mem_map.mp (List.mem_of_mem_filter hp)
  exact pageAt_length (mem_pageStarts hs).1

/-- What a record says of its own length is true of the bytes it was built from. -/
structure Measured (r : Record) : Prop where
  built : ∃ raw lsnValue pageOffset, r = Wal.buildRecord raw lsnValue pageOffset ∧
    raw.length = r.recordLen.toNat
  recordLen : r.recordLen.toNat = xlogRecordHeaderSize + r.payloadLen.toNat
  payload : r.data.length = r.payloadLen.toNat

theorem emit_measured (segNum : UInt64) {e : Extent UInt8} (h : WellSized walFormat e.raw) :
    Measured (emit Wal.buildRecord segNum e) := by
  obtain ⟨hclaim, hmin⟩ := h
  have hheader : xlogRecordHeaderSize ≤ e.raw.length := hmin
  have hlt : e.raw.length < 2 ^ 32 := by
    rw [← hclaim]
    exact UInt32.toNat_lt _
  have hrecord : (UInt32.ofNat e.raw.length).toNat = e.raw.length :=
    UInt32.toNat_ofNat_of_lt' hlt
  have hshort : (e.raw.drop xlogRecordHeaderSize).length < 2 ^ 32 := by
    rw [List.length_drop]
    omega
  have hpayload : (UInt32.ofNat (e.raw.drop xlogRecordHeaderSize).length).toNat =
      (e.raw.drop xlogRecordHeaderSize).length := UInt32.toNat_ofNat_of_lt' hshort
  refine ⟨⟨e.raw, _, _, rfl, hrecord.symm⟩, ?_, hpayload.symm⟩
  show (UInt32.ofNat e.raw.length).toNat = xlogRecordHeaderSize +
    (UInt32.ofNat (e.raw.drop xlogRecordHeaderSize).length).toNat
  rw [hrecord, hpayload, List.length_drop]
  omega

end

/-- Reading a file of any content never faults and returns measured records; a positive
limit bounds their number and cuts the unlimited list off. -/
theorem readRecords_total (file : Loaded) (segNum : UInt64) (startOffset limit : Int) :
    ∃ records, readRecords segNum startOffset limit file = .ok records ∧
      Wal.readRecords (.ok file.bytes) segNum startOffset limit = .ok records ∧
      (∀ r ∈ records, Measured r) ∧
      (0 < limit → (records.length : Int) ≤ limit ∧
        ∃ all, readRecords segNum startOffset 0 file = .ok all ∧ records <+: all) := by
  have hsub : ∀ r ∈ capped limit ((segmentExtents file.bytes startOffset.toNat).map
      (emit Wal.buildRecord segNum)), r ∈ (segmentExtents file.bytes startOffset.toNat).map
      (emit Wal.buildRecord segNum) := by
    intro r hr
    rw [capped] at hr
    split at hr
    · exact List.mem_of_mem_take hr
    · exact hr
  refine ⟨_, readRecords_ok segNum startOffset limit file, readRecords_eq_scan .., ?_, ?_⟩
  · intro r hr
    obtain ⟨e, he, rfl⟩ := List.mem_map.mp (hsub r hr)
    exact emit_measured segNum (segmentExtents_sized _ _ e he)
  · intro hlimit
    rw [capped, if_pos hlimit]
    refine ⟨?_, _, readRecords_ok segNum startOffset 0 file, List.take_prefix _ _⟩
    rw [List.length_take]
    omega

def crossingFile : Loaded where
  bytes := layOut plainHeaders ([8200].map bareRecord) 2
  fits := by
    rw [layOut_length]
    decide

theorem readRecords_total_crossing : ∃ r,
    readRecords 1 0 3 crossingFile = .ok [r] ∧ Measured r ∧ r.recordLen = 8200 := by
  obtain ⟨records, hchecked, hplain, hmeasured, -⟩ := readRecords_total crossingFile 1 0 3
  have hlengths : ([8200].map bareRecord).map List.length = [8200] :=
    bareRecords_lengths (by decide)
  have hfits : Fits ([8200].map bareRecord) 2 := fits_of_finish (by rw [hlengths]; decide)
  have hextents :=
    (segmentExtents_layOut_iff plainHeaders (bareRecords_wellSized (by decide)) hfits).mpr trivial
  obtain ⟨e, he, hraw⟩ : ∃ e, segmentExtents crossingFile.bytes 0 = [e] ∧ e.raw = bareRecord 8200 :=
    List.map_eq_singleton_iff.mp hextents
  have hall := hplain.symm.trans (readRecords_eq_scan ..)
  rw [show (0 : Int).toNat = 0 from rfl, he] at hall
  cases Except.ok.inj hall
  refine ⟨emit Wal.buildRecord 1 e, hchecked, hmeasured _ List.mem_cons_self, ?_⟩
  rw [emit, (buildRecord_holds ..).recordLen, hraw, bareRecord_length (by decide)]
  rfl

end LearnPg.Wal.Checked
