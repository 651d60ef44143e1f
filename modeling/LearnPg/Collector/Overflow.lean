import LearnPg.Collector.Reader
import LearnPg.Wal.Checked
import LearnPg.Basis.RecordSpans

/-! The collector's reader in the checked arithmetic of a debug build. Lengths read from the
file cannot make it panic; the address a page claims for itself can. -/
namespace LearnPg.Collector.Checked
open Wal LearnPg.Basis.Faults LearnPg.Basis.RecordScan LearnPg.Basis.RecordSpans
open Wal.Checked (RefChecks byteAt_ok cut_slice cut_readLE32)

/-- The first number a `usize` does not reach, and the first a `u64` does not. -/
def usizeBound : Nat := 2 ^ 64

/-- What `fs::read` returns: a vector is at most `isize::MAX` bytes long. -/
structure FileContent where
  bytes : Bytes
  fits : bytes.length < 2 ^ 63

def readBE32 (b : Bytes) : Checked UInt32 := do
  let b0 ← Basis.Faults.index b 0
  let b1 ← Basis.Faults.index b 1
  let b2 ← Basis.Faults.index b 2
  let b3 ← Basis.Faults.index b 3
  pure (b0.toUInt32 <<< 24 ||| b1.toUInt32 <<< 16 ||| b2.toUInt32 <<< 8 ||| b3.toUInt32)

def readBE64 (b : Bytes) : Checked UInt64 := do
  let hi ← readBE32 (← cut b 0 4)
  let lo ← readBE32 (← cut b 4 8)
  pure (hi.toUInt64 <<< 32 ||| lo.toUInt64)

theorem cut_readBE32 {b : Bytes} {lo hi : Nat} (hlo : lo + 4 ≤ hi) (hhi : hi ≤ b.length) :
    cut b lo hi >>= readBE32 = .ok (Wal.readBE32 (slice b lo hi)) := by
  have hlen : 4 ≤ (slice b lo hi).length := by
    rw [slice_length]
    omega
  rw [cut_slice (by omega) hhi, ok_bind, readBE32]
  simp (disch := omega) only [byteAt_ok, ok_bind]
  rfl

theorem cut_readBE64 {b : Bytes} {lo hi : Nat} (hlo : lo + 8 ≤ hi) (hhi : hi ≤ b.length) :
    cut b lo hi >>= readBE64 = .ok (Wal.readBE64 (slice b lo hi)) := by
  have hlen : 8 ≤ (slice b lo hi).length := by
    rw [slice_length]
    omega
  rw [cut_slice (by omega) hhi, ok_bind, readBE64, ← bind_assoc,
    cut_readBE32 (by omega) (by omega), ok_bind, ← bind_assoc,
    cut_readBE32 (by omega) (by omega)]
  rfl

/-- `if block.same_rel`. -/
def collectorChecks : RefChecks (Option RelTriple) WalBlockRef where
  reader := collectorRefs
  bound := usizeBound
  relation := fun payload offset sameRel lastRel =>
    if sameRel then pure (some (lastRel, 0, lastRel))
    else do
      let rel ← Wal.Checked.readRelation usizeBound payload offset
      pure (rel.map fun rel => (some rel, 12, some rel))
  relation_ok := by
    intro payload offset sameRel lastRel hbound
    unfold collectorRefs
    cases sameRel <;> simp [Wal.Checked.readRelation_ok hbound]
  size_le := by
    intro payload offset sameRel lastRel found hfound
    unfold collectorRefs at hfound
    dsimp only at hfound
    split at hfound
    · cases hfound
      exact Nat.zero_le _
    · obtain ⟨rel, -, rfl⟩ := Option.map_eq_some_iff.mp hfound
      exact Nat.le_refl _

def parseBlockRefs (payload : Bytes) : Checked (List WalBlockRef) :=
  collectorChecks.parse payload 0 none

def parseRecordBytes (raw : Bytes) (lsnValue : UInt64) (source : String) :
    Checked WalInsertEvent := do
  let xid ← Wal.Checked.readLE32 (← cut raw 4 8)
  let info ← Basis.Faults.index raw 16
  let rmgrId ← Basis.Faults.index raw 17
  let payload ← cut raw recordHeaderSize raw.length
  let blocks ← parseBlockRefs payload
  pure
    { xlogPtr := formatLSN64 lsnValue
      lsnValue
      recordLen := UInt32.ofNat raw.length
      payloadLen := UInt32.ofNat payload.length
      rmgrId
      rmgrName := (RmgrId.ofByte rmgrId).name
      operation := operationName rmgrId info
      info
      xid
      blockNum := blocks.head?.map WalBlockRef.blockNum
      relOid := blocks.head?.bind WalBlockRef.relNode
      blocks
      source
      blockCount := 0 }

def totalLenAt (page : Bytes) (offset : Nat) : Checked Nat := do
  fit usizeBound (offset + 4)
  let totalLen ← Wal.Checked.readLE32 (← cut page offset (offset + 4))
  pure totalLen.toNat

/-- `page_addr + offset as u64`. -/
def addLsn (pageAddr : UInt64) (offset : Nat) : Checked UInt64 := do
  fit (2 ^ 64) (pageAddr.toNat + offset)
  pure (pageAddr + UInt64.ofNat offset)

/-- The record loop of one page. -/
def readPageRecords (page : Bytes) (pageAddr : UInt64) (offset : Nat) (st : ReadState) :
    Checked ReadState := do
  fit usizeBound (offset + recordHeaderSize)
  if offset + recordHeaderSize ≤ pageSize then
    let totalLen ← totalLenAt page offset
    fit usizeBound (offset + totalLen)
    if _h : totalLen = 0 ∨ totalLen < recordHeaderSize ∨ offset + totalLen > pageSize then
      if totalLen ≥ recordHeaderSize ∧ offset + totalLen > pageSize then
        let rest ← cut page offset pageSize
        let pendingLsn ← addLsn pageAddr offset
        pure { st with pending := st.pending ++ rest, pendingLen := totalLen, pendingLsn }
      else pure st
    else
      let lsnValue ← addLsn pageAddr offset
      let event ← parseRecordBytes (← cut page offset (offset + totalLen)) lsnValue "wal-file"
      fit usizeBound (totalLen + recordAlign)
      fit usizeBound (offset + align totalLen)
      readPageRecords page pageAddr (offset + align totalLen)
        { st with events := st.events ++ [event] }
  else pure st
termination_by pageSize - offset
decreasing_by
  simp only [pageSize, recordHeaderSize, align, recordAlign] at *
  omega

/-- One round of the page loop. -/
def readPage (page : Bytes) (pageStart : Nat) (st : ReadState) : Checked ReadState := do
  if page.length < headerSize pageStart then pure st
  else
    let pageAddr ← readBE64 (← cut page 8 16)
    let remLen ← readBE32 (← cut page 16 20)
    if st.pending ≠ [] then
      let available ← sub pageSize (headerSize pageStart)
      let need ← sub st.pendingLen st.pending.length
      let take := min need available
      fit usizeBound (headerSize pageStart + take)
      let more ← cut page (headerSize pageStart) (headerSize pageStart + take)
      let pending := st.pending ++ more
      if pending.length = st.pendingLen then
        let event ← parseRecordBytes pending st.pendingLsn "wal-file"
        readPageRecords page pageAddr (headerSize pageStart + take)
          { events := st.events ++ [event], pending := [], pendingLen := 0, pendingLsn := 0 }
      else pure { st with pending }
    else if pageStart > 0 ∧ remLen.toNat > 0 then
      let available ← sub pageSize (headerSize pageStart)
      if remLen.toNat ≥ available then pure st
      else
        fit usizeBound (headerSize pageStart + remLen.toNat)
        readPageRecords page pageAddr (headerSize pageStart + remLen.toNat) st
    else readPageRecords page pageAddr (headerSize pageStart) st

/-- `for page_start in (0..data.len()).step_by(PAGE_SIZE)`. -/
def readPages (data : Bytes) (pageStart : Nat) (st : ReadState) : Checked ReadState := do
  if pageStart < data.length then
    fit usizeBound (pageStart + pageSize)
    if pageStart + pageSize > data.length then pure st
    else
      let st ← readPage (← cut data pageStart (pageStart + pageSize)) pageStart st
      readPages data (pageStart + pageSize) st
  else pure st
termination_by data.length - pageStart
decreasing_by
  simp only [pageSize] at *
  omega

def readRecords (file : FileContent) : Checked (List WalInsertEvent) := do
  let st ← readPages file.bytes 0 ⟨[], [], 0, 0⟩
  pure st.events

/-! Everything but the sums with an address passes its check. -/

theorem parseRecordBytes_ok {raw : Bytes} (hmin : recordHeaderSize ≤ raw.length)
    (hmax : raw.length < 2 ^ 32) (lsnValue : UInt64) (source : String) :
    parseRecordBytes raw lsnValue source =
      .ok (Collector.parseRecordBytes raw lsnValue source) := by
  have hheader : 24 ≤ raw.length := hmin
  have hpayload : slice raw recordHeaderSize raw.length = raw.drop recordHeaderSize := by
    rw [slice]
    exact List.take_of_length_le (by rw [List.length_drop])
  have hblocks : parseBlockRefs (raw.drop recordHeaderSize) =
      .ok (Collector.parseBlockRefs (raw.drop recordHeaderSize)) := by
    refine RefChecks.parse_ok (Nat.zero_le _) ?_
    simp only [collectorChecks, usizeBound, List.length_drop]
    omega
  unfold parseRecordBytes
  rw [← bind_assoc, cut_readLE32 (by omega) (by omega), ok_bind, byteAt_ok (by omega), ok_bind,
    byteAt_ok (by omega), ok_bind, cut_slice hmin (Nat.le_refl _), ok_bind, hpayload, hblocks]
  rfl

theorem totalLenAt_ok {page : Bytes} (hpage : page.length = pageSize) {offset : Nat}
    (hroom : offset + recordHeaderSize ≤ pageSize) :
    totalLenAt page offset = .ok (walFormat.lenOf (page.drop offset)) := by
  have hsize : pageSize = 8192 := rfl
  have hroom' : offset + 24 ≤ pageSize := hroom
  rw [totalLenAt, fit_ok (by simp only [usizeBound]; omega), ok_bind, ← bind_assoc,
    cut_readLE32 (Nat.le_refl _) (by omega), ok_bind, readLE32_slice]
  rfl

/-- The address of the record at this offset of a page is below 2^64. -/
structure InRange (data : Bytes) (base offset : Nat) : Prop where
  lt : (pageAddr (pageAt data base)).toNat + offset < 2 ^ 64

/-- So are those of all these records, the open one included. -/
structure AllInRange (data : Bytes) (found : List (Extent UInt8)) (record : Option (Open UInt8)) :
    Prop where
  found : ∀ e ∈ found, InRange data e.base e.offset
  last : ∀ o ∈ record, InRange data o.base o.offset

section
variable {data : Bytes} {base : Nat}

theorem addLsn_givesIf (offset : Nat) :
    GivesIf (addLsn (pageAddr (pageAt data base)) offset) (InRange data base offset)
      (lsnAt data base offset) :=
  ((GivesIf.fit (2 ^ 64) ((pageAddr (pageAt data base)).toNat + offset)).map
    fun _ => lsnAt data base offset).congr ⟨fun h => ⟨h⟩, fun h => h.lt⟩

theorem readPageRecords_round (hpage : base + pageSize ≤ data.length) (offset : Nat)
    (hoffset : offset ≤ 2 ^ 33) (st : ReadState) (hpending : st.pending = []) :
    readPageRecords (pageAt data base) (pageAddr (pageAt data base)) offset st =
      if offset + walFormat.minLen ≤ walFormat.pageSize then
        if walFormat.lenOf ((pageAt data base).drop offset) < walFormat.minLen then .ok st
        else if walFormat.pageSize < offset + walFormat.lenOf ((pageAt data base).drop offset) then
          addLsn (pageAddr (pageAt data base)) offset >>= fun lsnValue =>
            .ok { st with
              pending := (pageAt data base).drop offset
              pendingLen := walFormat.lenOf ((pageAt data base).drop offset)
              pendingLsn := lsnValue }
        else
          addLsn (pageAddr (pageAt data base)) offset >>= fun lsnValue =>
            readPageRecords (pageAt data base) (pageAddr (pageAt data base))
              (offset + walFormat.align (walFormat.lenOf ((pageAt data base).drop offset)))
              { st with
                events := st.events ++ [Collector.parseRecordBytes (((pageAt data base).drop
                  offset).take (walFormat.lenOf ((pageAt data base).drop offset)))
                    lsnValue "wal-file"] }
      else .ok st := by
  have hlength := pageAt_length hpage
  have hsize : pageSize = 8192 := rfl
  have hbound : usizeBound = 2 ^ 64 := rfl
  have hmin : walFormat.minLen = 24 := rfl
  have hpageSize : walFormat.pageSize = pageSize := rfl
  have hheader : recordHeaderSize = 24 := rfl
  have hlt : walFormat.lenOf ((pageAt data base).drop offset) < 2 ^ 32 := UInt32.toNat_lt _
  rw [readPageRecords, fit_ok (by omega), ok_bind, hheader, hmin, hpageSize]
  by_cases hroom : offset + 24 ≤ pageSize
  · rw [if_pos hroom, if_pos hroom, totalLenAt_ok hlength hroom, ok_bind]
    generalize hlen : walFormat.lenOf ((pageAt data base).drop offset) = totalLen at hlt
    have halign : align totalLen < totalLen + 8 := by
      simp only [align, recordAlign]
      omega
    rw [fit_ok (by omega), ok_bind]
    by_cases hshort : totalLen < 24
    · rw [if_pos hshort, dif_pos (.inr (.inl hshort)), if_neg (by omega)]
      rfl
    · by_cases hover : pageSize < offset + totalLen
      · rw [if_neg hshort, if_pos hover, dif_pos (.inr (.inr hover)),
          if_pos ⟨Nat.le_of_not_lt hshort, hover⟩, cut_slice (by omega) (by omega), ok_bind,
          slice_to_end hlength, hpending, List.nil_append]
        rfl
      · have hraw : slice (pageAt data base) offset (offset + totalLen) =
            ((pageAt data base).drop offset).take totalLen := by
          rw [slice, Nat.add_sub_cancel_left]
        have hrawLen : (((pageAt data base).drop offset).take totalLen).length = totalLen := by
          rw [List.length_take, List.length_drop]
          omega
        rw [if_neg hshort, if_neg hover, dif_neg (by omega), cut_slice (by omega) (by omega),
          hraw]
        refine bind_congr fun lsnValue => ?_
        rw [ok_bind, parseRecordBytes_ok (by omega) (by omega), ok_bind,
          fit_ok (by simp only [recordAlign]; omega), ok_bind, fit_ok (by omega), ok_bind]
        rfl
  · rw [if_neg hroom, if_neg hroom]
    rfl

theorem readPageRecords_givesIf (hpage : base + pageSize ≤ data.length) (offset : Nat)
    (hoffset : offset ≤ 2 ^ 33) (st : ReadState) (hpending : st.pending = []) :
    GivesIf (readPageRecords (pageAt data base) (pageAddr (pageAt data base)) offset st)
      (AllInRange data (walFormat.scanFrom (segmentPage data base) offset).1
        (walFormat.scanFrom (segmentPage data base) offset).2)
      (Collector.readPageRecords (pageAt data base) (pageAddr (pageAt data base)) offset st) := by
  have hbytes : (segmentPage data base).bytes = pageAt data base := rfl
  have hlt (offset : Nat) : walFormat.lenOf ((pageAt data base).drop offset) < 2 ^ 32 :=
    UInt32.toNat_lt _
  induction offset using Format.scanFrom.induct walFormat (segmentPage data base)
      generalizing st with
  | case1 offset hroom hshort =>
    rw [scanFrom_short hroom hshort]
    rw [hbytes] at hshort
    rw [readPageRecords_round hpage offset hoffset st hpending,
      Collector.readPageRecords_round hpage offset st hpending, if_pos hroom, if_pos hroom,
      if_pos hshort, if_pos hshort]
    exact .ok _ ⟨by simp, by simp⟩
  | case2 offset hroom hshort hover =>
    rw [scanFrom_over hroom hshort hover]
    rw [hbytes] at hshort hover
    rw [readPageRecords_round hpage offset hoffset st hpending,
      Collector.readPageRecords_round hpage offset st hpending, if_pos hroom, if_pos hroom,
      if_neg hshort, if_neg hshort, if_pos hover, if_pos hover]
    refine ((addLsn_givesIf offset).map _).congr ⟨fun h => ⟨by simp, ?_⟩, fun h => h.last _ rfl⟩
    rintro o ⟨⟩
    exact h
  | case3 offset hroom hshort hover ih =>
    rw [scanFrom_found hroom hshort hover]
    rw [hbytes] at hshort hover ih ⊢
    rw [readPageRecords_round hpage offset hoffset st hpending,
      Collector.readPageRecords_round hpage offset st hpending, if_pos hroom, if_pos hroom,
      if_neg hshort, if_neg hshort, if_neg hover, if_neg hover]
    have hnext : offset + walFormat.align (walFormat.lenOf ((pageAt data base).drop offset)) ≤
        2 ^ 33 := by
      have hsize : walFormat.pageSize = 8192 := rfl
      have halign := walFormat.align_lt (walFormat.lenOf ((pageAt data base).drop offset))
      have hmin : walFormat.minLen = 24 := rfl
      omega
    refine ((addLsn_givesIf offset).bind fun _ => ih hnext _ (by exact hpending)).congr ⟨?_, ?_⟩
    · rintro ⟨hfits, hrest⟩
      refine ⟨?_, hrest.last⟩
      rintro e (_ | ⟨_, he⟩)
      · exact hfits
      · exact hrest.found e he
    · rintro ⟨hfound, hlast⟩
      exact ⟨hfound _ List.mem_cons_self, fun e he => hfound e (List.mem_cons_of_mem _ he), hlast⟩
  | case4 offset hroom =>
    rw [scanFrom_past hroom, readPageRecords_round hpage offset hoffset st hpending,
      Collector.readPageRecords_round hpage offset st hpending, if_neg hroom, if_neg hroom]
    exact .ok _ ⟨by simp, by simp⟩

theorem readPage_givesIf (hpage : base + pageSize ≤ data.length) (st : ReadState)
    (record : Option (Open UInt8)) (hpends : Pends data st record)
    (hstarted : ∀ o ∈ record, Started walFormat o)
    (hrange : ∀ o ∈ record, InRange data o.base o.offset) :
    GivesIf (readPage (pageAt data base) base st)
      (AllInRange data (walFormat.scanPage (segmentPage data base) record).1
        (walFormat.scanPage (segmentPage data base) record).2)
      (Collector.readPage (pageAt data base) base st) := by
  have hlength := pageAt_length hpage
  have hsize : pageSize = 8192 := rfl
  have hbound : usizeBound = 2 ^ 64 := rfl
  have hheader : headerSize base ≤ 36 := by
    rw [headerSize]
    split <;> decide
  have hlong : ¬ (pageAt data base).length < headerSize base := by omega
  have hrem : remLen (pageAt data base) < 2 ^ 32 := UInt32.toNat_lt _
  unfold readPage Collector.readPage
  rw [if_neg hlong, if_neg hlong, ← bind_assoc, cut_readBE64 (by omega) (by omega), ok_bind,
    ← bind_assoc, cut_readBE32 (by omega) (by omega), ok_bind]
  cases record with
  | none =>
    have hpending : st.pending = [] := hpends
    have hnone : ¬ st.pending ≠ [] := by simp [hpending]
    rw [if_neg hnone, if_neg hnone, Format.scanPage]
    have hstart : (segmentPage data base).start = searchStart (pageAt data base) base := rfl
    rw [hstart, searchStart]
    have hremLen : (Wal.readBE32 (slice (pageAt data base) 16 20)).toNat =
        remLen (pageAt data base) := rfl
    rw [hremLen]
    by_cases hsome : base > 0 ∧ remLen (pageAt data base) > 0
    · rw [if_pos hsome, if_pos hsome, if_pos hsome.1, sub_ok (by omega), ok_bind]
      by_cases hfull : remLen (pageAt data base) ≥ pageSize - headerSize base
      · rw [if_pos hfull, if_pos hfull, scanFrom_pageEnd _ (by omega)]
        exact .ok _ ⟨by simp, by simp⟩
      · rw [if_neg hfull, if_neg hfull, fit_ok (by omega), ok_bind]
        exact readPageRecords_givesIf hpage _ (by omega) st hpending
    · rw [if_neg hsome, if_neg hsome]
      have hzero : (if base > 0 then headerSize base + remLen (pageAt data base)
          else headerSize base) = headerSize base := by
        split <;> omega
      rw [hzero]
      exact readPageRecords_givesIf hpage _ (by omega) st hpending
  | some o =>
    obtain ⟨hraw, hne, hneed, hlsn⟩ := hpends
    obtain ⟨hmin, hclaim, hlacks⟩ := hstarted o rfl
    have hin := hrange o rfl
    have hmax : o.need < 2 ^ 32 := by
      rw [← hclaim]
      exact UInt32.toNat_lt _
    have hmin : 24 ≤ o.raw.length := hmin
    have hextend : o.raw ++ slice (pageAt data base) (headerSize base) (headerSize base +
        min (o.need - o.raw.length) (pageSize - headerSize base)) =
        o.extend (segmentPage data base) := by
      rw [slice, Nat.add_sub_cancel_left, ← hlength, ← List.length_drop, ← List.take_eq_take_min]
      rfl
    have hne' : st.pending ≠ [] := hraw ▸ hne
    rw [if_pos hne', if_pos hne', sub_ok (by omega), ok_bind, hraw, hneed, sub_ok (by omega),
      ok_bind]
    dsimp only
    rw [fit_ok (by omega), ok_bind, cut_slice (by omega) (by omega), ok_bind, hextend,
      Format.scanPage]
    by_cases hlen : (o.extend (segmentPage data base)).length = o.need
    · have hheaderSize : recordHeaderSize = 24 := rfl
      have hfit : o.need - o.raw.length ≤ pageSize - headerSize base := by
        rw [Open.extend] at hlen
        simp only [segmentPage, List.length_append, List.length_take, List.length_drop,
          hlength] at hlen
        omega
      simp only [if_pos hlen]
      rw [parseRecordBytes_ok (by omega) (by omega), ok_bind, Nat.min_eq_left hfit]
      refine (readPageRecords_givesIf hpage _ (by omega) _ rfl).congr ⟨fun h => ⟨?_, h.last⟩,
        fun h => ⟨fun e he => h.found e (List.mem_cons_of_mem _ he), h.last⟩⟩
      rintro e (_ | ⟨_, he⟩)
      · exact hin
      · exact h.found e he
    · simp only [if_neg hlen]
      refine .ok _ ⟨by simp, ?_⟩
      rintro o' ⟨⟩
      exact hin

variable (data) in
theorem allInRange_append (found : List (Extent UInt8)) (record : Option (Open UInt8))
    (pages : List (Page UInt8)) :
    AllInRange data found record ∧ AllInRange data (walFormat.scan pages record)
        (Format.leftOpen walFormat pages record) ↔
      AllInRange data (found ++ walFormat.scan pages record)
        (Format.leftOpen walFormat pages record) := by
  constructor
  · rintro ⟨hpage, hrest⟩
    refine ⟨fun e he => ?_, hrest.last⟩
    rcases List.mem_append.mp he with he | he
    · exact hpage.found e he
    · exact hrest.found e he
  · rintro ⟨hfound, hlast⟩
    refine ⟨⟨fun e he => hfound e (List.mem_append_left _ he), ?_⟩,
      fun e he => hfound e (List.mem_append_right _ he), hlast⟩
    rintro o rfl
    rcases open_kept pages o with ⟨e, he, hbase, hoffset⟩ | ⟨o', ho', hbase, hoffset⟩
    · rw [← hbase, ← hoffset]
      exact hfound e (List.mem_append_right _ he)
    · rw [← hbase, ← hoffset]
      exact hlast o' ho'

variable (data) in
/-- The page loop from any page on computes what the plain one computes unless the address of
a record begun on these pages does not fit. -/
theorem readPages_givesIf (hdata : data.length < 2 ^ 63) {n i s : Nat}
    (hn : i + n = data.length / pageSize) (hs : s = i * pageSize) (st : ReadState)
    (record : Option (Open UInt8)) (hpends : Pends data st record)
    (hstarted : ∀ o ∈ record, Started walFormat o)
    (hrange : ∀ o ∈ record, InRange data o.base o.offset) :
    GivesIf (readPages data s st)
      (AllInRange data
        (walFormat.scan (((List.range' i n).map (· * pageSize)).map (segmentPage data)) record)
        (Format.leftOpen walFormat
          (((List.range' i n).map (· * pageSize)).map (segmentPage data)) record))
      (((List.range' i n).map (· * pageSize)).foldl
        (fun st s => Collector.readPage (pageAt data s) s st) st) := by
  have hsize : pageSize = 8192 := rfl
  have hbound : usizeBound = 2 ^ 64 := rfl
  induction n generalizing i s st record with
  | zero =>
    have hend : s + pageSize > data.length := by
      rw [hsize] at hn hs ⊢
      omega
    have hdone : readPages data s st = .ok st := by
      unfold readPages
      by_cases hlt : s < data.length
      · rw [if_pos hlt, fit_ok (by omega), ok_bind, if_pos hend]
        rfl
      · rw [if_neg hlt]
        rfl
    rw [hdone]
    exact .ok st ⟨by simp [Format.scan], hrange⟩
  | succ n ih =>
    have hfits : s + pageSize ≤ data.length := by
      rw [hsize] at hn hs ⊢
      omega
    have hcut : cut data s (s + pageSize) = .ok (pageAt data s) := cut_slice (by omega) hfits
    have hlt : s < data.length := by omega
    have hfull : ¬ s + pageSize > data.length := by omega
    unfold readPages
    rw [if_pos hlt, fit_ok (by omega), ok_bind, if_neg hfull, hcut, ok_bind, List.range'_succ]
    simp only [List.map_cons, List.foldl_cons, ← hs, scan_cons, Format.leftOpen]
    have hnext : s + pageSize = (i + 1) * pageSize := by rw [hs, Nat.succ_mul]
    have hpends' := (readPage_scanPage hfits st record hpends).pends
    have hstarted' := (@scanPage_sized _ walFormat (segmentPage data s)
      (pageAt_length hfits) _ hstarted).2
    exact ((readPage_givesIf hfits st record hpends hstarted hrange).bind fun hpage =>
      ih (by omega) hnext _ _ hpends' hstarted' hpage.last).congr (allInRange_append data _ _ _)

end

/-- Every record header met in the file, of a record that ends in it or runs past its last
page, lies at an offset that can be added to its page's address. -/
def Addressable (data : Bytes) : Prop :=
  AllInRange data (segmentExtents data)
    (Format.leftOpen walFormat ((pageStarts data).map (segmentPage data)) none)

theorem readRecords_givesIf (file : FileContent) :
    GivesIf (readRecords file) (Addressable file.bytes)
      ((segmentExtents file.bytes).map (emit file.bytes)) := by
  have hpages := readPages_givesIf file.bytes file.fits (n := file.bytes.length / pageSize)
    (i := 0) (s := 0) (by omega) (by omega) ⟨[], [], 0, 0⟩ none rfl (by simp) (by simp)
  have hevents := foldl_readPage file.bytes (pageStarts file.bytes)
    (fun s hs => (mem_pageStarts hs).1) ⟨[], [], 0, 0⟩ none rfl
  have hstarts : (List.range' 0 (file.bytes.length / pageSize)).map (· * pageSize) =
      pageStarts file.bytes := by rw [pageStarts, List.range_eq_range']
  rw [hstarts] at hpages
  rw [List.nil_append] at hevents
  have := hpages.map ReadState.events
  rw [hevents] at this
  exact this

/-- The reader ends without a fault exactly on the files whose records all have an address,
and then returns the records found; on every other file a sum overflows. -/
theorem readRecords_safe_iff (file : FileContent) :
    ((∃ events, readRecords file = .ok events) ↔ Addressable file.bytes) ∧
      (Addressable file.bytes →
        readRecords file = .ok ((segmentExtents file.bytes).map (emit file.bytes))) ∧
      (¬ Addressable file.bytes → readRecords file = .error .overflow) :=
  ⟨(readRecords_givesIf file).exists_iff, (readRecords_givesIf file).gives,
    (readRecords_givesIf file).overflows⟩

/-- One page whose address field is all ones, with one record of 24 bytes on it. -/
def overflowSegment : FileContent where
  bytes := List.replicate 8 0 ++ List.replicate 8 0xFF ++ List.replicate 20 0 ++ [24, 0, 0, 0] ++
    List.replicate 8152 0
  fits := by
    simp only [List.length_append, List.length_replicate, List.length_cons, List.length_nil]
    omega

theorem overflowSegment_not_addressable : ¬ Addressable overflowSegment.bytes := by
  intro h
  have hlength : overflowSegment.bytes.length = 1 * pageSize := by
    simp only [overflowSegment, List.length_append, List.length_replicate, List.length_cons,
      List.length_nil, pageSize]
  have hstarts : pageStarts overflowSegment.bytes = [0] := by
    rw [pageStarts_of_length hlength]
    rfl
  have hlen : walFormat.lenOf ((segmentPage overflowSegment.bytes 0).bytes.drop 36) = 24 := by
    decide +kernel
  have hfound : (walFormat.scanFrom (segmentPage overflowSegment.bytes 0) 36).1 ≠ [] := by
    rw [scanFrom_found (by decide) (by rw [hlen]; decide) (by rw [hlen]; decide)]
    simp
  obtain ⟨e, he⟩ := List.exists_mem_of_ne_nil _ hfound
  obtain ⟨hbase, hoffset, -⟩ := (scanFrom_offsets walFormat _ 36).1 e he
  have hmem : e ∈ segmentExtents overflowSegment.bytes := by
    rw [segmentExtents, hstarts, List.map_singleton, scan_cons]
    exact List.mem_append_left _ he
  have haddr : (pageAddr (pageAt overflowSegment.bytes 0)).toNat = 2 ^ 64 - 1 := by decide +kernel
  have hlt := (h.found e hmem).lt
  have hzero : (segmentPage overflowSegment.bytes 0).base = 0 := rfl
  rw [hbase, hzero, haddr] at hlt
  omega

/-- The sum of the page's address and the record's offset overflows. -/
theorem overflowSegment_panics :
    ¬ ∃ events, readRecords overflowSegment = .ok events := by
  rw [(readRecords_givesIf overflowSegment).exists_iff]
  exact overflowSegment_not_addressable

end LearnPg.Collector.Checked
