import LearnPg.Wal.Reader
import LearnPg.Basis.RecordScan

/-! The backend's page loop is the paged scan: it builds one record for each
extent the scan assembles, in that order. A start offset only moves the place
where the search on a page begins; a limit only cuts the list off. -/
namespace LearnPg.Wal
open LearnPg.Basis.RecordScan

/-- The layout both readers look for: 24-byte headers that begin with the total
length, records padded to eight bytes, pages of 8192 bytes. -/
def walFormat : Format UInt8 where
  pageSize := pageSize
  minLen := xlogRecordHeaderSize
  lenOf := fun bytes => (readLE32 bytes).toNat
  align := alignRecordLength
  minLen_pos := by decide
  le_align := by
    intro n
    simp only [alignRecordLength, walRecordAlign]
    omega
  align_lt := by
    intro n
    simp only [alignRecordLength, walRecordAlign, xlogRecordHeaderSize]
    omega
  lenOf_take := by
    intro bytes
    rw [readLE32_take (by decide)]

/-- A page of the file. A start offset on it moves the search for records there. -/
def segmentPage (data : Bytes) (startOffset pageStart : Nat) : Page UInt8 where
  base := pageStart
  header := headerSize pageStart
  start := max (headerSize pageStart) (startOffset - pageStart)
  bytes := pageAt data pageStart

def ValidPage (page : Page UInt8) : Prop := readLE16 (slice page.bytes 0 2) = pageMagic

instance (page : Page UInt8) : Decidable (ValidPage page) :=
  inferInstanceAs (Decidable (_ = _))

def pageStarts (data : Bytes) : List Nat :=
  (List.range (data.length / pageSize)).map (· * pageSize)

def segmentPages (data : Bytes) (startOffset : Nat) : List (Page UInt8) :=
  ((pageStarts data).map (segmentPage data startOffset)).filter (ValidPage ·)

/-- The records the backend finds in a segment from this file offset on. -/
def segmentExtents (data : Bytes) (startOffset : Nat) : List (Extent UInt8) :=
  walFormat.scan (segmentPages data startOffset) none

section
variable {ρ : Type} (build : Bytes → UInt64 → UInt32 → ρ) (segNum : UInt64)
  (startOffset limit : Int)

/-- `(segNum << 32) | uint64(offset)`. -/
def lsnAt (offset : Nat) : UInt64 := segNum <<< 32 ||| UInt64.ofNat offset

def emit (e : Extent UInt8) : ρ := build e.raw (lsnAt segNum e.offset) (UInt32.ofNat e.offset)

def capped (records : List ρ) : List ρ := if 0 < limit then records.take limit.toNat else records

/-- The carried state holds exactly this open record. -/
def Pends (st : ReadState ρ) : Option (Open UInt8) → Prop
  | none => st.pending = []
  | some o => st.pending = o.raw ∧ o.raw ≠ [] ∧ st.pendingLen = o.need ∧
      st.pendingLSN = lsnAt segNum o.offset ∧ st.pendingOffset = UInt32.ofNat o.offset

structure Below (st : ReadState ρ) : Prop where
  running : st.stopped = false
  room : 0 < limit → (st.records.length : Int) < limit

/-- Having had these records, the reader went on to `st`: it found these extents
and keeps this record pending, unless the limit ended everything. -/
inductive Reached (records : List ρ) (st : ReadState ρ) (found : List (Extent UInt8))
    (record : Option (Open UInt8)) : Prop where
  | goesOn (below : Below limit st)
      (all : st.records = records ++ found.map (emit build segNum))
      (pends : Pends segNum st record)
  | limited (stopped : st.stopped = true) (positive : 0 < limit)
      (enough : limit ≤ (records ++ found.map (emit build segNum)).length)
      (first : st.records = (records ++ found.map (emit build segNum)).take limit.toNat)

variable {build segNum startOffset limit}

theorem Reached.cons {records : List ρ} {st : ReadState ρ} {e : Extent UInt8}
    {found : List (Extent UInt8)} {record : Option (Open UInt8)}
    (h : Reached build segNum limit (records ++ [emit build segNum e]) st found record) :
    Reached build segNum limit records st (e :: found) record := by
  have happend : records ++ [emit build segNum e] ++ found.map (emit build segNum) =
      records ++ (e :: found).map (emit build segNum) := by simp
  cases h with
  | goesOn below all pends => exact .goesOn below (all.trans happend) pends
  | limited stopped positive enough first =>
    exact .limited stopped positive (happend ▸ enough) (happend ▸ first)

/-- The record that fills the limit is the last one. -/
theorem Reached.full {records : List ρ} {st : ReadState ρ} {e : Extent UInt8}
    (stopped : st.stopped = true) (positive : 0 < limit) (room : (records.length : Int) < limit)
    (enough : limit ≤ (records ++ [emit build segNum e]).length)
    (all : st.records = records ++ [emit build segNum e])
    (found : List (Extent UInt8)) (record : Option (Open UInt8)) :
    Reached build segNum limit records st (e :: found) record := by
  have hlimit : limit.toNat = (records ++ [emit build segNum e]).length := by
    rw [List.length_append, List.length_singleton] at *
    omega
  have happend : records ++ (e :: found).map (emit build segNum) =
      records ++ [emit build segNum e] ++ found.map (emit build segNum) := by simp
  refine .limited stopped positive ?_ ?_
  · rw [happend, List.length_append]
    omega
  · rw [happend, hlimit, List.take_left, all]

theorem append_stopped {st : ReadState ρ} {record : ρ}
    (h : (st.append limit record).stopped = true) :
    0 < limit ∧ limit ≤ (st.records ++ [record]).length := by
  simpa [ReadState.append] using h

theorem append_below {st : ReadState ρ} {record : ρ}
    (h : ¬ (st.append limit record).stopped = true) : Below limit (st.append limit record) := by
  refine ⟨by simpa using h, fun hlimit => ?_⟩
  simp only [ReadState.append, decide_eq_true_eq, not_and] at h ⊢
  have := h hlimit
  omega

theorem recLenAt_eq (page : Bytes) (offset : Nat) :
    recLenAt page offset = walFormat.lenOf (page.drop offset) := by
  rw [recLenAt, readLE32_slice]
  rfl

theorem slice_to_end {page : Bytes} (hpage : page.length = pageSize) (offset : Nat) :
    slice page offset pageSize = page.drop offset := by
  rw [slice, ← hpage]
  exact List.take_of_length_le (by simp)

theorem readPageRecords_round (page : Page UInt8) (hpage : page.bytes.length = pageSize)
    (offset : Nat) (hoffset : startOffset ≤ (page.base + offset : Nat)) (st : ReadState ρ) :
    readPageRecords build segNum startOffset limit page.bytes page.base offset st =
      if offset + walFormat.minLen ≤ walFormat.pageSize then
        if walFormat.lenOf (page.bytes.drop offset) < walFormat.minLen then st
        else if walFormat.pageSize < offset + walFormat.lenOf (page.bytes.drop offset) then
          { st with
            pending := page.bytes.drop offset
            pendingLen := walFormat.lenOf (page.bytes.drop offset)
            pendingLSN := lsnAt segNum offset
            pendingOffset := UInt32.ofNat offset }
        else
          let st := st.append limit (emit build segNum ⟨page.base, offset,
            (page.bytes.drop offset).take (walFormat.lenOf (page.bytes.drop offset))⟩)
          if st.stopped then st
          else readPageRecords build segNum startOffset limit page.bytes page.base
            (offset + walFormat.align (walFormat.lenOf (page.bytes.drop offset))) st
      else st := by
  have hlen : recLenAt page.bytes offset = walFormat.lenOf (page.bytes.drop offset) :=
    recLenAt_eq page.bytes offset
  have hbehind : ¬ (startOffset > 0 ∧ ((page.base + offset : Nat) : Int) < startOffset) := by
    omega
  rw [readPageRecords]
  show (if offset + walFormat.minLen ≤ walFormat.pageSize then _ else _) = _
  by_cases hroom : offset + walFormat.minLen ≤ walFormat.pageSize
  · rw [if_pos hroom, if_pos hroom, if_neg hbehind, hlen]
    by_cases hshort : walFormat.lenOf (page.bytes.drop offset) < walFormat.minLen
    · rw [if_pos hshort]
      split
      · rfl
      · exact if_pos hshort
    · have hpos : ¬ walFormat.lenOf (page.bytes.drop offset) = 0 := by
        have := walFormat.minLen_pos
        omega
      rw [if_neg hshort, if_neg hpos]
      refine (dif_neg hshort).trans ?_
      show (if walFormat.pageSize < _ then _ else _) = _
      by_cases hover : walFormat.pageSize < offset + walFormat.lenOf (page.bytes.drop offset)
      · rw [if_pos hover, if_pos hover, slice_to_end hpage]
        rfl
      · rw [if_neg hover, if_neg hover, slice, Nat.add_sub_cancel_left]
        rfl
  · rw [if_neg hroom, if_neg hroom]

theorem readPageRecords_skip (page : Bytes) (pageStart offset : Nat) (st : ReadState ρ) :
    readPageRecords build segNum startOffset limit page pageStart offset st =
      readPageRecords build segNum startOffset limit page pageStart
        (max offset (startOffset.toNat - pageStart)) st := by
  obtain ⟨k, hk⟩ : ∃ k, startOffset.toNat - pageStart - offset = k := ⟨_, rfl⟩
  induction k generalizing offset with
  | zero => rw [Nat.max_eq_left (by omega)]
  | succ k ih =>
    have hmax : max offset (startOffset.toNat - pageStart) =
        max (offset + 1) (startOffset.toNat - pageStart) := by omega
    by_cases hroom : offset + xlogRecordHeaderSize ≤ pageSize
    · rw [hmax, ← ih (offset + 1) (by omega), readPageRecords, if_pos hroom, if_pos (by omega)]
    · rw [readPageRecords, if_neg hroom, readPageRecords, if_neg (by omega)]

theorem readPageRecords_reached (page : Page UInt8) (hpage : page.bytes.length = pageSize)
    (offset : Nat) (hoffset : startOffset ≤ (page.base + offset : Nat)) (st : ReadState ρ)
    (hpending : st.pending = []) (hbelow : Below limit st) :
    Reached build segNum limit st.records
      (readPageRecords build segNum startOffset limit page.bytes page.base offset st)
      (walFormat.scanFrom page offset).1 (walFormat.scanFrom page offset).2 := by
  induction offset using Format.scanFrom.induct walFormat page generalizing st with
  | case1 offset hroom hshort =>
    rw [scanFrom_short hroom hshort, readPageRecords_round page hpage _ hoffset,
      if_pos hroom, if_pos hshort]
    exact .goesOn hbelow (by simp) hpending
  | case2 offset hroom hshort hover =>
    rw [scanFrom_over hroom hshort hover,
      readPageRecords_round page hpage _ hoffset, if_pos hroom, if_neg hshort, if_pos hover]
    have hlt : offset < page.bytes.length := by
      have hroom' : offset + 24 ≤ 8192 := hroom
      have hpage' : page.bytes.length = 8192 := hpage
      omega
    have hne : page.bytes.drop offset ≠ [] := by
      rw [ne_eq, List.drop_eq_nil_iff]
      omega
    exact .goesOn ⟨hbelow.running, hbelow.room⟩ (by simp) ⟨rfl, hne, rfl, rfl, rfl⟩
  | case3 offset hroom hshort hover ih =>
    rw [scanFrom_found hroom hshort hover,
      readPageRecords_round page hpage _ hoffset, if_pos hroom, if_neg hshort, if_neg hover]
    have hle := walFormat.le_align (walFormat.lenOf (page.bytes.drop offset))
    by_cases hstop : (st.append limit (emit build segNum ⟨page.base, offset,
        (page.bytes.drop offset).take (walFormat.lenOf (page.bytes.drop offset))⟩)).stopped = true
    · simp only [if_pos hstop]
      obtain ⟨hlimit, hfull⟩ := append_stopped hstop
      exact .full hstop hlimit (hbelow.room hlimit) hfull rfl _ _
    · simp only [if_neg hstop]
      have hnext := ih (by omega) (st.append limit (emit build segNum ⟨page.base, offset,
        (page.bytes.drop offset).take (walFormat.lenOf (page.bytes.drop offset))⟩)) hpending
        (append_below hstop)
      exact .cons hnext
  | case4 offset hroom =>
    rw [scanFrom_past hroom, readPageRecords_round page hpage _ hoffset, if_neg hroom]
    exact .goesOn hbelow (by simp) hpending

theorem readPage_invalid (page : Page UInt8) (hpage : page.bytes.length = pageSize)
    (hinvalid : ¬ ValidPage page) (st : ReadState ρ) (hrun : st.stopped = false) :
    readPage build segNum startOffset limit page.bytes page.base st = st := by
  have hheader : ¬ page.bytes.length < headerSize page.base := by
    rw [hpage, headerSize]
    split <;> decide
  rw [readPage, if_neg (by simp [hrun]), if_neg hheader]
  exact if_pos hinvalid

structure IsSegmentPage (startOffset : Int) (page : Page UInt8) : Prop where
  length_bytes : page.bytes.length = pageSize
  header : page.header = headerSize page.base
  start : page.start = max (headerSize page.base) (startOffset.toNat - page.base)

variable (build) in
theorem readPage_reached (page : Page UInt8) (hpage : IsSegmentPage startOffset page)
    (hvalid : ValidPage page) (st : ReadState ρ) (record : Option (Open UInt8))
    (hpast : record.isSome → startOffset.toNat ≤ page.base)
    (hpends : Pends segNum st record) (hbelow : Below limit st) :
    ∃ found record', Reached build segNum limit st.records
        (readPage build segNum startOffset limit page.bytes page.base st) found record' ∧
      (record'.isSome → startOffset.toNat ≤ page.base + pageSize) ∧
      ∀ rest, walFormat.scan (page :: rest) record = found ++ walFormat.scan rest record' := by
  obtain ⟨hlength, hheader, hstart⟩ := hpage
  have hsize : headerSize page.base ≤ pageSize := by
    rw [headerSize]
    split <;> decide
  have hmagic : ¬ readLE16 (slice page.bytes 0 2) ≠ pageMagic := not_not.mpr hvalid
  have hopen (offset : Nat) (hoffset : startOffset ≤ (page.base + offset : Nat))
      (h : (walFormat.scanFrom page offset).2.isSome) :
      startOffset.toNat ≤ page.base + pageSize := by
    obtain ⟨o, ho⟩ := Option.isSome_iff_exists.mp h
    obtain ⟨-, hle, hfit, -⟩ := (scanFrom_offsets walFormat page offset).2.1 o ho
    have : o.offset + 24 ≤ pageSize := hfit
    omega
  rw [readPage, if_neg (by simp [hbelow.running]), if_neg (by omega), if_neg hmagic]
  cases record with
  | none =>
    have hpending : st.pending = [] := hpends
    have hoffset : startOffset ≤ (page.base + page.start : Nat) := by omega
    refine ⟨_, _, ?_, hopen page.start hoffset, fun rest => by rw [Format.scan]⟩
    simp only [hpending, List.length_nil, gt_iff_lt, Nat.lt_irrefl, if_false]
    rw [readPageRecords_skip, ← hstart]
    exact readPageRecords_reached page hlength _ hoffset st hpending hbelow
  | some o =>
    obtain ⟨hraw, hne, hneed, hlsn, hoffset⟩ := hpends
    have hbase := hpast rfl
    have htake (need : Nat) : slice page.bytes (headerSize page.base) (headerSize page.base +
        (if need > pageSize - headerSize page.base then pageSize - headerSize page.base
          else need)) = (page.bytes.drop page.header).take need := by
      rw [slice, Nat.add_sub_cancel_left, hheader]
      split
      · rw [List.take_of_length_le (by simp; omega), List.take_of_length_le (by simp; omega)]
      · rfl
    have hextend : o.raw ++ (page.bytes.drop page.header).take (o.need - o.raw.length) =
        o.extend page := rfl
    have hpos : o.raw.length > 0 := List.length_pos_of_ne_nil hne
    simp only [hraw, hneed, if_pos hpos, htake, hextend]
    by_cases hlen : (o.extend page).length = o.need
    · rw [if_pos hlen]
      have hfit : o.need - o.raw.length ≤ pageSize - headerSize page.base := by
        rw [Open.extend] at hlen
        simp at hlen
        omega
      rw [if_neg (by omega : ¬ o.need - o.raw.length > pageSize - headerSize page.base)]
      refine ⟨⟨o.base, o.offset, o.extend page⟩ ::
          (walFormat.scanFrom page (headerSize page.base + (o.need - o.raw.length))).1,
        (walFormat.scanFrom page (headerSize page.base + (o.need - o.raw.length))).2,
        ?_, hopen _ (by omega), fun rest => ?_⟩
      · have hemit : build (o.extend page) st.pendingLSN st.pendingOffset =
            emit build segNum ⟨o.base, o.offset, o.extend page⟩ := by rw [hlsn, hoffset, emit]
        rw [hemit]
        by_cases hstop : (st.append limit
            (emit build segNum ⟨o.base, o.offset, o.extend page⟩)).stopped = true
        · rw [if_pos hstop]
          obtain ⟨hlimit, hfull⟩ := append_stopped hstop
          refine .full ?_ hlimit (hbelow.room hlimit) hfull rfl _ _
          exact hstop
        · rw [if_neg hstop]
          have hbelow' := append_below hstop
          exact .cons (readPageRecords_reached page hlength _ (by omega)
            { st.append limit (emit build segNum ⟨o.base, o.offset, o.extend page⟩) with
              pending := [], pendingLen := 0 } rfl ⟨hbelow'.running, hbelow'.room⟩)
      · rw [Format.scan]
        simp only [if_pos hlen, hheader, List.cons_append]
    · rw [if_neg hlen]
      refine ⟨[], some { o with raw := o.extend page }, .goesOn ⟨hbelow.running, hbelow.room⟩
        (by simp) ⟨rfl, ?_, rfl, hlsn, hoffset⟩, fun _ => by omega, fun rest => ?_⟩
      · simp [Open.extend, hne]
      · rw [Format.scan]
        simp only [if_neg hlen, List.nil_append]

theorem pageAt_length {data : Bytes} {pageStart : Nat} (h : pageStart + pageSize ≤ data.length) :
    (pageAt data pageStart).length = pageSize := by
  simp only [pageAt, slice_length]
  omega

theorem foldl_readPage_stopped (data : Bytes) (starts : List Nat) (st : ReadState ρ)
    (h : st.stopped = true) :
    starts.foldl (fun st s => readPage build segNum startOffset limit (pageAt data s) s st) st =
      st := by
  induction starts with
  | nil => rfl
  | cons s starts ih =>
    rw [List.foldl_cons, readPage, if_pos h]
    exact ih

theorem capped_below {st : ReadState ρ} (h : Below limit st) :
    capped limit st.records = st.records := by
  unfold capped
  split
  · have := h.room ‹_›
    exact List.take_of_length_le (by omega)
  · rfl

variable (build segNum startOffset) in
theorem foldl_readPage (data : Bytes) (starts : List Nat)
    (hstarts : ∀ s ∈ starts, s + pageSize ≤ data.length)
    (hsorted : starts.Pairwise (fun s t => s + pageSize ≤ t)) (st : ReadState ρ)
    (record : Option (Open UInt8))
    (hpast : record.isSome → ∀ s ∈ starts, startOffset.toNat ≤ s)
    (hpends : Pends segNum st record) (hbelow : Below limit st) :
    (starts.foldl (fun st s => readPage build segNum startOffset limit (pageAt data s) s st)
      st).records =
      capped limit (st.records ++ (walFormat.scan
        ((starts.map (segmentPage data startOffset.toNat)).filter (ValidPage ·))
        record).map (emit build segNum)) := by
  induction starts generalizing st record with
  | nil => cases record <;> simp [Format.scan, capped_below hbelow]
  | cons s starts ih =>
    obtain ⟨hnext, hrest⟩ := List.pairwise_cons.mp hsorted
    replace ih := ih (fun t ht => hstarts t (List.mem_cons_of_mem s ht)) hrest
    have hpage : IsSegmentPage startOffset (segmentPage data startOffset.toNat s) :=
      ⟨pageAt_length (hstarts s List.mem_cons_self), rfl, rfl⟩
    rw [List.foldl_cons, List.map_cons]
    by_cases hvalid : ValidPage (segmentPage data startOffset.toNat s)
    · obtain ⟨found, record', hreached, hopen, hscan⟩ := readPage_reached build _ hpage hvalid
        st record (fun h => hpast h s List.mem_cons_self) hpends hbelow
      rw [List.filter_cons_of_pos (by simpa using hvalid), hscan, List.map_append,
        ← List.append_assoc]
      cases hreached with
      | goesOn below all pends =>
        rw [← all]
        exact ih _ _ (fun h t ht => (hopen h).trans (hnext t ht)) pends below
      | limited stopped positive enough first =>
        refine (congrArg ReadState.records (foldl_readPage_stopped data starts _ stopped)).trans ?_
        rw [capped, if_pos positive, List.take_append_of_le_length (by omega)]
        exact first
    · rw [List.filter_cons_of_neg (by simpa using hvalid)]
      have hskip : readPage build segNum startOffset limit (pageAt data s) s st = st :=
        readPage_invalid _ hpage.length_bytes hvalid st hbelow.running
      rw [hskip]
      exact ih st record (fun h t ht => hpast h t (List.mem_cons_of_mem s ht)) hpends hbelow

theorem mem_pageStarts {data : Bytes} {s : Nat} (h : s ∈ pageStarts data) :
    s + pageSize ≤ data.length ∧ s % pageSize = 0 := by
  obtain ⟨i, hi, rfl⟩ := List.mem_map.mp h
  rw [List.mem_range] at hi
  simp only [pageSize] at hi ⊢
  omega

theorem pageStarts_of_length {data : Bytes} {n : Nat} (h : data.length = n * pageSize) :
    pageStarts data = (List.range n).map (· * pageSize) := by
  rw [pageStarts, h, Nat.mul_div_cancel n (by decide)]

theorem pageStarts_sorted (data : Bytes) :
    (pageStarts data).Pairwise (fun s t => s + pageSize ≤ t) := by
  rw [pageStarts, List.pairwise_map]
  refine List.pairwise_lt_range.imp fun {i j} hij => ?_
  simp only [pageSize]
  omega

variable (build segNum startOffset limit) in
/-- The reader builds one record for each extent of the segment behind the start
offset, up to the limit. -/
theorem readPages_eq_scan (data : Bytes) :
    (readPages build segNum startOffset limit data).records =
      capped limit ((segmentExtents data startOffset.toNat).map (emit build segNum)) := by
  have hinit : Below limit (ReadState.init ρ) := ⟨rfl, fun h => h⟩
  have := foldl_readPage build segNum startOffset data (pageStarts data)
    (fun s hs => (mem_pageStarts hs).1) (pageStarts_sorted data) (ReadState.init ρ) none (by simp)
    rfl hinit
  rw [pageStarts, List.foldl_map] at this
  exact this

end

theorem capped_sublist {α : Type} (limit : Int) (l : List α) : (capped limit l).Sublist l := by
  unfold capped
  split
  · exact List.take_sublist _ _
  · exact List.Sublist.refl _

theorem capped_map {α β : Type} (limit : Int) (f : α → β) (l : List α) :
    capped limit (l.map f) = (capped limit l).map f := by
  unfold capped
  split
  · exact List.map_take.symm
  · rfl

theorem mem_capped {ρ : Type} {limit : Int} {records : List ρ} {r : ρ} :
    r ∈ capped limit records ↔ ∃ i : Nat, records[i]? = some r ∧ (limit ≤ 0 ∨ (i : Int) < limit) := by
  unfold capped
  split
  · rw [List.mem_iff_getElem?]
    refine exists_congr fun i => ?_
    rw [List.getElem?_take]
    split
    · exact (and_iff_left (.inr (by omega))).symm
    · refine iff_of_false (by simp) ?_
      omega
  · rw [List.mem_iff_getElem?]
    refine exists_congr fun i => (and_iff_left (.inl (by omega))).symm

theorem readRecords_eq_scan (data : Bytes) (segNum : UInt64) (startOffset limit : Int) :
    readRecords (.ok data) segNum startOffset limit =
      .ok (capped limit
        ((segmentExtents data startOffset.toNat).map (emit buildRecord segNum))) := by
  rw [← readPages_eq_scan]
  rfl

theorem readRecords_all (data : Bytes) (segNum : UInt64) :
    readRecords (.ok data) segNum 0 0 =
      .ok ((segmentExtents data 0).map (emit buildRecord segNum)) :=
  readRecords_eq_scan data segNum 0 0

/-- The extents come in the order of their file offsets. -/
theorem segmentExtents_sorted (data : Bytes) (startOffset : Nat) :
    (segmentExtents data startOffset).Pairwise (fun a b => a.position < b.position) := by
  refine scan_sorted (List.Pairwise.filter _ ?_) (by simp)
  rw [List.pairwise_map]
  exact pageStarts_sorted data

theorem segmentExtents_places (data : Bytes) (startOffset : Nat) :
    ∀ e ∈ segmentExtents data startOffset, e.base % pageSize = 0 ∧
      e.base + pageSize ≤ data.length ∧ e.offset + xlogRecordHeaderSize ≤ pageSize ∧
      slice data e.position (e.position + xlogRecordHeaderSize) =
        e.raw.take xlogRecordHeaderSize := by
  have hkept : walFormat.Kept (fun base offset raw =>
      xlogRecordHeaderSize ≤ raw.length ∧ base % pageSize = 0 ∧ base + pageSize ≤ data.length ∧
      offset + xlogRecordHeaderSize ≤ pageSize ∧
      slice data (base + offset) (base + offset + xlogRecordHeaderSize) =
        raw.take xlogRecordHeaderSize) (segmentPages data startOffset) := by
    refine ⟨?_, ?_⟩
    · intro p hp offset n hoffset hn
      obtain ⟨s, hs, rfl⟩ := List.mem_map.mp (List.mem_of_mem_filter hp)
      obtain ⟨hfit, hmod⟩ := mem_pageStarts hs
      have hoffset' : offset + xlogRecordHeaderSize ≤ pageSize := hoffset
      have hn' : xlogRecordHeaderSize ≤ n := hn
      refine ⟨?_, hmod, hfit, hoffset, ?_⟩
      · simp only [segmentPage, List.length_take, List.length_drop, pageAt_length hfit]
        omega
      · simp only [segmentPage, pageAt, slice, List.drop_take, List.take_take, List.drop_drop]
        congr 1
        omega
    · rintro base offset raw more ⟨hlen, hmod, hfit, hoffset, hslice⟩
      refine ⟨?_, hmod, hfit, hoffset, ?_⟩
      · rw [List.length_append]
        omega
      · rw [hslice, List.take_append_of_le_length hlen]
  intro e he
  exact (scan_kept hkept (by simp) e he).2

theorem segmentPages_pair {first second : Bytes} (hfirst : first.length = pageSize)
    (hsecond : second.length = pageSize) (hvalid : readLE16 (slice first 0 2) = pageMagic)
    (hvalid' : readLE16 (slice second 0 2) = pageMagic) {startOffset : Nat}
    (hoffset : startOffset ≤ pageSize) :
    segmentPages (first ++ second) startOffset =
      [⟨0, 40, max 40 startOffset, first⟩, ⟨8192, 20, 20, second⟩] := by
  have hlength : (first ++ second).length = 2 * pageSize := by
    rw [List.length_append, hfirst, hsecond]
    rfl
  have hpage : pageAt (first ++ second) 0 = first := by
    rw [pageAt, slice, List.drop_zero, List.take_append_of_le_length (by rw [hfirst]; rfl)]
    exact List.take_of_length_le (by rw [hfirst]; rfl)
  have hpage' : pageAt (first ++ second) 8192 = second := by
    rw [pageAt, slice, List.drop_left' (show first.length = 8192 from hfirst)]
    exact List.take_of_length_le (by rw [hsecond]; rfl)
  have hstarts : (pageStarts (first ++ second)).map (segmentPage (first ++ second) startOffset) =
      [⟨0, 40, max 40 startOffset, first⟩, ⟨8192, 20, 20, second⟩] := by
    rw [pageStarts_of_length hlength, show (List.range 2).map (· * pageSize) = [0, 8192] from rfl,
      List.map_cons, List.map_singleton, segmentPage, segmentPage, hpage, hpage',
      show startOffset - 8192 = 0 from Nat.sub_eq_zero_of_le hoffset]
    rfl
  rw [segmentPages, hstarts, List.filter_eq_self.mpr]
  intro p hp
  simp only [List.mem_cons, List.not_mem_nil, or_false] at hp
  rcases hp with rfl | rfl
  · exact decide_eq_true hvalid
  · exact decide_eq_true hvalid'

def recordsPage : Bytes :=
  [0x18, 0xD1] ++ List.replicate 18 0 ++ [24, 0, 0, 0] ++ List.replicate 20 0 ++ [24, 0, 0, 0] ++
    List.replicate 8144 0

/-- The record at an offset of this page, as the second of a segment. -/
def secondPageRecord (offset : Nat) : Extent UInt8 :=
  ⟨8192, offset, (recordsPage.drop offset).take 24⟩

theorem recordsPage_length : recordsPage.length = pageSize := by
  simp only [recordsPage, List.length_append, List.length_replicate, List.length_cons,
    List.length_nil, pageSize]

theorem recordsPage_scan : walFormat.scanPage ⟨8192, 20, 20, recordsPage⟩ none =
    ([secondPageRecord 20, secondPageRecord 44], none) := by
  have hlen : walFormat.lenOf (recordsPage.drop 20) = 24 := by decide
  have hlen' : walFormat.lenOf (recordsPage.drop 44) = 24 := by decide
  have hlast : walFormat.scanFrom ⟨8192, 20, 20, recordsPage⟩ 68 = ([], none) :=
    scanFrom_short (by decide) (by decide)
  have hsecond : walFormat.scanFrom ⟨8192, 20, 20, recordsPage⟩ 44 =
      ([secondPageRecord 44], none) := by
    rw [scanFrom_found (by decide) (by rw [hlen']; decide) (by rw [hlen']; decide),
      hlen', show 44 + walFormat.align 24 = 68 from rfl, hlast]
    rfl
  show walFormat.scanFrom ⟨8192, 20, 20, recordsPage⟩ 20 = _
  rw [scanFrom_found (by decide) (by rw [hlen]; decide) (by rw [hlen]; decide),
    hlen, show 20 + walFormat.align 24 = 44 from rfl, hsecond]
  rfl

end LearnPg.Wal
