import LearnPg.Basis.RecordStream
import LearnPg.Wal.Scan
import Mathlib.Data.List.Forall2

/-! Segments as the server lays them out, and what the reader makes of them. The
records are one stream; a page's header interrupts it without leaving a trace in
it. The reader pads a record by its own length, but not one that it continued
from an earlier page, and it looks for headers inside one page only. -/
namespace LearnPg.Wal
open LearnPg.Basis.RecordWalk LearnPg.Basis.RecordScan LearnPg.Basis.RecordStream

/-- The position on the record stream of page `k`'s first byte behind its header. -/
def streamPos : Nat → Nat
  | 0 => 0
  | k + 1 => (pageSize - xlogLongPageHeaderSize) + k * (pageSize - xlogPageHeaderSize)

def streamPage (t : Nat) : Nat :=
  if t < pageSize - xlogLongPageHeaderSize then 0
  else (t - (pageSize - xlogLongPageHeaderSize)) / (pageSize - xlogPageHeaderSize) + 1

theorem streamPos_pos (k : Nat) : streamPos (k + 1) = 8152 + k * 8172 := rfl

theorem streamPage_eq_div (t : Nat) :
    streamPage t = if t < 8152 then 0 else (t - 8152) / 8172 + 1 := rfl

theorem headerSize_pos (k : Nat) : headerSize ((k + 1) * pageSize) = xlogPageHeaderSize := by
  rw [headerSize, if_neg (Nat.mul_ne_zero (Nat.succ_ne_zero k) (by decide))]

theorem streamPos_succ (k : Nat) :
    streamPos (k + 1) = streamPos k + (pageSize - headerSize (k * pageSize)) := by
  cases k with
  | zero => rfl
  | succ k =>
    rw [headerSize_pos, streamPos_pos, streamPos_pos, Nat.succ_mul]
    exact (Nat.add_assoc ..).symm

theorem streamPage_le (t : Nat) : streamPos (streamPage t) ≤ t := by
  rw [streamPage_eq_div]
  split
  · exact Nat.zero_le t
  · rw [streamPos_pos]
    omega

theorem lt_streamPage_succ (t : Nat) : t < streamPos (streamPage t + 1) := by
  rw [streamPage_eq_div, streamPos_pos]
  split <;> omega

theorem streamPage_eq {t k : Nat} (hle : streamPos k ≤ t) (hlt : t < streamPos (k + 1)) :
    streamPage t = k := by
  rw [streamPos_pos] at hlt
  rw [streamPage_eq_div]
  cases k with
  | zero => rw [if_pos (by omega)]
  | succ k =>
    rw [streamPos_pos] at hle
    rw [if_neg (by omega)]
    omega

theorem streamPage_streamPos (k : Nat) : streamPage (streamPos k) = k := by
  refine streamPage_eq (Nat.le_refl _) ?_
  cases k with
  | zero => decide
  | succ k =>
    rw [streamPos_pos, streamPos_pos]
    omega

def streamGrid : Grid where
  pageEnd t := streamPos (streamPage t + 1)
  lt_pageEnd := lt_streamPage_succ
  pageEnd_eq := by
    intro t u htu hu
    rw [streamPage_eq ((streamPage_le t).trans htu) hu]

def walRules : Rules := walFormat.rules streamGrid

theorem pageEnd_streamPos (k : Nat) : streamGrid.pageEnd (streamPos k) = streamPos (k + 1) := by
  simp only [streamGrid, streamPage_streamPos]

theorem atEdge_iff (u : Nat) : streamGrid.AtEdge u ↔ u = streamPos (streamPage u) := by
  constructor
  · intro hu
    cases u with
    | zero => rfl
    | succ t =>
      have hend := hu t (Nat.lt_succ_self t)
      have hlt := streamGrid.lt_pageEnd t
      have : t + 1 = streamPos (streamPage t + 1) := Nat.le_antisymm hlt hend
      rw [this, streamPage_streamPos]
  · intro hu
    cases hk : streamPage u with
    | zero =>
      rw [hk] at hu
      intro t ht
      rw [hu] at ht
      exact absurd ht (Nat.not_lt_zero t)
    | succ k =>
      rw [hu, hk, ← pageEnd_streamPos]
      exact streamGrid.atEdge_pageEnd _

theorem room_at_edge {u : Nat} (hu : streamGrid.AtEdge u) :
    u + xlogRecordHeaderSize ≤ streamGrid.pageEnd u := by
  have hsize : headerSize (streamPage u * pageSize) ≤ xlogLongPageHeaderSize := by
    unfold headerSize
    split <;> decide
  rw [(atEdge_iff u).mp hu, pageEnd_streamPos, streamPos_succ]
  simp only [xlogLongPageHeaderSize, xlogRecordHeaderSize, pageSize] at *
  omega

/-! The file. -/

/-- The headers of a segment's pages; beyond the magic their contents are free. -/
structure PageHeaders where
  bytes : Nat → Bytes
  length_bytes : ∀ k, (bytes k).length = headerSize (k * pageSize)
  magic : ∀ k, readLE16 (slice (bytes k) 0 2) = pageMagic

def recordStream (records : List Bytes) (u : Nat) : UInt8 :=
  (records.flatMap (Format.padded walFormat 0)).getD u 0

def laidPage (headers : PageHeaders) (records : List Bytes) (k : Nat) : Bytes :=
  headers.bytes k ++
    window (recordStream records) (streamPos k) (pageSize - headerSize (k * pageSize))

def layOut (headers : PageHeaders) (records : List Bytes) (pages : Nat) : Bytes :=
  (List.range pages).flatMap (laidPage headers records)

def Fits (records : List Bytes) (pages : Nat) : Prop :=
  (records.flatMap (Format.padded walFormat 0)).length ≤ streamPos pages

variable {headers : PageHeaders} {records : List Bytes}

theorem laidPage_length (k : Nat) : (laidPage headers records k).length = pageSize := by
  have hsize : headerSize (k * pageSize) ≤ pageSize := by
    unfold headerSize
    split <;> decide
  rw [laidPage, List.length_append, headers.length_bytes, window_length]
  omega

theorem slice_flatMap {ι : Type} {f : ι → Bytes} {m : Nat} (hf : ∀ i, (f i).length = m)
    (l : List ι) (k : Nat) (hk : k < l.length) :
    slice (l.flatMap f) (k * m) (k * m + m) = f l[k] := by
  induction l generalizing k with
  | nil => simp at hk
  | cons i rest ih =>
    rw [List.flatMap_cons]
    cases k with
    | zero => simp [slice, hf]
    | succ k =>
      have hpast : (k + 1) * m = m + k * m := by
        rw [Nat.succ_mul, Nat.add_comm]
      have := ih k (by simpa using hk)
      simp only [slice, Nat.add_sub_cancel_left] at this ⊢
      rw [hpast, List.drop_append, List.drop_of_length_le (by rw [hf]; omega), hf,
        Nat.add_sub_cancel_left, List.nil_append, this]
      rfl

theorem layOut_length (pages : Nat) : (layOut headers records pages).length = pages * pageSize := by
  simp [layOut, List.length_flatMap, laidPage_length]

theorem pageAt_layOut {pages k : Nat} (hk : k < pages) :
    pageAt (layOut headers records pages) (k * pageSize) = laidPage headers records k := by
  rw [pageAt, layOut, slice_flatMap laidPage_length _ k (by simpa using hk), List.getElem_range]

theorem laidPage_drop (k : Nat) :
    (laidPage headers records k).drop (headerSize (k * pageSize)) =
      window (recordStream records) (streamPos k) (pageSize - headerSize (k * pageSize)) := by
  rw [laidPage, ← headers.length_bytes, List.drop_left]

def laidSegmentPage (headers : PageHeaders) (records : List Bytes) (k : Nat) : Page UInt8 :=
  ⟨k * pageSize, headerSize (k * pageSize), headerSize (k * pageSize), laidPage headers records k⟩

theorem laidSegmentPage_valid (k : Nat) : ValidPage (laidSegmentPage headers records k) := by
  have hlen := headers.length_bytes k
  have hsize : 2 ≤ headerSize (k * pageSize) := by
    unfold headerSize
    split <;> decide
  have : slice (laidPage headers records k) 0 2 = slice (headers.bytes k) 0 2 := by
    simp only [slice, laidPage, List.drop_zero]
    rw [List.take_append_of_le_length (by omega)]
  exact (congrArg readLE16 this).trans (headers.magic k)

theorem segmentPages_layOut (pages : Nat) :
    segmentPages (layOut headers records pages) 0 =
      (List.range pages).map (laidSegmentPage headers records) := by
  have hpages : (pageStarts (layOut headers records pages)).map
      (segmentPage (layOut headers records pages) 0) =
      (List.range pages).map (laidSegmentPage headers records) := by
    rw [pageStarts_of_length (layOut_length pages), List.map_map]
    refine List.map_congr_left fun k hk => ?_
    show segmentPage _ 0 (k * pageSize) = _
    rw [segmentPage, pageAt_layOut (List.mem_range.mp hk), Nat.zero_sub, Nat.max_zero]
    rfl
  rw [segmentPages, hpages, List.filter_eq_self]
  rintro page hpage
  obtain ⟨k, -, rfl⟩ := List.mem_map.mp hpage
  simpa using laidSegmentPage_valid k

variable (headers records) in
theorem laid_range (k n : Nat) :
    Laid walFormat streamGrid (recordStream records) (streamPos k)
      ((List.range' k n).map (laidSegmentPage headers records)) ∧
    lastEdge streamGrid (streamPos k)
      ((List.range' k n).map (laidSegmentPage headers records)) = streamPos (k + n) := by
  induction n generalizing k with
  | zero => exact ⟨trivial, rfl⟩
  | succ n ih =>
    have hsize : headerSize (k * pageSize) ≤ pageSize := by
      unfold headerSize
      split <;> decide
    have hstretch : streamGrid.pageEnd (streamPos k) - streamPos k =
        pageSize - headerSize (k * pageSize) := by
      rw [pageEnd_streamPos, streamPos_succ, Nat.add_sub_cancel_left]
    obtain ⟨hlaid, hedge⟩ := ih (k + 1)
    rw [List.range'_succ, List.map_cons]
    refine ⟨⟨rfl, ?_, ?_, ?_⟩, ?_⟩
    · rw [hstretch]
      show headerSize (k * pageSize) + _ = pageSize
      omega
    · rw [hstretch]
      exact laidPage_drop k
    · rw [pageEnd_streamPos]
      exact hlaid
    · rw [lastEdge, pageEnd_streamPos, hedge]
      congr 1
      omega

/-- What the reader assembles from a laid out file. -/
theorem segmentExtents_layOut (pages : Nat) :
    (segmentExtents (layOut headers records pages) 0).map Extent.raw =
      walFormat.walkBytes streamGrid (recordStream records) (streamPos pages) 0 := by
  obtain ⟨hlaid, hedge⟩ := laid_range headers records 0 pages
  rw [← List.range_eq_range', Nat.zero_add] at *
  rw [segmentExtents, segmentPages_layOut, ← hedge]
  exact (scan_laid hlaid).1

/-! Which streams are read back. -/

/-- Behind a record of `n` bytes at position `s` the reader comes upon the next
one: it opens a page, or its header fits on its page and the record before it
began on the same page or has a length that needs no padding. -/
def NextMet (s n : Nat) : Prop :=
  s + alignRecordLength n = streamPos (streamPage (s + alignRecordLength n)) ∨
    (s + alignRecordLength n + xlogRecordHeaderSize ≤
        streamPos (streamPage (s + alignRecordLength n) + 1) ∧
      (streamPage (s + alignRecordLength n) = streamPage s ∨ n % walRecordAlign = 0))

/-- The same for every record but the first, in a stream of records of these
lengths from position `s` on. -/
def AllMet (s : Nat) : List Nat → Prop
  | [] => True
  | [_] => True
  | n :: m :: rest => NextMet s n ∧ AllMet (s + alignRecordLength n) (m :: rest)

instance (s n : Nat) : Decidable (NextMet s n) := inferInstanceAs (Decidable (_ ∨ _))

instance decidableAllMet (s : Nat) (lengths : List Nat) : Decidable (AllMet s lengths) :=
  match lengths with
  | [] => .isTrue trivial
  | [_] => .isTrue trivial
  | n :: m :: rest =>
      have := decidableAllMet (s + alignRecordLength n) (m :: rest)
      inferInstanceAs (Decidable (_ ∧ _))

theorem nextMet_iff (s n : Nat) : walRules.Follows s n ↔ NextMet s n := by
  have hpage (t : Nat) : streamGrid.pageEnd t = streamGrid.pageEnd s ↔
      streamPage t = streamPage s := by
    constructor
    · intro h
      have := congrArg streamPage h
      simpa only [streamGrid, streamPage_streamPos, Nat.add_right_cancel_iff] using this
    · intro h
      simp only [streamGrid, h]
  have hpad : alignRecordLength n = n ↔ n % walRecordAlign = 0 := by
    simp only [alignRecordLength, walRecordAlign]
    omega
  exact or_congr (atEdge_iff _) (and_congr Iff.rfl (or_congr (hpage _) hpad))

theorem allMet_iff (s : Nat) (lengths : List Nat) : walRules.Met s lengths ↔ AllMet s lengths := by
  induction lengths generalizing s with
  | nil => exact Iff.rfl
  | cons n rest ih =>
    cases rest with
    | nil => exact Iff.rfl
    | cons m rest => exact and_congr (nextMet_iff s n) (ih _)

theorem finish_eq (s : Nat) (records : List Bytes) :
    walRules.finish s (records.map List.length) =
      s + (records.flatMap (Format.padded walFormat 0)).length := by
  induction records generalizing s with
  | nil => rfl
  | cons raw rest ih =>
    rw [List.map_cons, Rules.finish, ih, List.flatMap_cons, List.length_append, padded_length,
      ← Nat.add_assoc]
    rfl

theorem blank_header : BlankIsNone walFormat 0 := by
  show (readLE32 (List.replicate xlogRecordHeaderSize 0)).toNat < xlogRecordHeaderSize
  decide

variable (headers) in
/-- The reader assembles the records of a laid out file exactly if it comes upon
each of them. -/
theorem segmentExtents_layOut_iff (hsized : ∀ raw ∈ records, WellSized walFormat raw)
    {pages : Nat} (hfits : Fits records pages) :
    (segmentExtents (layOut headers records pages) 0).map Extent.raw = records ↔
      AllMet 0 (records.map List.length) := by
  have hcarries : Carries walFormat 0 (recordStream records) 0 records := by
    intro u
    rw [Nat.zero_add]
    rfl
  rw [segmentExtents_layOut, ← allMet_iff]
  refine walkBytes_eq_iff blank_header hcarries hsized (by decide) (fun u hu => room_at_edge hu) ?_
  have := finish_eq 0 records
  rw [Nat.zero_add] at this
  exact this.trans_le hfits

/-- What a returned record says of the bytes it was made from. -/
structure Holds (record : Record) (raw : Bytes) : Prop where
  recordLen : record.recordLen = UInt32.ofNat raw.length
  xid : record.xid = readLE32 (slice raw 4 8)
  prevLSNValue : record.prevLSNValue = readLE64 (slice raw 8 16)
  info : record.info = byteAt raw 16
  rmgrID : record.rmgrID = byteAt raw 17
  crc : record.crc = readLE32 (slice raw 20 24)
  payloadLen : record.payloadLen = UInt32.ofNat (raw.drop xlogRecordHeaderSize).length
  data : record.data = raw.drop xlogRecordHeaderSize
  blocks : record.blocks = parseBlockReferences (raw.drop xlogRecordHeaderSize)

theorem buildRecord_holds (raw : Bytes) (lsnValue : UInt64) (pageOffset : UInt32) :
    Holds (buildRecord raw lsnValue pageOffset) raw := ⟨rfl, rfl, rfl, rfl, rfl, rfl, rfl, rfl, rfl⟩

/-- The file is read as these records: their bytes are what the reader
assembles, each whole, and one record is returned for each, in order. -/
def Decodes (file : Bytes) (segNum : UInt64) (records : List Bytes) : Prop :=
  (readPages (fun raw _ _ => raw) segNum 0 0 file).records = records ∧
    ∃ out, readRecords (.ok file) segNum 0 0 = .ok out ∧ List.Forall₂ Holds out records

theorem decodes_iff (file : Bytes) (segNum : UInt64) (records : List Bytes) :
    Decodes file segNum records ↔ (segmentExtents file 0).map Extent.raw = records := by
  have hraw : (readPages (fun raw _ _ => raw) segNum 0 0 file).records =
      (segmentExtents file 0).map Extent.raw := by
    rw [readPages_eq_scan]
    rfl
  rw [Decodes, hraw]
  refine ⟨And.left, fun h => ⟨h, _, readRecords_all file segNum, ?_⟩⟩
  rw [← h, List.forall₂_map_left_iff, List.forall₂_map_right_iff, List.forall₂_same]
  exact fun e _ => buildRecord_holds ..

/-- A laid out file is read as its records exactly if the reader comes upon each
of them behind the one before. -/
theorem layOut_decodes_iff (headers : PageHeaders) (records : List Bytes)
    (hsized : ∀ raw ∈ records, WellSized walFormat raw) (pages : Nat) (hfits : Fits records pages)
    (segNum : UInt64) :
    Decodes (layOut headers records pages) segNum records ↔
      AllMet 0 (records.map List.length) :=
  (decodes_iff ..).trans (segmentExtents_layOut_iff headers hsized hfits)

/-- Headers that hold nothing but the magic. -/
def plainHeaders : PageHeaders where
  bytes k := [0x18, 0xD1] ++ List.replicate (headerSize (k * pageSize) - 2) 0
  length_bytes := by
    intro k
    have : 2 ≤ headerSize (k * pageSize) := by
      unfold headerSize
      split <;> decide
    rw [List.length_append, List.length_replicate]
    exact Nat.add_sub_cancel' this
  magic := by
    intro k
    simp only [slice, List.cons_append, List.nil_append, List.drop_zero, List.take_succ_cons,
      List.take_zero]
    decide

/-- A record of this many bytes with nothing but its length in it. -/
def bareRecord (n : Nat) : Bytes :=
  [UInt8.ofNat n, UInt8.ofNat (n / 256), 0, 0] ++ List.replicate (n - 4) 0

theorem bareRecord_length {n : Nat} (h : 4 ≤ n) : (bareRecord n).length = n := by
  rw [bareRecord, List.length_append, List.length_replicate]
  exact Nat.add_sub_cancel' h

theorem bareRecord_wellSized {n : Nat} (hmin : xlogRecordHeaderSize ≤ n)
    (hlen : (readLE32 (bareRecord n)).toNat = n) : WellSized walFormat (bareRecord n) := by
  have hlength : (bareRecord n).length = n :=
    bareRecord_length (Nat.le_trans (by decide) hmin)
  exact ⟨hlen.trans hlength.symm, hlength.symm ▸ hmin⟩

theorem fits_of_finish {records : List Bytes} {pages : Nat}
    (h : walRules.finish 0 (records.map List.length) ≤ streamPos pages) : Fits records pages := by
  rwa [finish_eq, Nat.zero_add] at h

theorem bareRecords_lengths {ns : List Nat} (h : ∀ n ∈ ns, 4 ≤ n) :
    (ns.map bareRecord).map List.length = ns := by
  rw [List.map_map]
  exact (List.map_congr_left fun n hn => bareRecord_length (h n hn)).trans (List.map_id ns)

theorem bareRecords_wellSized {ns : List Nat}
    (h : ∀ n ∈ ns, xlogRecordHeaderSize ≤ n ∧ (readLE32 (bareRecord n)).toNat = n) :
    ∀ raw ∈ ns.map bareRecord, WellSized walFormat raw := by
  intro raw hraw
  obtain ⟨n, hn, rfl⟩ := List.mem_map.mp hraw
  exact bareRecord_wellSized (h n hn).1 (h n hn).2

/-- The second record crosses a page. -/
theorem layOut_decodes_crossing :
    Decodes (layOut plainHeaders ([50, 8200, 64].map bareRecord) 2) 1
      ([50, 8200, 64].map bareRecord) := by
  have hlengths : ([50, 8200, 64].map bareRecord).map List.length = [50, 8200, 64] :=
    bareRecords_lengths (by decide)
  have hfits : Fits ([50, 8200, 64].map bareRecord) 2 := fits_of_finish (by rw [hlengths]; decide)
  rw [layOut_decodes_iff plainHeaders _ (bareRecords_wellSized (by decide)) 2 hfits 1, hlengths]
  decide

/-- A record that ends sixteen bytes before its page does hides the one behind
it, whose header is cut in two. -/
theorem layOut_not_decoded :
    (∀ raw ∈ [bareRecord 8136, bareRecord 24], WellSized walFormat raw) ∧
      Fits [bareRecord 8136, bareRecord 24] 2 ∧
      ¬ Decodes (layOut plainHeaders [bareRecord 8136, bareRecord 24] 2) 1
        [bareRecord 8136, bareRecord 24] := by
  have hsized : ∀ raw ∈ [8136, 24].map bareRecord, WellSized walFormat raw :=
    bareRecords_wellSized (by decide)
  have hlengths : ([8136, 24].map bareRecord).map List.length = [8136, 24] :=
    bareRecords_lengths (by decide)
  have hfits : Fits ([8136, 24].map bareRecord) 2 := fits_of_finish (by rw [hlengths]; decide)
  refine ⟨hsized, hfits, ?_⟩
  change ¬ Decodes (layOut plainHeaders ([8136, 24].map bareRecord) 2) 1 ([8136, 24].map bareRecord)
  rw [decodes_iff, segmentExtents_layOut_iff plainHeaders hsized hfits, hlengths]
  decide

end LearnPg.Wal
