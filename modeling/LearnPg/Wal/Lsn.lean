import LearnPg.Wal.Layout

/-! Record LSNs and positions in the log. A segment file's name gives its place in
the log; the reader composes an LSN of the name's last eight digits and of the
offset on the page, and leaves out the log id and the page. -/
namespace LearnPg.Wal
open LearnPg.Basis.RecordScan LearnPg.Basis.RecordStream LearnPg.Basis.HexText

structure SegmentId where
  timeline : Nat
  log : Nat
  seg : Nat
  timeline_lt : timeline < 2 ^ 32
  log_lt : log < 2 ^ 32
  seg_lt : seg < 256

/-- `%08X%08X%08X`. -/
def SegmentId.name (id : SegmentId) : String :=
  String.ofList (padded 8 id.timeline ++ padded 8 id.log ++ padded 8 id.seg)

/-- The position of the segment's first byte in the log. -/
def SegmentId.base (id : SegmentId) : Nat := id.log * 2 ^ 32 + id.seg * walSegmentSize

structure SegmentFile where
  id : SegmentId
  data : Bytes
  data_le : data.length ≤ walSegmentSize

section
variable (startOffset limit : Int) (files : List SegmentFile)

def SegmentFile.records (file : SegmentFile) : List Record :=
  (readRecords (.ok file.data) (extractSegNum file.id.name) startOffset limit).toOption.getD []

def SegmentFile.found (file : SegmentFile) : List (Extent UInt8) :=
  capped limit (segmentExtents file.data startOffset.toNat)

def SegmentFile.address (file : SegmentFile) (e : Extent UInt8) : Nat := file.id.base + e.position

/-- The LSNs of these files' records are positions in the log. -/
structure LsnsArePositions : Prop where
  position : ∀ file ∈ files, List.Forall₂
    (fun record e => record.lsnValue.toNat = file.address e) (file.records startOffset limit)
    (file.found startOffset limit)
  increasing : ∀ file ∈ files,
    (file.records startOffset limit).Pairwise fun a b => a.lsnValue < b.lsnValue
  across : ∀ f ∈ files, ∀ g ∈ files, f.id.base < g.id.base →
    ∀ a ∈ f.records startOffset limit, ∀ b ∈ g.records startOffset limit, a.lsnValue < b.lsnValue
  distinct : files.Pairwise fun f g => ∀ a ∈ f.records startOffset limit,
    ∀ b ∈ g.records startOffset limit, a.lsnValue ≠ b.lsnValue

/-- Only first pages of the log's first segment hold records, those of two files (of different
timelines) at different offsets. -/
structure OnlyFirstPage : Prop where
  place : ∀ file ∈ files, ∀ e ∈ file.found startOffset limit,
    file.id.log = 0 ∧ file.id.seg = 0 ∧ e.base = 0
  apart : files.Pairwise fun f g => ∀ a ∈ f.found startOffset limit,
    ∀ b ∈ g.found startOffset limit, a.offset ≠ b.offset

end

theorem extractSegNum_name (id : SegmentId) : extractSegNum id.name = UInt64.ofNat id.seg := by
  have hlength : (padded 8 id.seg).length = 8 :=
    padded_length (Nat.lt_of_lt_of_le id.seg_lt (by decide))
  have hname : id.name.length = (padded 8 id.timeline ++ padded 8 id.log).length + 8 := by
    rw [SegmentId.name, String.length_ofList, List.length_append, hlength]
  have hlast : id.name.toList.drop (id.name.length - 8) = padded 8 id.seg := by
    rw [hname, Nat.add_sub_cancel, SegmentId.name, String.toList_ofList, List.drop_left]
  rw [extractSegNum, if_pos (by omega), hlast, value_padded]

theorem lsnAt_toNat {seg offset : Nat} (hseg : seg < 2 ^ 32) (hoffset : offset < 2 ^ 32) :
    (lsnAt (UInt64.ofNat seg) offset).toNat = seg * 2 ^ 32 + offset := by
  have hhigh : (UInt64.ofNat seg <<< 32).toNat = seg <<< 32 := by
    rw [UInt64.toNat_shiftLeft, UInt64.toNat_ofNat_of_lt' (Nat.lt_trans hseg (by decide))]
    apply Nat.mod_eq_of_lt
    rw [Nat.shiftLeft_eq]
    exact Nat.mul_lt_mul_of_pos_right hseg (by decide)
  have hlow : (UInt64.ofNat offset).toNat = offset :=
    UInt64.toNat_ofNat_of_lt' (Nat.lt_trans hoffset (by decide))
  rw [lsnAt, UInt64.toNat_or, hhigh, hlow, ← Nat.shiftLeft_add_eq_or_of_lt hoffset,
    Nat.shiftLeft_eq]

section
variable {startOffset limit : Int} {files : List SegmentFile} {file : SegmentFile}

theorem SegmentFile.records_eq (file : SegmentFile) :
    file.records startOffset limit =
      (file.found startOffset limit).map (emit buildRecord (UInt64.ofNat file.id.seg)) := by
  rw [records, readRecords_eq_scan, extractSegNum_name, capped_map]
  rfl

theorem SegmentFile.found_places (file : SegmentFile) {e : Extent UInt8}
    (he : e ∈ file.found startOffset limit) :
    e.base % pageSize = 0 ∧ e.base + pageSize ≤ walSegmentSize ∧ e.offset < pageSize := by
  obtain ⟨hmod, hfit, hoffset, -⟩ :=
    segmentExtents_places _ _ e ((capped_sublist _ _).subset he)
  have := file.data_le
  simp only [xlogRecordHeaderSize] at hoffset
  exact ⟨hmod, by omega, by omega⟩

/-- An LSN is its record's position for the records of the log's first page and
for no others. -/
theorem lsn_eq_address_iff (file : SegmentFile) {e : Extent UInt8}
    (he : e ∈ file.found startOffset limit) :
    (lsnAt (UInt64.ofNat file.id.seg) e.offset).toNat = file.address e ↔
      file.id.log = 0 ∧ file.id.seg = 0 ∧ e.base = 0 := by
  obtain ⟨hmod, hfit, hoffset⟩ := file.found_places he
  have hseg := file.id.seg_lt
  simp only [pageSize, walSegmentSize] at hmod hfit hoffset
  rw [lsnAt_toNat (by omega) (by omega)]
  simp only [SegmentFile.address, SegmentId.base, Extent.position, walSegmentSize]
  omega

theorem positions_iff (file : SegmentFile) :
    List.Forall₂ (fun record e => record.lsnValue.toNat = file.address e)
      (file.records startOffset limit) (file.found startOffset limit) ↔
    ∀ e ∈ file.found startOffset limit,
      (lsnAt (UInt64.ofNat file.id.seg) e.offset).toNat = file.address e := by
  rw [SegmentFile.records_eq, List.forall₂_map_left_iff, List.forall₂_same]
  rfl

/-- A returned record's LSN is the address of a place it was found at. -/
theorem address_of_mem (hposition : ∀ e ∈ file.found startOffset limit,
      (lsnAt (UInt64.ofNat file.id.seg) e.offset).toNat = file.address e) {record : Record}
    (h : record ∈ file.records startOffset limit) :
    ∃ e ∈ file.found startOffset limit, record.lsnValue.toNat = file.address e := by
  rw [SegmentFile.records_eq] at h
  obtain ⟨e, he, rfl⟩ := List.mem_map.mp h
  exact ⟨e, he, hposition e he⟩

theorem lsns_increasing (hposition : ∀ e ∈ file.found startOffset limit,
      (lsnAt (UInt64.ofNat file.id.seg) e.offset).toNat = file.address e) :
    (file.records startOffset limit).Pairwise fun a b => a.lsnValue < b.lsnValue := by
  have hsorted : (file.found startOffset limit).Pairwise fun a b => a.position < b.position :=
    (segmentExtents_sorted file.data startOffset.toNat).sublist (capped_sublist _ _)
  rw [SegmentFile.records_eq, List.pairwise_map]
  refine hsorted.imp_of_mem fun {a b} ha hb hab => ?_
  show lsnAt _ a.offset < lsnAt _ b.offset
  rw [UInt64.lt_iff_toNat_lt, hposition a ha, hposition b hb]
  exact Nat.add_lt_add_left hab _

theorem address_lt {f g : SegmentFile} (h : f.id.base < g.id.base) {a b : Extent UInt8}
    (ha : a ∈ f.found startOffset limit) : f.address a < g.address b := by
  obtain ⟨-, hfit, hoffset⟩ := f.found_places ha
  have hnext : f.id.base + walSegmentSize ≤ g.id.base := by
    simp only [SegmentId.base, walSegmentSize] at *
    omega
  rw [SegmentFile.address, SegmentFile.address, Extent.position]
  omega

/-- Records of two files share no LSN exactly if they have no place in common. -/
theorem distinct_iff {f g : SegmentFile}
    (hf : ∀ e ∈ f.found startOffset limit, f.id.log = 0 ∧ f.id.seg = 0 ∧ e.base = 0)
    (hg : ∀ e ∈ g.found startOffset limit, g.id.log = 0 ∧ g.id.seg = 0 ∧ e.base = 0) :
    (∀ a ∈ f.records startOffset limit, ∀ b ∈ g.records startOffset limit,
      a.lsnValue ≠ b.lsnValue) ↔
    ∀ a ∈ f.found startOffset limit, ∀ b ∈ g.found startOffset limit, a.offset ≠ b.offset := by
  rw [f.records_eq, g.records_eq]
  simp only [List.forall_mem_map]
  refine forall₂_congr fun a ha => forall₂_congr fun b hb => not_congr ?_
  change lsnAt (UInt64.ofNat f.id.seg) a.offset = lsnAt (UInt64.ofNat g.id.seg) b.offset ↔ _
  rw [← UInt64.toNat_inj, (lsn_eq_address_iff f ha).mpr (hf a ha),
    (lsn_eq_address_iff g hb).mpr (hg b hb)]
  obtain ⟨hflog, hfseg, ha⟩ := hf a ha
  obtain ⟨hglog, hgseg, hb⟩ := hg b hb
  simp only [SegmentFile.address, SegmentId.base, Extent.position, hflog, hfseg, ha, hglog, hgseg,
    hb]
  omega

/-- The records' LSNs are positions in the log exactly if no record lies behind
the first page of the log's first segment, and no two files have one at the same offset. -/
theorem lsnsArePositions_iff (startOffset limit : Int) (files : List SegmentFile) :
    LsnsArePositions startOffset limit files ↔ OnlyFirstPage startOffset limit files := by
  have hposition (file : SegmentFile) : (∀ e ∈ file.found startOffset limit,
      (lsnAt (UInt64.ofNat file.id.seg) e.offset).toNat = file.address e) ↔
      ∀ e ∈ file.found startOffset limit, file.id.log = 0 ∧ file.id.seg = 0 ∧ e.base = 0 :=
    forall₂_congr fun e he => lsn_eq_address_iff file he
  constructor
  · intro h
    have hplace : ∀ file ∈ files, ∀ e ∈ file.found startOffset limit,
        file.id.log = 0 ∧ file.id.seg = 0 ∧ e.base = 0 := fun file hfile =>
      (hposition file).mp ((positions_iff file).mp (h.position file hfile))
    refine ⟨hplace, h.distinct.imp_of_mem fun hf hg => ?_⟩
    exact (distinct_iff (hplace _ hf) (hplace _ hg)).mp
  · intro h
    have hlsn : ∀ file ∈ files, ∀ e ∈ file.found startOffset limit,
        (lsnAt (UInt64.ofNat file.id.seg) e.offset).toNat = file.address e := fun file hfile =>
      (hposition file).mpr (h.place file hfile)
    refine ⟨fun file hfile => (positions_iff file).mpr (hlsn file hfile),
      fun file hfile => lsns_increasing (hlsn file hfile), ?_, ?_⟩
    · intro f hf g hg hbase a ha b hb
      obtain ⟨d, hd, hda⟩ := address_of_mem (hlsn f hf) ha
      obtain ⟨e, he, heb⟩ := address_of_mem (hlsn g hg) hb
      rw [UInt64.lt_iff_toNat_lt, hda, heb]
      exact address_lt hbase hd
    · exact h.apart.imp_of_mem fun hf hg =>
        (distinct_iff (h.place _ hf) (h.place _ hg)).mpr

/-- Segment 1 of log 0 with one record. -/
def secondSegment : SegmentFile where
  id := ⟨1, 0, 1, by decide, by decide, by decide⟩
  data := layOut plainHeaders [bareRecord 24] 1
  data_le := by
    rw [layOut_length]
    decide

theorem secondSegment_not_positions : ¬ LsnsArePositions 0 0 [secondSegment] := by
  have hsized : ∀ raw ∈ [bareRecord 24], WellSized walFormat raw := by
    rintro raw (_ | ⟨_, h⟩)
    · exact bareRecord_wellSized (by decide) (by decide)
    · contradiction
  have hlengths : [bareRecord 24].map List.length = [24] := by
    rw [List.map_singleton, bareRecord_length (by decide)]
  have hfits : Fits [bareRecord 24] 1 := fits_of_finish (by rw [hlengths]; decide)
  have hraw := (segmentExtents_layOut_iff plainHeaders hsized hfits).mpr (by rw [hlengths]; trivial)
  have hfound : secondSegment.found 0 0 ≠ [] := by
    intro hnil
    rw [SegmentFile.found, capped, if_neg (by decide), Int.toNat_zero, secondSegment] at hnil
    rw [hnil] at hraw
    contradiction
  obtain ⟨e, he⟩ := List.exists_mem_of_ne_nil _ hfound
  intro h
  have hposition := (positions_iff secondSegment).mp (h.position secondSegment (by simp)) e he
  exact absurd ((lsn_eq_address_iff secondSegment he).mp hposition).2.1 (by decide)

end

end LearnPg.Wal
