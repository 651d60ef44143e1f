import LearnPg.Wal.Scan
import LearnPg.Basis.RecordSpans

/-! Reading a segment from the page offset of one of its records on. The start offset counts
from the start of the file, so the search is moved on the first page only. -/
namespace LearnPg.Wal
open LearnPg.Basis.RecordScan LearnPg.Basis.RecordSpans

def laterPages (data : Bytes) : List (Page UInt8) :=
  ((pageStarts data).tail.map (segmentPage data 0)).filter (ValidPage ·)

variable {data : Bytes} {startOffset i : Nat} {e : Extent UInt8}

theorem mem_laterPages {p : Page UInt8} (h : p ∈ laterPages data) :
    p.base ≠ 0 ∧ p.start = xlogPageHeaderSize := by
  obtain ⟨s, hs, rfl⟩ := List.mem_map.mp (List.mem_of_mem_filter h)
  have hsorted := pageStarts_sorted data
  have hpos : s ≠ 0 := by
    cases hstarts : pageStarts data with
    | nil => simp [hstarts] at hs
    | cons first rest =>
      rw [hstarts, List.pairwise_cons] at hsorted
      rw [hstarts, List.tail_cons] at hs
      have hsize : pageSize = 8192 := rfl
      have := hsorted.1 s hs
      omega
  refine ⟨hpos, ?_⟩
  rw [segmentPage, headerSize, if_neg hpos]
  exact Nat.max_eq_left (by omega)

theorem segmentPage_later {s : Nat} (hs : pageSize ≤ s) (hoffset : startOffset ≤ pageSize) :
    segmentPage data startOffset s = segmentPage data 0 s := by
  rw [segmentPage, segmentPage, show startOffset - s = 0 - s by omega]

theorem segmentPages_eq (hoffset : startOffset ≤ pageSize) :
    segmentPages data startOffset =
      if 0 ∈ pageStarts data ∧ ValidPage (segmentPage data 0 0) then
        segmentPage data startOffset 0 :: laterPages data
      else laterPages data := by
  rw [segmentPages, laterPages]
  cases hstarts : pageStarts data with
  | nil => simp
  | cons first rest =>
    have hsorted := pageStarts_sorted data
    rw [hstarts, List.pairwise_cons] at hsorted
    have hzero : first = 0 := by
      have hmem : first ∈ pageStarts data := hstarts ▸ List.mem_cons_self
      have hfits := (mem_pageStarts hmem).1
      have hfirst : 0 ∈ pageStarts data :=
        List.mem_map.mpr ⟨0, List.mem_range.mpr (Nat.div_pos (by omega) (by decide)), rfl⟩
      rw [hstarts, List.mem_cons] at hfirst
      rcases hfirst with h | h
      · exact h.symm
      · have := hsorted.1 0 h
        have hsize : pageSize = 8192 := rfl
        omega
    subst hzero
    have hrest : rest.map (segmentPage data startOffset) = rest.map (segmentPage data 0) := by
      refine List.map_congr_left fun s hs => segmentPage_later ?_ hoffset
      have := hsorted.1 s hs
      omega
    have hvalid : ValidPage (segmentPage data startOffset 0) ↔ ValidPage (segmentPage data 0 0) :=
      Iff.rfl
    rw [List.map_cons, hrest, List.tail_cons, List.filter_cons]
    by_cases h : ValidPage (segmentPage data 0 0)
    · rw [if_pos (by simpa using hvalid.mpr h), if_pos ⟨by simp, h⟩]
    · rw [if_neg (by simpa using mt hvalid.mp h), if_neg fun hn => h hn.2]

theorem head_offset (hoffset : startOffset ≤ pageSize) (hbase : e.base ≠ 0)
    (h : (segmentExtents data startOffset).head? = some e) : e.offset = xlogPageHeaderSize := by
  obtain ⟨p, hp, hpbase, hpstart⟩ := scan_head e h
  rw [segmentPages_eq hoffset] at hp
  have hlater : p ∈ laterPages data := by
    split at hp
    · rcases List.mem_cons.mp hp with rfl | hp
      · exact absurd hpbase hbase
      · exact hp
    · exact hp
  rw [hpstart, (mem_laterPages hlater).2]

/-- A start offset inside the first page's header moves nothing. -/
theorem segmentExtents_header : segmentExtents data xlogPageHeaderSize = segmentExtents data 0 := by
  rw [segmentExtents, segmentExtents, segmentPages_eq (by decide), segmentPages_eq (by decide)]
  rfl

theorem segmentExtents_index {j : Nat} {e' : Extent UInt8}
    (he : (segmentExtents data startOffset)[i]? = some e)
    (he' : (segmentExtents data startOffset)[j]? = some e') (h : e.position = e'.position) :
    i = j := by
  obtain ⟨hi, rfl⟩ := List.getElem?_eq_some_iff.mp he
  obtain ⟨hj, rfl⟩ := List.getElem?_eq_some_iff.mp he'
  have hsorted := List.pairwise_iff_getElem.mp (segmentExtents_sorted data startOffset)
  rcases Nat.lt_trichotomy i j with hlt | heq | hlt
  · have := hsorted i j hi hj hlt
    omega
  · exact heq
  · have := hsorted j i hj hi hlt
    omega

/-- What a start offset on the first page behind its header makes of the segment. -/
theorem segmentExtents_eq (hfirst : 0 ∈ pageStarts data ∧ ValidPage (segmentPage data 0 0))
    (hlow : headerSize 0 ≤ startOffset) (hhigh : startOffset ≤ pageSize) :
    segmentExtents data startOffset =
      walFormat.scanAfter (segmentPage data 0 0) startOffset (laterPages data) := by
  have hstart : (segmentPage data startOffset 0).start = startOffset := Nat.max_eq_right hlow
  rw [segmentExtents, segmentPages_eq hhigh, if_pos hfirst, Format.scan, hstart,
    scanFrom_congr (p := segmentPage data startOffset 0) (q := segmentPage data 0 0) rfl rfl]
  rfl

theorem segmentExtents_from (he : (segmentExtents data 0)[i]? = some e) (hbase : e.base = 0) :
    segmentExtents data e.offset = (segmentExtents data 0).drop i := by
  have hlater : ∀ p ∈ laterPages data, e.base ≠ p.base := fun p hp heq =>
    (mem_laterPages hp).1 (heq.symm.trans hbase)
  have hhigh : e.offset ≤ pageSize := by
    have := (segmentExtents_places data 0 e (List.mem_of_getElem? he)).2.2.1
    omega
  by_cases hfirst : 0 ∈ pageStarts data ∧ ValidPage (segmentPage data 0 0)
  · have hall : segmentExtents data 0 =
        walFormat.scanAfter (segmentPage data 0 0) (headerSize 0) (laterPages data) := by
      rw [segmentExtents, segmentPages_eq (Nat.zero_le _), if_pos hfirst]
      rfl
    obtain ⟨hfound, hlast, -⟩ := scanFrom_offsets walFormat (segmentPage data 0 0) (headerSize 0)
    have hindex (first : Extent UInt8) := @segmentExtents_index data 0 i e
      (walFormat.scanFrom (segmentPage data 0 0) (headerSize 0)).1.length first he
    rw [hall, Format.scanAfter] at he hindex ⊢
    rw [List.getElem?_append] at he
    by_cases hi : i < (walFormat.scanFrom (segmentPage data 0 0) (headerSize 0)).1.length
    · rw [if_pos hi] at he
      rw [segmentExtents_eq hfirst (hfound e (List.mem_of_getElem? he)).2.1 hhigh,
        Format.scanAfter, scanFrom_of_found he, List.drop_append_of_le_length (by omega)]
    · rw [if_neg hi] at he
      rcases scan_bases e (List.mem_of_getElem? he) with ⟨p, hp, heq⟩ | ⟨o, ho, hobase, hooffset⟩
      · exact absurd heq (hlater p hp)
      · rw [Option.mem_def] at ho
        rw [ho] at he hindex ⊢
        obtain ⟨first, rest, hscan⟩ := List.exists_cons_of_ne_nil
          (List.ne_nil_of_mem (List.mem_of_getElem? he))
        obtain ⟨hfbase, hfoffset⟩ := @scan_some_head _ walFormat _ _ first
          (by rw [hscan]; rfl)
        have hplace : e.position = first.position := by
          rw [Extent.position, Extent.position, hobase, hooffset, hfbase, hfoffset]
        have hi : i = (walFormat.scanFrom (segmentPage data 0 0) (headerSize 0)).1.length := by
          refine hindex first ?_ hplace
          rw [List.getElem?_append_right (Nat.le_refl _), Nat.sub_self, hscan]
          rfl
        rw [segmentExtents_eq hfirst (hooffset ▸ (hlast o ho).2.1) hhigh, Format.scanAfter,
          hooffset, scanFrom_of_open ho, hi, List.drop_left, List.nil_append]
  · rw [segmentExtents, segmentPages_eq (Nat.zero_le _), if_neg hfirst] at he
    rcases scan_bases e (List.mem_of_getElem? he) with ⟨p, hp, heq⟩ | ⟨o, ho, -⟩
    · exact absurd heq (hlater p hp)
    · contradiction

theorem head?_capped {ρ : Type} {limit : Int} (hlimit : 0 < limit) (records : List ρ) :
    (capped limit records).head? = records.head? := by
  rw [capped, if_pos hlimit, List.head?_take, if_neg (by omega)]

/-- Read from its page offset on, a segment gives a record and the later ones exactly if the
record lies on the first page or is the first of all. -/
theorem resumed_iff {limit : Int} (hlimit : 0 < limit)
    (he : (segmentExtents data 0)[i]? = some e) :
    capped limit (segmentExtents data e.offset) = capped limit ((segmentExtents data 0).drop i) ↔
      e.base = 0 ∨ i = 0 := by
  have hoffset : e.offset ≤ pageSize := by
    have := (segmentExtents_places data 0 e (List.mem_of_getElem? he)).2.2.1
    omega
  by_cases hbase : e.base = 0
  · rw [segmentExtents_from he hbase]
    exact iff_of_true rfl (.inl hbase)
  · rw [or_iff_right hbase]
    constructor
    · intro heq
      have hhead := congrArg List.head? heq
      rw [head?_capped hlimit, head?_capped hlimit, List.head?_drop, he] at hhead
      rw [head_offset hoffset hbase hhead, segmentExtents_header, List.head?_eq_getElem?] at hhead
      exact segmentExtents_index he hhead rfl
    · rintro rfl
      rw [← List.head?_eq_getElem?] at he
      rw [head_offset (Nat.zero_le _) hbase he, segmentExtents_header, List.drop_zero]

end LearnPg.Wal
