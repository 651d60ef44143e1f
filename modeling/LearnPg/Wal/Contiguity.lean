import LearnPg.Wal.Scan
import LearnPg.Basis.RecordSpans

/-! Where the bytes of returned records come from. The reader's pages are scanned once
more, with the file offsets of their bytes in place of the bytes: each record then is the
list of offsets it was assembled from. A page that fails the magic check is passed over,
and a record open at that point is completed from the pages behind it. -/
namespace LearnPg.Wal
open LearnPg.Basis.RecordScan LearnPg.Basis.RecordSpans

section
variable (data : Bytes) (startOffset : Nat)

def ValidAt (s : Nat) : Prop := readLE16 (slice (pageAt data s) 0 2) = pageMagic

instance (s : Nat) : Decidable (ValidAt data s) := inferInstanceAs (Decidable (_ = _))

/-- The file offsets of the page at `s` behind its header. -/
def dataArea (s : Nat) : List Nat := List.range' (s + headerSize s) (pageSize - headerSize s)

/-- A page of the file, as the file offsets of its bytes. -/
def offsetsPage (s : Nat) : Page Nat where
  base := s
  header := headerSize s
  start := max (headerSize s) (startOffset - s)
  bytes := List.range' s pageSize

def offsetsFormat : Format Nat := Format.comap (byteAt data) walFormat

def validPages (starts : List Nat) : List (Page Nat) :=
  (starts.filter (ValidAt data ·)).map (offsetsPage startOffset)

def foundOn (starts : List Nat) : List (Extent Nat) :=
  (offsetsFormat data).scan (validPages data startOffset starts) none

def openBehind (starts : List Nat) : Option (Open Nat) :=
  Format.leftOpen (offsetsFormat data) (validPages data startOffset starts) none

def roomOn (starts : List Nat) : Nat :=
  (starts.filter (ValidAt data ·)).length * (pageSize - xlogPageHeaderSize)

/-- One stretch of log data: it lies in the data areas of pages that follow each other in
the file and all pass the magic check. -/
def Contiguous (offsets : List Nat) : Prop :=
  ∃ s n, (∀ i < n, s + i * pageSize ∈ pageStarts data ∧ ValidAt data (s + i * pageSize)) ∧
    offsets <:+: (List.range n).flatMap fun i => dataArea (s + i * pageSize)

end

variable {data : Bytes} {startOffset : Nat}

/-! The offsets are those of the records' bytes. -/

theorem offsetsPage_map {s : Nat} (h : s + pageSize ≤ data.length) :
    Page.map (byteAt data) (offsetsPage startOffset s) = segmentPage data startOffset s := by
  have hbytes : (List.range' s pageSize).map (byteAt data) = pageAt data s := by
    apply List.ext_getElem
    · rw [List.length_map, List.length_range', pageAt_length h]
    · intro i hi _
      rw [List.length_map, List.length_range'] at hi
      have hin : s + i < data.length := by omega
      simp [pageAt, slice, byteAt, hin]
  rw [Page.map, segmentPage, ← hbytes]
  rfl

theorem validPages_map :
    (validPages data startOffset (pageStarts data)).map (Page.map (byteAt data)) =
      segmentPages data startOffset := by
  rw [segmentPages, List.filter_map, validPages, List.map_map]
  refine List.map_congr_left fun s hs => ?_
  exact offsetsPage_map (mem_pageStarts (List.mem_of_mem_filter hs)).1

theorem segmentExtents_offsets (data : Bytes) (startOffset : Nat) :
    segmentExtents data startOffset =
      (foundOn data startOffset (pageStarts data)).map (Extent.map (byteAt data)) := by
  rw [segmentExtents, ← validPages_map]
  exact scan_map (byteAt data) _ none

/-! The offsets on valid pages. -/

theorem headerSize_le (s : Nat) : headerSize s ≤ 40 := by
  rw [headerSize]
  split <;> decide

theorem mem_dataArea {s x : Nat} :
    x ∈ dataArea s ↔ s + headerSize s ≤ x ∧ x < s + pageSize := by
  have := headerSize_le s
  have hsize : pageSize = 8192 := rfl
  rw [dataArea, List.mem_range'_1]
  omega

variable (data startOffset) in
theorem validPages_whole (starts : List Nat) :
    ∀ p ∈ validPages data startOffset starts, Whole (offsetsFormat data) p := by
  intro p hp
  obtain ⟨s, -, rfl⟩ := List.mem_map.mp hp
  exact ⟨List.length_range', Nat.le_max_left _ _⟩

def areas (data : Bytes) (starts : List Nat) : List Nat :=
  (starts.filter (ValidAt data ·)).flatMap dataArea

theorem payloads_validPages (starts : List Nat) :
    payloads (validPages data startOffset starts) = areas data starts := by
  rw [payloads, validPages, areas, List.flatMap_map]
  refine List.flatMap_congr fun s _ => ?_
  simp [Page.payload, offsetsPage, dataArea, List.drop_range']

theorem mem_areas {starts : List Nat} {x : Nat} (h : x ∈ areas data starts) :
    ∃ s ∈ starts, ValidAt data s ∧ x ∈ dataArea s := by
  obtain ⟨s, hs, hx⟩ := List.mem_flatMap.mp h
  obtain ⟨hs, hvalid⟩ := List.mem_filter.mp hs
  exact ⟨s, hs, by simpa using hvalid, hx⟩

theorem areas_sorted {starts : List Nat}
    (hsorted : starts.Pairwise (fun s t => s + pageSize ≤ t)) :
    (areas data starts).Pairwise (· < ·) := by
  rw [areas, List.pairwise_flatMap]
  refine ⟨fun s _ => List.pairwise_lt_range', (hsorted.filter _).imp fun {s t} hst x hx y hy => ?_⟩
  rw [mem_dataArea] at hx hy
  omega

/-! Pages that are passed over. -/

def Crosses (s : Nat) (offsets : List Nat) : Prop :=
  (∃ x ∈ offsets, x < s) ∧ ∃ y ∈ offsets, s ≤ y

section
variable {before after : List Nat} {s : Nat}

theorem below_of_before (hsplit : pageStarts data = before ++ s :: after) {x : Nat}
    (h : x ∈ areas data before) : x < s := by
  obtain ⟨t, ht, -, hx⟩ := mem_areas h
  have hsorted := pageStarts_sorted data
  rw [hsplit, List.pairwise_append] at hsorted
  have := hsorted.2.2 t ht s List.mem_cons_self
  rw [mem_dataArea] at hx
  omega

theorem above_of_after (hsplit : pageStarts data = before ++ s :: after) {x : Nat}
    (h : x ∈ areas data after) : s ≤ x := by
  obtain ⟨t, ht, -, hx⟩ := mem_areas h
  have hsorted := pageStarts_sorted data
  rw [hsplit, List.pairwise_append, List.pairwise_cons] at hsorted
  have := hsorted.2.1.1 t ht
  rw [mem_dataArea] at hx
  omega

theorem foundOn_split (hsplit : pageStarts data = before ++ s :: after) (hs : ¬ ValidAt data s) :
    foundOn data startOffset (pageStarts data) = foundOn data startOffset before ++
      (offsetsFormat data).scan (validPages data startOffset after)
        (openBehind data startOffset before) := by
  have hpages : validPages data startOffset (before ++ s :: after) =
      validPages data startOffset before ++ validPages data startOffset after := by
    rw [validPages, List.filter_append, List.filter_cons_of_neg (by simpa using hs),
      List.map_append]
    rfl
  rw [foundOn, hsplit, hpages, scan_append]
  rfl

theorem foundOn_inside (starts : List Nat) :
    ∀ e ∈ foundOn data startOffset starts, e.raw <:+: areas data starts := by
  have := @scan_inside _ (offsetsFormat data) _
    (validPages_whole data startOffset starts) none [] (by simp)
  rwa [List.nil_append, payloads_validPages] at this

theorem openBehind_started (starts : List Nat) {o : Open Nat}
    (h : openBehind data startOffset starts = some o) :
    Started (offsetsFormat data) o ∧
      o.raw <:+ areas data starts := by
  have := @leftOpen_inside _ (offsetsFormat data) _
    (validPages_whole data startOffset starts) none [] (by simp) o h
  rwa [List.nil_append, payloads_validPages] at this

theorem not_crosses_before (hsplit : pageStarts data = before ++ s :: after)
    {offsets : List Nat} (h : offsets <:+: areas data before) :
    ¬ Crosses s offsets := by
  rintro ⟨-, y, hy, hle⟩
  have := below_of_before hsplit (h.subset hy)
  omega

theorem not_crosses_after (hsplit : pageStarts data = before ++ s :: after)
    {offsets : List Nat} (h : offsets <:+: areas data after) :
    ¬ Crosses s offsets := by
  rintro ⟨⟨x, hx, hlt⟩, -⟩
  have := above_of_after hsplit (h.subset hx)
  omega

theorem crosses_completed (hsplit : pageStarts data = before ++ s :: after) {o : Open Nat}
    (ho : openBehind data startOffset before = some o)
    (hroom : o.need - o.raw.length ≤ (areas data after).length) :
    Crosses s (o.raw ++ (areas data after).take
      (o.need - o.raw.length)) := by
  obtain ⟨hstarted, hsuffix⟩ := openBehind_started before ho
  have hlacks := hstarted.lacks
  have hheader : 24 ≤ o.raw.length := hstarted.header
  constructor
  · obtain ⟨x, hx⟩ := List.exists_mem_of_length_pos (show 0 < o.raw.length by omega)
    exact ⟨x, List.mem_append_left _ hx, below_of_before hsplit (hsuffix.subset hx)⟩
  · obtain ⟨y, hy⟩ := List.exists_mem_of_length_pos
      (show 0 < ((areas data after).take
        (o.need - o.raw.length)).length by rw [List.length_take]; omega)
    exact ⟨y, List.mem_append_right _ hy, above_of_after hsplit (List.mem_of_mem_take hy)⟩

theorem crosses_iff (hsplit : pageStarts data = before ++ s :: after) (hs : ¬ ValidAt data s)
    {i : Nat} {e : Extent Nat} (he : (foundOn data startOffset (pageStarts data))[i]? = some e) :
    Crosses s e.raw ↔ (foundOn data startOffset before).length = i ∧
      ∃ o ∈ openBehind data startOffset before, o.need - o.raw.length ≤
        (areas data after).length := by
  rw [foundOn_split hsplit hs, List.getElem?_append] at he
  by_cases hi : i < (foundOn data startOffset before).length
  · rw [if_pos hi] at he
    refine iff_of_false (not_crosses_before hsplit
      (foundOn_inside before e (List.mem_of_getElem? he))) ?_
    rintro ⟨rfl, -⟩
    exact Nat.lt_irrefl _ hi
  · rw [if_neg hi] at he
    cases hopen : openBehind data startOffset before with
    | none =>
      rw [hopen] at he
      have hafter := foundOn_inside after e (List.mem_of_getElem? he)
      exact iff_of_false (not_crosses_after hsplit hafter) (by simp)
    | some o =>
      rw [hopen] at he
      have hsome := scan_some (validPages_whole data startOffset after)
        (openBehind_started before hopen).1
      rw [payloads_validPages] at hsome
      rcases hsome with ⟨-, hnone⟩ | ⟨hroom, rest, hscan, hrest⟩
      · rw [hnone] at he
        contradiction
      · rw [hscan] at he
        by_cases hfirst : (foundOn data startOffset before).length = i
        · rw [hfirst, Nat.sub_self, List.getElem?_cons_zero, Option.some.injEq] at he
          subst he
          exact iff_of_true (crosses_completed hsplit hopen hroom) ⟨hfirst, o, rfl, hroom⟩
        · obtain ⟨k, hk⟩ := Nat.exists_eq_add_of_lt (show
            (foundOn data startOffset before).length < i by omega)
          rw [show i - (foundOn data startOffset before).length = k + 1 by omega,
            List.getElem?_cons_succ] at he
          exact iff_of_false (not_crosses_after hsplit (hrest e (List.mem_of_getElem? he)))
            fun h => hfirst h.1

/-! Records of one stretch. -/

theorem middle_inside {l before mid after : List Nat} (p : Nat → Bool)
    (h : l <:+: before ++ mid ++ after) (hl : ∀ x ∈ l, p x = true) (hmid : ∀ x ∈ mid, p x = true)
    (hbefore : ∀ x ∈ before, p x = false) (hafter : ∀ x ∈ after, p x = false) : l <:+: mid := by
  have hkept := h.filter p
  rw [List.filter_append, List.filter_append, List.filter_eq_self.mpr hl,
    List.filter_eq_self.mpr hmid, List.filter_eq_nil_iff.mpr (by simpa using hbefore),
    List.filter_eq_nil_iff.mpr (by simpa using hafter), List.nil_append, List.append_nil] at hkept
  exact hkept

theorem mem_pageStarts_iff {s : Nat} :
    s ∈ pageStarts data ↔ s % pageSize = 0 ∧ s + pageSize ≤ data.length := by
  refine ⟨fun h => (mem_pageStarts h).symm, fun h => List.mem_map.mpr ⟨s / pageSize, ?_, ?_⟩⟩
  · rw [List.mem_range]
    simp only [pageSize] at h ⊢
    omega
  · simp only [pageSize] at h ⊢
    omega

theorem sorted_between {l : List Nat} (hsorted : l.Pairwise (· < ·)) (hne : l ≠ []) :
    ∃ x ∈ l, ∃ y ∈ l, ∀ z ∈ l, x ≤ z ∧ z ≤ y := by
  refine ⟨l.head hne, l.head_mem hne, l.getLast hne, l.getLast_mem hne, fun z hz => ⟨?_, ?_⟩⟩
  · rw [← List.cons_head_tail hne, List.pairwise_cons] at hsorted
    rw [← List.cons_head_tail hne, List.mem_cons] at hz
    rcases hz with rfl | hz
    · exact Nat.le_refl _
    · exact (hsorted.1 z hz).le
  · rw [← List.dropLast_append_getLast hne, List.pairwise_append] at hsorted
    rw [← List.dropLast_append_getLast hne, List.mem_append, List.mem_singleton] at hz
    rcases hz with hz | rfl
    · exact (hsorted.2.2 z hz _ (List.mem_singleton_self _)).le
    · exact Nat.le_refl _

theorem pageStarts_split {i n r : Nat} (h : data.length / pageSize = i + n + r) :
    pageStarts data = (List.range i).map (· * pageSize) ++
      (List.range n).map (fun j => i * pageSize + j * pageSize) ++
      (List.range r).map (fun j => (i + n) * pageSize + j * pageSize) := by
  rw [pageStarts, h, List.range_add, List.range_add]
  simp only [List.map_append, List.map_map, Function.comp_def, Nat.add_mul]

theorem areas_run {s n : Nat}
    (hrun : ∀ i < n, s + i * pageSize ∈ pageStarts data ∧ ValidAt data (s + i * pageSize))
    (hn : 0 < n) :
    ∃ before after, areas data (pageStarts data) =
        before ++ (List.range n).flatMap (fun i => dataArea (s + i * pageSize)) ++ after ∧
      (∀ x ∈ before, x < s) ∧ ∀ x ∈ after, s + n * pageSize ≤ x := by
  have hsize : pageSize = 8192 := rfl
  obtain ⟨hmod, -⟩ := mem_pageStarts_iff.mp (hrun 0 hn).1
  obtain ⟨-, hend⟩ := mem_pageStarts_iff.mp (hrun (n - 1) (by omega)).1
  obtain ⟨i, rfl⟩ : ∃ i, s = i * pageSize := by
    rw [Nat.zero_mul, Nat.add_zero] at hmod
    exact ⟨s / pageSize, (Nat.div_mul_cancel (Nat.dvd_of_mod_eq_zero hmod)).symm⟩
  obtain ⟨r, hr⟩ : ∃ r, data.length / pageSize = i + n + r := by
    refine Nat.exists_eq_add_of_le ?_
    rw [hsize] at hend ⊢
    omega
  have hvalid : ((List.range n).map fun j => i * pageSize + j * pageSize).filter
      (ValidAt data ·) = (List.range n).map fun j => i * pageSize + j * pageSize := by
    rw [List.filter_eq_self]
    intro t ht
    obtain ⟨j, hj, rfl⟩ := List.mem_map.mp ht
    simpa using (hrun j (List.mem_range.mp hj)).2
  refine ⟨areas data ((List.range i).map (· * pageSize)),
    areas data ((List.range r).map fun j => (i + n) * pageSize + j * pageSize), ?_, ?_, ?_⟩
  · rw [pageStarts_split hr]
    simp only [areas, List.filter_append, hvalid, List.flatMap_append, List.flatMap_map]
  · intro x hx
    obtain ⟨t, ht, -, hx⟩ := mem_areas hx
    obtain ⟨j, hj, rfl⟩ := List.mem_map.mp ht
    rw [List.mem_range] at hj
    rw [mem_dataArea, hsize] at hx
    rw [hsize]
    omega
  · intro x hx
    obtain ⟨t, ht, -, hx⟩ := mem_areas hx
    obtain ⟨j, hj, rfl⟩ := List.mem_map.mp ht
    rw [mem_dataArea, hsize] at hx
    rw [hsize]
    omega

/-- A stretch of the valid pages' data is contiguous exactly if it crosses no page that is
not valid. -/
theorem contiguous_iff {offsets : List Nat} (hne : offsets ≠ [])
    (h : offsets <:+: areas data (pageStarts data)) :
    Contiguous data offsets ↔ ∀ s ∈ pageStarts data, ¬ ValidAt data s → ¬ Crosses s offsets := by
  have hsize : pageSize = 8192 := rfl
  constructor
  · rintro ⟨t, n, hrun, hwithin⟩ s hs hinvalid ⟨⟨x, hx, hlt⟩, y, hy, hle⟩
    obtain ⟨i, hi, hxi⟩ := List.mem_flatMap.mp (hwithin.subset hx)
    obtain ⟨j, hj, hyj⟩ := List.mem_flatMap.mp (hwithin.subset hy)
    rw [List.mem_range] at hi hj
    rw [mem_dataArea] at hxi hyj
    obtain ⟨hmod, -⟩ := mem_pageStarts_iff.mp hs
    obtain ⟨htmod, -⟩ := mem_pageStarts_iff.mp (hrun i hi).1
    have hk : s = t + (s - t) / pageSize * pageSize ∧ (s - t) / pageSize < n := by
      rw [hsize] at *
      omega
    exact hinvalid (hk.1 ▸ (hrun _ hk.2).2)
  · intro hcross
    have hsorted := (areas_sorted (pageStarts_sorted data)).sublist h.sublist
    obtain ⟨x, hx, y, hy, hbetween⟩ := sorted_between hsorted hne
    obtain ⟨s, hs, hvalid, hxs⟩ := mem_areas (h.subset hx)
    obtain ⟨t, ht, -, hyt⟩ := mem_areas (h.subset hy)
    rw [mem_dataArea] at hxs hyt
    have hxy := (hbetween x hx).2
    obtain ⟨hsmod, -⟩ := mem_pageStarts_iff.mp hs
    obtain ⟨htmod, htend⟩ := mem_pageStarts_iff.mp ht
    have hrun : ∀ i < (t - s) / pageSize + 1,
        s + i * pageSize ∈ pageStarts data ∧ ValidAt data (s + i * pageSize) := by
      intro i hi
      have hmem : s + i * pageSize ∈ pageStarts data := by
        rw [mem_pageStarts_iff]
        rw [hsize] at *
        omega
      refine ⟨hmem, ?_⟩
      by_contra hinvalid
      refine hcross _ hmem hinvalid ⟨⟨x, hx, ?_⟩, y, hy, ?_⟩
      · have hi : i ≠ 0 := by
          rintro rfl
          rw [Nat.zero_mul, Nat.add_zero] at hinvalid
          exact hinvalid hvalid
        rw [hsize] at *
        omega
      · rw [hsize] at *
        omega
    refine ⟨s, _, hrun, ?_⟩
    obtain ⟨before, after, heq, hbefore, hafter⟩ :=
      areas_run hrun (Nat.succ_pos _)
    rw [heq] at h
    refine middle_inside (fun z => s ≤ z ∧ z < s + ((t - s) / pageSize + 1) * pageSize) h
      ?_ ?_ ?_ ?_
    · intro z hz
      have := hbetween z hz
      rw [hsize] at *
      simp
      omega
    · intro z hz
      obtain ⟨i, hi, hz⟩ := List.mem_flatMap.mp hz
      rw [List.mem_range] at hi
      rw [mem_dataArea] at hz
      rw [hsize] at *
      simp
      omega
    · intro z hz
      have := hbefore z hz
      simp
      omega
    · intro z hz
      have := hafter z hz
      simp
      omega

/-! The reader's records. -/

theorem areas_length {starts : List Nat} (h : ∀ s ∈ starts, 0 < s) :
    (areas data starts).length = roomOn data starts := by
  rw [areas, roomOn, List.length_flatMap]
  have hconst : (starts.filter (ValidAt data ·)).map (fun s => (dataArea s).length) =
      (starts.filter (ValidAt data ·)).map fun _ => pageSize - xlogPageHeaderSize := by
    refine List.map_congr_left fun s hs => ?_
    have hpos := h s (List.mem_of_mem_filter hs)
    rw [dataArea, List.length_range', headerSize, if_neg (by omega)]
  simpa using congrArg List.sum hconst

theorem foundOn_raw_ne {e : Extent Nat}
    (he : e ∈ foundOn data startOffset (pageStarts data)) : e.raw ≠ [] := by
  have hsized := @scan_sized _ (offsetsFormat data) _ none
    (fun p hp => (validPages_whole data startOffset (pageStarts data) p hp).full)
    (by simp) e he
  have hmin : 24 ≤ e.raw.length := hsized.2
  exact List.ne_nil_of_length_pos (by omega)

theorem foundOn_disjoint (data : Bytes) (startOffset : Nat) :
    (foundOn data startOffset (pageStarts data)).Pairwise
      (fun a b => a.raw.Disjoint b.raw) := by
  have hsub := @scan_sublist _ (offsetsFormat data) _
    (validPages_whole data startOffset (pageStarts data)) none (by simp)
  rw [Option.map_none, Option.getD_none, List.nil_append, payloads_validPages] at hsub
  have hsorted := (areas_sorted (pageStarts_sorted data)).sublist hsub
  refine (List.pairwise_flatMap.mp hsorted).2.imp fun {a b} hlt x ha hb => ?_
  exact Nat.lt_irrefl x (hlt x ha x hb)

variable (data startOffset) in
/-- Where a page fails the magic check while a record is open, and the limit is not
reached, the valid pages behind it are too short for the bytes the record lacks. -/
def NeverResumed (limit : Int) : Prop :=
  ∀ before s after, pageStarts data = before ++ s :: after → ¬ ValidAt data s →
    ∀ o ∈ openBehind data startOffset before,
      (limit ≤ 0 ∨ ((foundOn data startOffset before).length : Int) < limit) →
      roomOn data after < o.need - o.raw.length

/-- A record that is resumed is the next one found. -/
theorem resumed_found {before after : List Nat} {s : Nat}
    (hsplit : pageStarts data = before ++ s :: after) (hs : ¬ ValidAt data s) {o : Open Nat}
    (ho : openBehind data startOffset before = some o)
    (hroom : o.need - o.raw.length ≤ (areas data after).length) :
    ∃ e, (foundOn data startOffset (pageStarts data))[
      (foundOn data startOffset before).length]? = some e := by
  have hsome := scan_some (validPages_whole data startOffset after)
    (openBehind_started before ho).1
  rw [payloads_validPages] at hsome
  rcases hsome with ⟨hshort, -⟩ | ⟨-, rest, hscan, -⟩
  · omega
  · rw [foundOn_split hsplit hs, ho, hscan, List.getElem?_append_right (Nat.le_refl _),
      Nat.sub_self, List.getElem?_cons_zero]
    exact ⟨_, rfl⟩

theorem roomOn_after {before after : List Nat} {s : Nat}
    (hsplit : pageStarts data = before ++ s :: after) :
    (areas data after).length = roomOn data after := by
  have hsorted := pageStarts_sorted data
  have hsize : pageSize = 8192 := rfl
  rw [hsplit, List.pairwise_append, List.pairwise_cons] at hsorted
  refine areas_length fun t ht => ?_
  have := hsorted.2.1.1 t ht
  omega

/-- The records of a segment are stretches of log data without common bytes exactly if none
is resumed behind a page that fails the magic check. -/
theorem foundOn_contiguous_iff (data : Bytes) (startOffset : Nat) (limit : Int) :
    ((∀ e ∈ capped limit (foundOn data startOffset (pageStarts data)), Contiguous data e.raw) ∧
        (capped limit (foundOn data startOffset (pageStarts data))).Pairwise
          (fun a b => a.raw.Disjoint b.raw)) ↔
      NeverResumed data startOffset limit := by
  have hdisjoint := (foundOn_disjoint data startOffset).sublist
    (capped_sublist limit (foundOn data startOffset (pageStarts data)))
  rw [and_iff_left hdisjoint]
  constructor
  · intro hall before s after hsplit hs o ho hroom
    by_contra hlong
    rw [← roomOn_after hsplit, Nat.not_lt] at hlong
    obtain ⟨e, he⟩ := resumed_found hsplit hs ho hlong
    have hmem := mem_capped.mpr ⟨_, he, hroom⟩
    have hcross := (crosses_iff hsplit hs he).mpr ⟨rfl, o, ho, hlong⟩
    exact (contiguous_iff (foundOn_raw_ne (List.mem_of_getElem? he))
      (foundOn_inside _ e (List.mem_of_getElem? he))).mp (hall e hmem) s
        (by rw [hsplit]; simp) hs hcross
  · intro hnever e he
    obtain ⟨i, hi, hroom⟩ := mem_capped.mp he
    refine (contiguous_iff (foundOn_raw_ne (List.mem_of_getElem? hi))
      (foundOn_inside _ e (List.mem_of_getElem? hi))).mpr fun s hs hinvalid hcross => ?_
    obtain ⟨before, after, hsplit⟩ := List.append_of_mem hs
    obtain ⟨rfl, o, ho, hlong⟩ := (crosses_iff hsplit hinvalid hi).mp hcross
    have := hnever before s after hsplit hinvalid o ho hroom
    rw [roomOn_after hsplit] at hlong
    omega

/-- The places of the bytes the records returned were assembled from. -/
def recordPlaces (data : Bytes) (startOffset limit : Int) : List (Extent Nat) :=
  capped limit (foundOn data startOffset.toNat (pageStarts data))

/-- Every record the reader returns is one stretch of log data, and no byte belongs to two,
exactly if no record is resumed behind a page that fails the magic check. -/
theorem readRecords_contiguous_iff (data : Bytes) (segNum : UInt64) (startOffset limit : Int) :
    readRecords (.ok data) segNum startOffset limit =
        .ok ((recordPlaces data startOffset limit).map fun e =>
          emit buildRecord segNum (Extent.map (byteAt data) e)) ∧
      ((∀ e ∈ recordPlaces data startOffset limit, Contiguous data e.raw) ∧
          (recordPlaces data startOffset limit).Pairwise (fun a b => a.raw.Disjoint b.raw) ↔
        NeverResumed data startOffset.toNat limit) := by
  refine ⟨?_, foundOn_contiguous_iff data startOffset.toNat limit⟩
  rw [readRecords_eq_scan, segmentExtents_offsets, List.map_map, capped_map]
  rfl

/-- Three pages: a record that needs 24 bytes more than the first page holds, a page of
zeros, and a page with nothing behind its magic. -/
def brokenSegment : Bytes :=
  [0x18, 0xD1] ++ List.replicate 38 0 ++ [0xF0, 0x1F] ++ List.replicate 16342 0 ++
    [0x18, 0xD1] ++ List.replicate 8190 0

theorem validAt_behind {before head rest : Bytes} {s : Nat} (hbefore : before.length = s)
    (hhead : head.length = 2) :
    ValidAt (before ++ (head ++ rest)) s ↔ readLE16 head = pageMagic := by
  have hbytes : slice (pageAt (before ++ (head ++ rest)) s) 0 2 = head := by
    simp [slice, pageAt, ← hbefore, List.take_take, pageSize, hhead]
  rw [ValidAt, hbytes]

theorem brokenSegment_starts : pageStarts brokenSegment = [0, 8192, 16384] := by
  have hlength : brokenSegment.length = 3 * pageSize := by
    simp only [brokenSegment, List.length_append, List.length_replicate, List.length_cons,
      List.length_nil, pageSize]
  rw [pageStarts_of_length hlength]
  rfl

theorem brokenSegment_open :
    openBehind brokenSegment 0 [0] = some ⟨0, 40, 8176, List.range' 40 8152⟩ := by
  have hvalid : validPages brokenSegment 0 [0] = [offsetsPage 0 0] := by
    rw [validPages, List.filter_cons_of_pos (by decide)]
    rfl
  have hbytes : (offsetsPage 0 0).bytes.drop 40 = List.range' 40 8152 := by
    simp [offsetsPage, List.drop_range', pageSize]
  have hlen : (offsetsFormat brokenSegment).lenOf (List.range' 40 8152) = 8176 := by
    rw [← (offsetsFormat brokenSegment).lenOf_take, List.take_range'_of_length_ge (by decide)]
    decide +kernel
  have hover : (offsetsFormat brokenSegment).scanFrom (offsetsPage 0 0) 40 =
      ([], some ⟨0, 40, 8176, List.range' 40 8152⟩) := by
    rw [scanFrom_over (by decide), hbytes, hlen]
    · rfl
    · rw [hbytes, hlen]
      decide
    · rw [hbytes, hlen]
      decide
  rw [openBehind, hvalid, Format.leftOpen, Format.leftOpen]
  exact congrArg Prod.snd hover

theorem brokenSegment_zeros : ¬ ValidAt brokenSegment 8192 := by
  have hzeros : List.replicate 16342 (0 : UInt8) =
      List.replicate 8150 0 ++ (List.replicate 2 0 ++ List.replicate 8190 0) := by
    rw [List.replicate_append_replicate, List.replicate_append_replicate]
  have hsplit : brokenSegment =
      ([0x18, 0xD1] ++ List.replicate 38 0 ++ [0xF0, 0x1F] ++ List.replicate 8150 0) ++
        (List.replicate 2 0 ++
          (List.replicate 8190 0 ++ [0x18, 0xD1] ++ List.replicate 8190 0)) := by
    rw [brokenSegment, hzeros]
    simp only [List.append_assoc]
  rw [hsplit, validAt_behind ?_ rfl]
  · decide
  · simp only [List.length_append, List.length_replicate, List.length_cons, List.length_nil]

theorem brokenSegment_last : ValidAt brokenSegment 16384 := by
  rw [brokenSegment, List.append_assoc _ [0x18, 0xD1], validAt_behind ?_ rfl]
  · decide
  · simp only [List.length_append, List.length_replicate, List.length_cons, List.length_nil]

/-- The record on the first page is completed from the third one. -/
theorem brokenSegment_not_contiguous :
    ¬ ((∀ e ∈ recordPlaces brokenSegment 0 0, Contiguous brokenSegment e.raw) ∧
      (recordPlaces brokenSegment 0 0).Pairwise (fun a b => a.raw.Disjoint b.raw)) := by
  unfold recordPlaces
  rw [Int.toNat_zero, foundOn_contiguous_iff]
  intro hnever
  have hroom : roomOn brokenSegment [16384] = 8172 := by
    rw [roomOn, List.filter_cons_of_pos (by simpa using brokenSegment_last)]
    rfl
  have hshort := hnever [0] 8192 [16384] brokenSegment_starts brokenSegment_zeros _
    brokenSegment_open (.inl (Int.le_refl 0))
  rw [hroom] at hshort
  simp only [List.length_range'] at hshort
  omega

end

end LearnPg.Wal
