import LearnPg.Clog.Reader

/-! A whole segment file read at once, for the file view of the API. Its xids
are counted from the start of the file, not from the segment that the file's name
gives, so it agrees with reading the segment's range on one file only, segment
zero, and on files too short to hold a page. -/
namespace LearnPg.Clog
open Wal

/-- `ReadPage`: the page number is taken as absolute, its place in the file
modulo the segment. -/
def CLOGReader.readPage (fs : FileSystem) (filePath : Path) (pageNum : Nat) : Except String Page :=
  Clog.readPage fs filePath pageNum (pageNum % pagesPerSegment)

section
variable (fs : FileSystem) (filePath : Path)

/-- What one round of the loop over the file's pages appends. The absolute page
number, which the source computes from the file's name, is dropped there. -/
def filePageResults (pageIdx : Nat) : List (UInt32 × String) :=
  match CLOGReader.readPage fs filePath pageIdx with
  | .ok page => page.transactions.map fun tx => (tx.xid, tx.name)
  | .error _ => []

def readCLOGFile : Except String (List (UInt32 × String)) :=
  match fs.file filePath with
  | none => .error "cannot open"
  | some content =>
    let fileSize := content.length
    let numPages :=
      if fileSize % pageSize ≠ 0 then fileSize / pageSize + 1 else fileSize / pageSize
    .ok ((List.range numPages).flatMap (filePageResults fs filePath))

end

/-- The entries of the page at `offset`, counted from `firstXid`, if the page is
whole. -/
def pageEntries (content : Bytes) (offset firstXid : Nat) : List (UInt32 × String) :=
  if (offset + 1) * pageSize ≤ content.length then
    (List.range transactionsPerPage).map fun k => (UInt32.ofNat (firstXid + k),
      statusName (twoBits (slice content (offset * pageSize) (offset * pageSize + pageSize)) k))
  else []

theorem pageEntries_missing {content : Bytes} {offset firstXid : Nat}
    (h : content.length < (offset + 1) * pageSize) : pageEntries content offset firstXid = [] :=
  if_neg (by omega)

theorem pageEntries_head {content : Bytes} {offset : Nat} (firstXid : Nat)
    (h : (offset + 1) * pageSize ≤ content.length) :
    ∃ name rest, pageEntries content offset firstXid = (UInt32.ofNat firstXid, name) :: rest := by
  have hcount : transactionsPerPage = 32767 + 1 := by decide
  rw [pageEntries, if_pos h, hcount, List.range_succ_eq_map, List.map_cons, Nat.add_zero]
  exact ⟨_, _, rfl⟩

section
variable {fs : FileSystem} {filePath : Path} {content : Bytes}

theorem readsPage_iff (hfile : fs.file filePath = some content) (offset : Nat) :
    ReadsPage fs filePath offset ↔ (offset + 1) * pageSize ≤ content.length := by
  have hsize : 0 < pageSize := by decide
  rw [ReadsPage, hfile, Option.getD_some, slice_length, Nat.succ_mul]
  simp only [Option.isSome_some, true_and]
  omega

theorem readPage_entries (hfile : fs.file filePath = some content) (pageNum offset : Nat) :
    (match readPage fs filePath pageNum offset with
      | .ok page => page.transactions.map fun tx => (tx.xid, tx.name)
      | .error _ => []) = pageEntries content offset (pageNum * transactionsPerPage) := by
  by_cases hreads : ReadsPage fs filePath offset
  · rw [readPage_ok hreads, pageEntries, if_pos ((readsPage_iff hfile offset).mp hreads)]
    dsimp only
    rw [parsePage_transactions, List.map_map, hfile]
    rfl
  · obtain ⟨message, herror⟩ := readPage_error pageNum hreads
    rw [herror, pageEntries, if_neg ((readsPage_iff hfile offset).not.mp hreads)]

theorem readCLOGFile_eq (hfile : fs.file filePath = some content) :
    readCLOGFile fs filePath = .ok ((List.range ((content.length + 8191) / pageSize)).flatMap
      fun pageIdx =>
        pageEntries content (pageIdx % pagesPerSegment) (pageIdx * transactionsPerPage)) := by
  have hpages : (if content.length % pageSize ≠ 0 then content.length / pageSize + 1
      else content.length / pageSize) = (content.length + 8191) / pageSize := by
    have hsize : pageSize = 8192 := rfl
    rw [hsize]
    by_cases h : content.length % 8192 = 0
    · rw [if_neg (not_not.mpr h)]
      omega
    · rw [if_pos h]
      omega
  rw [readCLOGFile, hfile]
  dsimp only
  rw [hpages]
  refine congrArg Except.ok (List.flatMap_congr fun pageIdx _ => ?_)
  exact readPage_entries hfile pageIdx (pageIdx % pagesPerSegment)

end

section
variable {fs : FileSystem} {dataDir : Path} {content : Bytes} {n : Nat}

def segmentFirst (n : Nat) : UInt32 := UInt32.ofNat (n * transactionsPerSegment)

def segmentLast (n : Nat) : UInt32 :=
  UInt32.ofNat (n * transactionsPerSegment + (transactionsPerSegment - 1))

theorem segmentFirst_toNat (hn : n < 4096) : (segmentFirst n).toNat = n * 1048576 := by
  rw [segmentFirst, UInt32.toNat_ofNat']
  show n * 1048576 % 2 ^ 32 = _
  omega

theorem segmentLast_toNat (hn : n < 4096) : (segmentLast n).toNat = n * 1048576 + 1048575 := by
  rw [segmentLast, UInt32.toNat_ofNat']
  show (n * 1048576 + 1048575) % 2 ^ 32 = _
  omega

theorem segment_pageResults (hn : n < 4096)
    (hfile : fs.file (resolveStatusDir fs dataDir ++ [segmentName (UInt32.ofNat n)]) = some content)
    {i : Nat} (hi : i < pagesPerSegment) :
    (pageResults fs dataDir (segmentFirst n) (segmentLast n)
        (UInt32.ofNat (n * pagesPerSegment + i))).map (fun tx => (tx.xid, tx.name)) =
      pageEntries content i ((n * pagesPerSegment + i) * transactionsPerPage) := by
  have hi : i < 32 := hi
  have hpage : (UInt32.ofNat (n * pagesPerSegment + i)).toNat = n * pagesPerSegment + i := by
    rw [UInt32.toNat_ofNat']
    show (n * 32 + i) % 2 ^ 32 = n * 32 + i
    omega
  have hoffset : (UInt32.ofNat (n * pagesPerSegment + i) % UInt32.ofNat pagesPerSegment).toNat =
      i := by
    rw [UInt32.toNat_mod, hpage]
    show (n * 32 + i) % 32 = i
    omega
  have hsegment : UInt32.ofNat (n * pagesPerSegment + i) / UInt32.ofNat pagesPerSegment =
      UInt32.ofNat n := by
    rw [← UInt32.toNat_inj, UInt32.toNat_div, hpage, UInt32.toNat_ofNat']
    show (n * 32 + i) / 32 = n % 2 ^ 32
    omega
  have hpath : segmentPath fs dataDir (UInt32.ofNat (n * pagesPerSegment + i)) =
      resolveStatusDir fs dataDir ++ [segmentName (UInt32.ofNat n)] := by
    rw [segmentPath, hsegment]
  rw [← readPage_entries hfile, pageResults, hpath, hpage, hoffset]
  cases hread : readPage fs (resolveStatusDir fs dataDir ++ [segmentName (UInt32.ofNat n)])
      (n * pagesPerSegment + i) i with
  | error message => rfl
  | ok page =>
    dsimp only
    rw [List.filter_eq_self.mpr]
    intro tx htx
    have hreads : ReadsPage fs (resolveStatusDir fs dataDir ++ [segmentName (UInt32.ofNat n)]) i :=
      by_contra fun hnot => by
        obtain ⟨message, herror⟩ := readPage_error (n * pagesPerSegment + i) hnot
        rw [herror] at hread
        cases hread
    rw [readPage_ok hreads] at hread
    cases hread
    rw [parsePage_transactions] at htx
    obtain ⟨k, hk, rfl⟩ := List.mem_map.mp htx
    have hk : k < 32768 := List.mem_range.mp hk
    have hlast : (UInt32.ofNat (n * pagesPerSegment + i)).toNat < 131072 := by
      rw [hpage]
      show n * 32 + i < 131072
      omega
    have hxid := (xid_page fs dataDir hlast hk).1
    rw [hpage] at hxid
    have hvalue : (n * pagesPerSegment + i) * transactionsPerPage + k =
      n * 1048576 + (i * 32768 + k) := by
      show (n * 32 + i) * 32768 + k = _
      omega
    simp only [decide_eq_true_eq, UInt32.le_iff_toNat_le, hxid, segmentFirst_toNat hn,
      segmentLast_toNat hn]
    omega

theorem readRange_segment (hn : n < 4096)
    (hfile : fs.file (resolveStatusDir fs dataDir ++ [segmentName (UInt32.ofNat n)]) =
      some content) :
    (readRange fs dataDir (segmentFirst n) (segmentLast n)).map (fun tx => (tx.xid, tx.name)) =
      (List.range pagesPerSegment).flatMap fun i =>
        pageEntries content i ((n * pagesPerSegment + i) * transactionsPerPage) := by
  have hstart : (segmentFirst n / UInt32.ofNat transactionsPerPage).toNat =
      n * pagesPerSegment := by
    rw [UInt32.toNat_div, segmentFirst_toNat hn]
    show n * 1048576 / 32768 = n * 32
    omega
  have hcount : (segmentLast n / UInt32.ofNat transactionsPerPage).toNat + 1 -
      n * pagesPerSegment = pagesPerSegment := by
    rw [UInt32.toNat_div, segmentLast_toNat hn]
    show (n * 1048576 + 1048575) / 32768 + 1 - n * 32 = 32
    omega
  rw [readRange, readPages_eq, List.nil_append, hstart, hcount, List.range'_eq_map_range,
    List.flatMap_map, List.map_flatMap]
  exact List.flatMap_congr fun i hi => segment_pageResults hn hfile (List.mem_range.mp hi)

theorem filePages_split (hlong : pagesPerSegment ≤ (content.length + 8191) / pageSize) :
    (List.range ((content.length + 8191) / pageSize)).flatMap (fun pageIdx =>
        pageEntries content (pageIdx % pagesPerSegment) (pageIdx * transactionsPerPage)) =
      (List.range pagesPerSegment).flatMap (fun i =>
        pageEntries content i (i * transactionsPerPage)) ++
      (List.range ((content.length + 8191) / pageSize - pagesPerSegment)).flatMap fun i =>
        pageEntries content ((pagesPerSegment + i) % pagesPerSegment)
          ((pagesPerSegment + i) * transactionsPerPage) := by
  have hsplit : (content.length + 8191) / pageSize = pagesPerSegment +
    ((content.length + 8191) / pageSize - pagesPerSegment) := by omega
  conv_lhs => rw [hsplit, List.range_add, List.flatMap_append, List.flatMap_map]
  refine congrArg (· ++ _) (List.flatMap_congr fun i hi => ?_)
  rw [Nat.mod_eq_of_lt (List.mem_range.mp hi)]

theorem filePages_short (hshort : content.length ≤ pagesPerSegment * pageSize) :
    (List.range ((content.length + 8191) / pageSize)).flatMap (fun pageIdx =>
        pageEntries content (pageIdx % pagesPerSegment) (pageIdx * transactionsPerPage)) =
      (List.range pagesPerSegment).flatMap fun i =>
        pageEntries content i (i * transactionsPerPage) := by
  have hshort : content.length ≤ 32 * 8192 := hshort
  have hsplit : pagesPerSegment = (content.length + 8191) / pageSize +
      (pagesPerSegment - (content.length + 8191) / pageSize) := by
    show 32 = (content.length + 8191) / 8192 + (32 - (content.length + 8191) / 8192)
    omega
  conv_rhs => rw [hsplit, List.range_add, List.flatMap_append, List.flatMap_map]
  have hrest : (List.range (pagesPerSegment - (content.length + 8191) / pageSize)).flatMap
      (fun i => pageEntries content ((content.length + 8191) / pageSize + i)
        (((content.length + 8191) / pageSize + i) * transactionsPerPage)) = [] := by
    refine List.flatMap_eq_nil_iff.mpr fun i _ => pageEntries_missing ?_
    show content.length < ((content.length + 8191) / 8192 + i + 1) * 8192
    omega
  rw [hrest, List.append_nil]
  refine List.flatMap_congr fun i hi => ?_
  have hi : i < (content.length + 8191) / 8192 := List.mem_range.mp hi
  have hi : i < pagesPerSegment := Nat.lt_of_lt_of_le hi (by show _ ≤ 32; omega)
  rw [Nat.mod_eq_of_lt hi]

theorem range_flatMap_head {β : Type} {f : Nat → List β} {m : Nat} (hm : 0 < m) {x : β}
    {xs : List β} (h : f 0 = x :: xs) : ∃ ys, (List.range m).flatMap f = x :: ys := by
  obtain ⟨m, rfl⟩ := Nat.exists_eq_succ_of_ne_zero hm.ne'
  rw [List.range_succ_eq_map, List.flatMap_cons, h, List.cons_append]
  exact ⟨_, rfl⟩

theorem readCLOGFile_ne_of_ne_zero (hn : n < 4096)
    (hfile : fs.file (resolveStatusDir fs dataDir ++ [segmentName (UInt32.ofNat n)]) = some content)
    (hzero : n ≠ 0) (hpage : pageSize ≤ content.length) :
    readCLOGFile fs (resolveStatusDir fs dataDir ++ [segmentName (UInt32.ofNat n)]) ≠
      .ok ((readRange fs dataDir (segmentFirst n) (segmentLast n)).map
        fun tx => (tx.xid, tx.name)) := by
  rw [readCLOGFile_eq hfile, readRange_segment hn hfile]
  intro hagree
  have hpos : 0 < (content.length + 8191) / pageSize := by
    have hpage : 8192 ≤ content.length := hpage
    show 0 < (content.length + 8191) / 8192
    omega
  have hwhole : (0 + 1) * pageSize ≤ content.length := by omega
  obtain ⟨name, rest, hhead⟩ := pageEntries_head (0 * transactionsPerPage) hwhole
  obtain ⟨name', rest', hhead'⟩ :=
    pageEntries_head ((n * pagesPerSegment + 0) * transactionsPerPage) hwhole
  obtain ⟨ys, hfile⟩ := range_flatMap_head (f := fun pageIdx =>
    pageEntries content (pageIdx % pagesPerSegment) (pageIdx * transactionsPerPage)) hpos hhead
  obtain ⟨ys', hrange⟩ := range_flatMap_head (f := fun i =>
    pageEntries content i ((n * pagesPerSegment + i) * transactionsPerPage))
    (show 0 < pagesPerSegment by decide) hhead'
  rw [Except.ok.injEq, hfile, hrange, List.cons.injEq, Prod.mk.injEq] at hagree
  have hxid := congrArg UInt32.toNat hagree.1.1
  rw [UInt32.toNat_ofNat', UInt32.toNat_ofNat'] at hxid
  have hxid : 0 * 32768 % 2 ^ 32 = (n * 32 + 0) * 32768 % 2 ^ 32 := hxid
  omega

/-- The two agree exactly on files too short for a page and on segment zero, if
its file is not longer than a segment. -/
theorem readCLOGFile_agrees_iff (fs : FileSystem) (dataDir : Path) {n : Nat} (hn : n < 4096)
    {content : Bytes} (hfile : fs.file
      (resolveStatusDir fs dataDir ++ [segmentName (UInt32.ofNat n)]) = some content) :
    readCLOGFile fs (resolveStatusDir fs dataDir ++ [segmentName (UInt32.ofNat n)]) =
        .ok ((readRange fs dataDir (segmentFirst n) (segmentLast n)).map
          fun tx => (tx.xid, tx.name)) ↔
      content.length < pageSize ∨ n = 0 ∧ content.length ≤ pagesPerSegment * pageSize := by
  by_cases hempty : content.length < pageSize
  · have hnone (offset firstXid : Nat) : pageEntries content offset firstXid = [] :=
      pageEntries_missing (by rw [Nat.succ_mul]; omega)
    rw [readCLOGFile_eq hfile, readRange_segment hn hfile]
    simp only [hempty, true_or, hnone, List.flatMap_eq_nil_iff.mpr fun _ _ => rfl]
  have hpage : pageSize ≤ content.length := by omega
  by_cases hzero : n = 0
  · subst hzero
    rw [readCLOGFile_eq hfile, readRange_segment hn hfile, Except.ok.injEq]
    simp only [Nat.zero_mul, Nat.zero_add, hempty, false_or, true_and]
    constructor
    · intro hagree
      by_contra hlong
      have hpages : pagesPerSegment < (content.length + 8191) / pageSize := by
        have hlong : ¬ content.length ≤ 32 * 8192 := hlong
        show 32 < (content.length + 8191) / 8192
        omega
      rw [filePages_split (by omega), List.append_right_eq_self] at hagree
      have hfirst := List.flatMap_eq_nil_iff.mp hagree 0 (List.mem_range.mpr (by omega))
      -- The page after the last one of the segment is its first page again.
      have hwhole : ((pagesPerSegment + 0) % pagesPerSegment + 1) * pageSize ≤ content.length := by
        show (0 + 1) * pageSize ≤ content.length
        omega
      obtain ⟨name, rest, hhead⟩ :=
        pageEntries_head ((pagesPerSegment + 0) * transactionsPerPage) hwhole
      rw [hhead] at hfirst
      cases hfirst
    · exact filePages_short
  · simp only [hempty, hzero, false_and, or_self, iff_false]
    exact readCLOGFile_ne_of_ne_zero hn hfile hzero hpage

end

def oneSegment (n : Nat) (content : Bytes) : FileSystem where
  stat := fun _ => true
  file := fun path =>
    if path = ["data", "pg_xact", segmentName (UInt32.ofNat n)] then some content else none

theorem oneSegment_file (n : Nat) (content : Bytes) :
    (oneSegment n content).file (resolveStatusDir (oneSegment n content) ["data"] ++
      [segmentName (UInt32.ofNat n)]) = some content := by
  simp [oneSegment, resolveStatusDir]

def committedPage : Bytes := List.replicate pageSize 0x55

theorem readCLOGFile_agrees_committed :
    readCLOGFile (oneSegment 0 committedPage)
        (resolveStatusDir (oneSegment 0 committedPage) ["data"] ++ [segmentName (UInt32.ofNat 0)]) =
        .ok ((readRange (oneSegment 0 committedPage) ["data"] (segmentFirst 0) (segmentLast 0)).map
          fun tx => (tx.xid, tx.name)) ∧
      ∃ name rest, readCLOGFile (oneSegment 0 committedPage)
        (resolveStatusDir (oneSegment 0 committedPage) ["data"] ++ [segmentName (UInt32.ofNat 0)]) =
          .ok ((0, name) :: rest) := by
  have hlength : committedPage.length = pageSize := List.length_replicate
  have hwhole : (0 + 1) * pageSize ≤ committedPage.length := by
    rw [hlength, Nat.zero_add, Nat.one_mul]
  have hfits : committedPage.length ≤ pagesPerSegment * pageSize := by
    rw [hlength]
    decide
  have hpos : 0 < (committedPage.length + 8191) / pageSize := by
    rw [hlength]
    decide
  refine ⟨(readCLOGFile_agrees_iff (n := 0) (oneSegment 0 committedPage) ["data"] (by decide)
    (oneSegment_file 0 committedPage)).mpr (.inr ⟨rfl, hfits⟩), ?_⟩
  obtain ⟨name, rest, hhead⟩ := pageEntries_head (0 * transactionsPerPage) hwhole
  obtain ⟨xs, hxs⟩ := range_flatMap_head (f := fun pageIdx => pageEntries committedPage
    (pageIdx % pagesPerSegment) (pageIdx * transactionsPerPage)) hpos hhead
  exact ⟨name, xs, by rw [readCLOGFile_eq (oneSegment_file 0 committedPage), hxs]; rfl⟩

/-- Segment one, one page of zeros: the file view counts its xids from zero. -/
theorem readCLOGFile_differs :
    ¬ ∀ (fs : FileSystem) (dataDir : Path) (n : Nat) (content : Bytes), n < 4096 →
      fs.file (resolveStatusDir fs dataDir ++ [segmentName (UInt32.ofNat n)]) = some content →
      readCLOGFile fs (resolveStatusDir fs dataDir ++ [segmentName (UInt32.ofNat n)]) =
        .ok ((readRange fs dataDir (segmentFirst n) (segmentLast n)).map
          fun tx => (tx.xid, tx.name)) := by
  intro h
  have hfile := oneSegment_file 1 (List.replicate pageSize 0)
  have hpage : pageSize ≤ (List.replicate pageSize (0 : UInt8)).length := by
    rw [List.length_replicate]
  exact readCLOGFile_ne_of_ne_zero (by decide) hfile (by decide) hpage
    (h _ ["data"] 1 _ (by decide) hfile)

end LearnPg.Clog
