import LearnPg.Wal.Bytes
import Mathlib.Data.List.Range
import Mathlib.Data.List.Sort

/-! Transaction status pages. A range is read page by page in 32-bit arithmetic;
what comes out is one entry for each xid of the range whose page is there. -/
namespace LearnPg.Clog
open Wal LearnPg.Basis

def pageSize : Nat := 8192
def transactionsPerByte : Nat := 4
def transactionsPerPage : Nat := pageSize * transactionsPerByte
def pagesPerSegment : Nat := 32
def transactionsPerSegment : Nat := transactionsPerPage * pagesPerSegment

def statusInProgress : UInt8 := 0x00
def statusCommitted : UInt8 := 0x01
def statusAborted : UInt8 := 0x02
def statusSubtrans : UInt8 := 0x03

def statusName (s : UInt8) : String :=
  if s = statusInProgress then "in-progress"
  else if s = statusCommitted then "committed"
  else if s = statusAborted then "aborted"
  else if s = statusSubtrans then "subtrans"
  else "unknown"

structure TransactionStatus where
  xid : UInt32
  status : UInt8
  name : String
deriving DecidableEq, Repr

structure Page where
  pageNum : Nat
  startXid : UInt32
  endXid : UInt32
  transactions : List TransactionStatus

/-- Paths as their components. -/
abbrev Path := List String

/-- What can be stat'ed, and the contents of what can be opened and read. -/
structure FileSystem where
  stat : Path → Bool
  file : Path → Option Bytes

def resolveStatusDir (fs : FileSystem) (dataDir : Path) : Path :=
  if fs.stat (dataDir ++ ["pg_xact"]) then dataDir ++ ["pg_xact"]
  else if fs.stat (dataDir ++ ["pg_clog"]) then dataDir ++ ["pg_clog"]
  else dataDir ++ ["pg_xact"]

/-- `%04X`. -/
def segmentName (segment : UInt32) : String := String.ofList (HexText.padded 4 segment.toNat)

def getCLOGPath (fs : FileSystem) (dataDir : Path) (xid : UInt32) : Path :=
  resolveStatusDir fs dataDir ++ [segmentName (xid / UInt32.ofNat transactionsPerSegment)]

def parsePage (pageNum : Nat) (data : Bytes) : Page :=
  let startXid := UInt32.ofNat pageNum * UInt32.ofNat transactionsPerPage
  { pageNum
    startXid
    endXid := startXid + UInt32.ofNat transactionsPerPage - 1
    transactions := (List.range pageSize).flatMap fun byteIdx =>
      (List.range 4).map fun bitPos =>
        let status := (byteAt data byteIdx >>> UInt8.ofNat (bitPos * 2)) &&& 0x03
        ⟨startXid + UInt32.ofNat (byteIdx * 4 + bitPos), status, statusName status⟩ }

/-- A read past the end fails, a read across it is incomplete. -/
def readPage (fs : FileSystem) (filePath : Path) (absolutePageNum pageOffset : Nat) :
    Except String Page :=
  match fs.file filePath with
  | none => .error "cannot open"
  | some content =>
      let data := slice content (pageOffset * pageSize) (pageOffset * pageSize + pageSize)
      if data.length = 0 then .error "EOF"
      else if data.length ≠ pageSize then
        .error ("incomplete read: got " ++ toString data.length ++ ", expected " ++
          toString pageSize)
      else .ok (parsePage absolutePageNum data)

section
variable (fs : FileSystem) (dataDir : Path) (startXid endXid : UInt32)

/-- `segmentPath` of one round of the page loop. -/
def segmentPath (pageNum : UInt32) : Path :=
  resolveStatusDir fs dataDir ++ [segmentName (pageNum / UInt32.ofNat pagesPerSegment)]

/-- What one round of the page loop appends. -/
def pageResults (pageNum : UInt32) : List TransactionStatus :=
  match readPage fs (segmentPath fs dataDir pageNum) pageNum.toNat
      (pageNum % UInt32.ofNat pagesPerSegment).toNat with
  | .ok page => page.transactions.filter fun tx => startXid ≤ tx.xid ∧ tx.xid ≤ endXid
  | .error _ => []

theorem lastPage_lt (xid : UInt32) : (xid / UInt32.ofNat transactionsPerPage).toNat < 131072 := by
  have := xid.toNat_lt
  rw [UInt32.toNat_div]
  show xid.toNat / 32768 < 131072
  omega

theorem pageNum_succ {pageNum : UInt32} (h : pageNum ≤ endXid / UInt32.ofNat transactionsPerPage) :
    (pageNum + 1).toNat = pageNum.toNat + 1 := by
  have hlast := lastPage_lt endXid
  have hle := UInt32.le_iff_toNat_le.mp h
  have hone : (1 : UInt32).toNat = 1 := rfl
  rw [UInt32.toNat_add, hone]
  exact Nat.mod_eq_of_lt (by omega)

/-- The page loop from one page number on. -/
def readPages (pageNum : UInt32) (results : List TransactionStatus) : List TransactionStatus :=
  if _h : pageNum ≤ endXid / UInt32.ofNat transactionsPerPage then
    readPages (pageNum + 1) (results ++ pageResults fs dataDir startXid endXid pageNum)
  else results
termination_by (endXid / UInt32.ofNat transactionsPerPage).toNat + 1 - pageNum.toNat
decreasing_by
  have := pageNum_succ endXid _h
  have := UInt32.le_iff_toNat_le.mp _h
  omega

def readRange : List TransactionStatus :=
  readPages fs dataDir startXid endXid (startXid / UInt32.ofNat transactionsPerPage) []

end

/-! What a range should read. -/

/-- The two bits of the `k`-th transaction of a page, lowest bits first. -/
def twoBits (page : Bytes) (k : Nat) : UInt8 :=
  (byteAt page (k / transactionsPerByte) >>> UInt8.ofNat (k % transactionsPerByte * 2)) &&& 0x03

section
variable (fs : FileSystem) (dataDir : Path)

def pageBytes (xid : UInt32) : Bytes :=
  slice ((fs.file (getCLOGPath fs dataDir xid)).getD [])
    (xid.toNat / transactionsPerPage % pagesPerSegment * pageSize)
    (xid.toNat / transactionsPerPage % pagesPerSegment * pageSize + pageSize)

def PagePresent (xid : UInt32) : Prop :=
  (fs.file (getCLOGPath fs dataDir xid)).isSome ∧ (pageBytes fs dataDir xid).length = pageSize

instance (xid : UInt32) : Decidable (PagePresent fs dataDir xid) :=
  inferInstanceAs (Decidable (_ ∧ _))

def storedStatus (xid : UInt32) : UInt8 :=
  twoBits (pageBytes fs dataDir xid) (xid.toNat % transactionsPerPage)

def entry (xid : UInt32) : TransactionStatus :=
  ⟨xid, storedStatus fs dataDir xid, statusName (storedStatus fs dataDir xid)⟩

def xidRange (startXid endXid : UInt32) : List UInt32 :=
  (List.range' startXid.toNat (endXid.toNat + 1 - startXid.toNat)).map UInt32.ofNat

end

theorem range_blocks {β : Type} (f : Nat → β) (n m : Nat) :
    ((List.range n).flatMap fun i => (List.range m).map fun j => f (i * m + j)) =
      (List.range (n * m)).map f := by
  induction n with
  | zero => simp
  | succ n ih =>
    rw [List.range_succ, List.flatMap_append, ih, Nat.succ_mul, List.range_add, List.map_append,
      List.flatMap_singleton, List.map_map]
    rfl

theorem range'_blocks (first count m : Nat) :
    (List.range' first count).flatMap (fun i => List.range' (i * m) m) =
      List.range' (first * m) (count * m) := by
  induction count generalizing first with
  | zero => simp
  | succ count ih =>
    rw [List.range'_succ, List.flatMap_cons, ih, Nat.succ_mul, Nat.succ_mul,
      Nat.add_comm (count * m), List.range'_append_1]

theorem filter_range' {first count lo hi : Nat} (hlo : first ≤ lo) (hhi : hi < first + count)
    (p : Nat → Bool) :
    (List.range' first count).filter (fun n => (lo ≤ n ∧ n ≤ hi) ∧ p n = true) =
      (List.range' lo (hi + 1 - lo)).filter p := by
  have hsorted (s n : Nat) : (List.range' s n).Pairwise (· < ·) := List.pairwise_lt_range'
  refine ((hsorted first count).filter _).eq_of_mem_iff ((hsorted lo _).filter _) fun n => ?_
  simp only [List.mem_filter, List.mem_range'_1, decide_eq_true_eq]
  constructor
  · rintro ⟨-, ⟨hn, hn'⟩, hp⟩
    exact ⟨by omega, hp⟩
  · rintro ⟨hn, hp⟩
    exact ⟨by omega, by omega, hp⟩

def ReadsPage (fs : FileSystem) (filePath : Path) (pageOffset : Nat) : Prop :=
  (fs.file filePath).isSome ∧ (slice ((fs.file filePath).getD []) (pageOffset * pageSize)
    (pageOffset * pageSize + pageSize)).length = pageSize

theorem readPage_ok {fs : FileSystem} {filePath : Path} {pageOffset : Nat}
    (h : ReadsPage fs filePath pageOffset) (pageNum : Nat) :
    readPage fs filePath pageNum pageOffset =
      .ok (parsePage pageNum (slice ((fs.file filePath).getD []) (pageOffset * pageSize)
        (pageOffset * pageSize + pageSize))) := by
  obtain ⟨hsome, hlength⟩ := h
  obtain ⟨content, hcontent⟩ := Option.isSome_iff_exists.mp hsome
  rw [hcontent, Option.getD_some] at hlength ⊢
  rw [readPage, hcontent]
  dsimp only
  rw [if_neg (by rw [hlength]; decide), if_neg (not_not.mpr hlength)]

theorem readPage_error {fs : FileSystem} {filePath : Path} {pageOffset : Nat} (pageNum : Nat)
    (h : ¬ ReadsPage fs filePath pageOffset) :
    ∃ message, readPage fs filePath pageNum pageOffset = .error message := by
  rw [readPage]
  cases hcontent : fs.file filePath with
  | none => exact ⟨_, rfl⟩
  | some content =>
    dsimp only
    split
    · exact ⟨_, rfl⟩
    · split
      · exact ⟨_, rfl⟩
      · refine absurd ⟨by rw [hcontent]; rfl, ?_⟩ h
        rw [hcontent]
        exact not_not.mp ‹_›

theorem parsePage_transactions (pageNum : Nat) (data : Bytes) :
    (parsePage pageNum data).transactions = (List.range transactionsPerPage).map fun k =>
      ⟨UInt32.ofNat (pageNum * transactionsPerPage + k), twoBits data k,
        statusName (twoBits data k)⟩ := by
  rw [show transactionsPerPage = pageSize * transactionsPerByte from rfl, ← range_blocks]
  simp only [parsePage]
  refine List.flatMap_congr fun i _ => List.map_congr_left fun j hj => ?_
  have hj : j < 4 := List.mem_range.mp hj
  have hbyte : (i * transactionsPerByte + j) / transactionsPerByte = i := by
    simp only [transactionsPerByte]
    omega
  have hbit : (i * transactionsPerByte + j) % transactionsPerByte = j := by
    simp only [transactionsPerByte]
    omega
  have hxid : UInt32.ofNat pageNum * UInt32.ofNat transactionsPerPage +
      UInt32.ofNat (i * 4 + j) = UInt32.ofNat
        (pageNum * (pageSize * transactionsPerByte) + (i * transactionsPerByte + j)) := by
    rw [UInt32.ofNat_add (pageNum * _), UInt32.ofNat_mul]
    rfl
  rw [twoBits, hbyte, hbit, hxid]

section
variable {fs : FileSystem} {dataDir : Path} {startXid endXid : UInt32}

variable (fs dataDir) in
theorem xid_page {pageNum : UInt32} (hpage : pageNum.toNat < 131072) {k : Nat}
    (hk : k < transactionsPerPage) :
    (UInt32.ofNat (pageNum.toNat * transactionsPerPage + k)).toNat =
        pageNum.toNat * transactionsPerPage + k ∧
      getCLOGPath fs dataDir (UInt32.ofNat (pageNum.toNat * transactionsPerPage + k)) =
        segmentPath fs dataDir pageNum := by
  have hk' : k < 32768 := hk
  have hxid : (UInt32.ofNat (pageNum.toNat * transactionsPerPage + k)).toNat =
      pageNum.toNat * transactionsPerPage + k := by
    rw [UInt32.toNat_ofNat']
    apply Nat.mod_eq_of_lt
    show pageNum.toNat * 32768 + k < 2 ^ 32
    omega
  refine ⟨hxid, ?_⟩
  have hsegment : UInt32.ofNat (pageNum.toNat * transactionsPerPage + k) /
      UInt32.ofNat transactionsPerSegment = pageNum / UInt32.ofNat pagesPerSegment := by
    rw [← UInt32.toNat_inj, UInt32.toNat_div, UInt32.toNat_div, hxid]
    show (pageNum.toNat * 32768 + k) / 1048576 = pageNum.toNat / 32
    omega
  rw [getCLOGPath, segmentPath, hsegment]

variable (fs dataDir) in
theorem pageBytes_eq {pageNum : UInt32} (hpage : pageNum.toNat < 131072) {k : Nat}
    (hk : k < transactionsPerPage) :
    pageBytes fs dataDir (UInt32.ofNat (pageNum.toNat * transactionsPerPage + k)) =
      slice ((fs.file (segmentPath fs dataDir pageNum)).getD [])
        ((pageNum % UInt32.ofNat pagesPerSegment).toNat * pageSize)
        ((pageNum % UInt32.ofNat pagesPerSegment).toNat * pageSize + pageSize) := by
  obtain ⟨hxid, hpath⟩ := xid_page fs dataDir hpage hk
  have hoffset : (pageNum.toNat * transactionsPerPage + k) / transactionsPerPage %
      pagesPerSegment = (pageNum % UInt32.ofNat pagesPerSegment).toNat := by
    have hk' : k < 32768 := hk
    rw [UInt32.toNat_mod]
    show (pageNum.toNat * 32768 + k) / 32768 % 32 = pageNum.toNat % 32
    omega
  rw [pageBytes, hpath, hxid, hoffset]

variable (fs dataDir startXid endXid) in
/-- One round of the page loop keeps the xids of the page that are in the range,
if the page is there. -/
theorem pageResults_eq {pageNum : UInt32} (hpage : pageNum.toNat < 131072) :
    pageResults fs dataDir startXid endXid pageNum =
      ((List.range' (pageNum.toNat * transactionsPerPage) transactionsPerPage).filter fun n =>
        (startXid.toNat ≤ n ∧ n ≤ endXid.toNat) ∧
          decide (PagePresent fs dataDir (UInt32.ofNat n)) = true).map
        fun n => entry fs dataDir (UInt32.ofNat n) := by
  have hpath {k : Nat} (hk : k < transactionsPerPage) := xid_page fs dataDir hpage hk
  have hbytes {k : Nat} (hk : k < transactionsPerPage) := pageBytes_eq fs dataDir hpage hk
  have hpresent {k : Nat} (hk : k < transactionsPerPage) :
      PagePresent fs dataDir (UInt32.ofNat (pageNum.toNat * transactionsPerPage + k)) ↔
        ReadsPage fs (segmentPath fs dataDir pageNum)
          (pageNum % UInt32.ofNat pagesPerSegment).toNat := by
    rw [PagePresent, (hpath hk).2, hbytes hk]
    rfl
  rw [List.range'_eq_map_range, List.filter_map, List.map_map, pageResults]
  by_cases hreads : ReadsPage fs (segmentPath fs dataDir pageNum)
      (pageNum % UInt32.ofNat pagesPerSegment).toNat
  · rw [readPage_ok hreads]
    dsimp only
    rw [parsePage_transactions, List.filter_map]
    refine (congrArg (List.map _) (List.filter_congr fun k hk => ?_)).trans
      (List.map_congr_left fun k hk => ?_)
    · have hk := List.mem_range.mp hk
      simp only [Function.comp_apply, UInt32.le_iff_toNat_le, (hpath hk).1, hpresent hk, hreads,
        decide_true, and_true]
    · have hk := List.mem_range.mp (List.mem_of_mem_filter hk)
      have hindex : (pageNum.toNat * transactionsPerPage + k) % transactionsPerPage = k :=
        Nat.mul_add_mod_of_lt hk
      simp only [Function.comp_apply, entry, storedStatus, hbytes hk, (hpath hk).1, hindex]
  · obtain ⟨message, herror⟩ := readPage_error pageNum.toNat hreads
    rw [herror]
    symm
    rw [List.map_eq_nil_iff, List.filter_eq_nil_iff]
    intro k hk
    simp only [Function.comp_apply, hpresent (List.mem_range.mp hk), hreads, decide_false,
      Bool.false_eq_true, and_false, not_false_eq_true]

theorem readPages_eq (pageNum : UInt32) (results : List TransactionStatus) :
    readPages fs dataDir startXid endXid pageNum results = results ++
      (List.range' pageNum.toNat
        ((endXid / UInt32.ofNat transactionsPerPage).toNat + 1 - pageNum.toNat)).flatMap
        fun p => pageResults fs dataDir startXid endXid (UInt32.ofNat p) := by
  induction pageNum, results using readPages.induct fs dataDir startXid endXid with
  | case1 pageNum results h ih =>
    have hle := UInt32.le_iff_toNat_le.mp h
    have hsucc := pageNum_succ endXid h
    have hcount : (endXid / UInt32.ofNat transactionsPerPage).toNat + 1 - pageNum.toNat =
        ((endXid / UInt32.ofNat transactionsPerPage).toNat + 1 - (pageNum.toNat + 1)) + 1 := by
      omega
    rw [readPages, dif_pos h, ih, hsucc, hcount, List.range'_succ, List.flatMap_cons,
      UInt32.ofNat_toNat, List.append_assoc]
  | case2 pageNum results h =>
    have hlt : (endXid / UInt32.ofNat transactionsPerPage).toNat + 1 - pageNum.toNat = 0 := by
      rw [UInt32.le_iff_toNat_le] at h
      omega
    rw [readPages, dif_neg h, hlt]
    simp

theorem readRange_eq (fs : FileSystem) (dataDir : Path) (startXid endXid : UInt32) :
    readRange fs dataDir startXid endXid =
      ((xidRange startXid endXid).filter (PagePresent fs dataDir ·)).map (entry fs dataDir) := by
  have hstart : (startXid / UInt32.ofNat transactionsPerPage).toNat = startXid.toNat / 32768 := by
    rw [UInt32.toNat_div]
    rfl
  have hend : (endXid / UInt32.ofNat transactionsPerPage).toNat = endXid.toNat / 32768 := by
    rw [UInt32.toNat_div]
    rfl
  have hN : transactionsPerPage = 32768 := rfl
  rw [readRange, readPages_eq, List.nil_append, hstart, hend]
  have hpages : ∀ p ∈ List.range' (startXid.toNat / 32768)
        (endXid.toNat / 32768 + 1 - startXid.toNat / 32768),
      pageResults fs dataDir startXid endXid (UInt32.ofNat p) =
        ((List.range' (p * transactionsPerPage) transactionsPerPage).filter fun n =>
          (startXid.toNat ≤ n ∧ n ≤ endXid.toNat) ∧
            decide (PagePresent fs dataDir (UInt32.ofNat n)) = true).map
          fun n => entry fs dataDir (UInt32.ofNat n) := by
    intro p hp
    have hlast := endXid.toNat_lt
    rw [List.mem_range'_1] at hp
    have hp' : (UInt32.ofNat p).toNat = p := by
      rw [UInt32.toNat_ofNat']
      exact Nat.mod_eq_of_lt (by omega)
    have := pageResults_eq fs dataDir startXid endXid (hp'.trans_lt (by omega : p < 131072))
    rwa [hp'] at this
  rw [List.flatMap_congr hpages, ← List.map_flatMap, ← List.filter_flatMap, range'_blocks, hN,
    filter_range' (by omega) (by omega), xidRange, List.filter_map, List.map_map]
  rfl

/-- Reading a range yields an entry for each of its xids whose page is present,
in ascending order, and consults for each the file that its path names. -/
theorem readRange_exact (fs : FileSystem) (dataDir : Path) (startXid endXid : UInt32) :
    readRange fs dataDir startXid endXid =
        ((xidRange startXid endXid).filter (PagePresent fs dataDir ·)).map (entry fs dataDir) ∧
      ((readRange fs dataDir startXid endXid).map TransactionStatus.xid).Pairwise (· < ·) ∧
      ∀ xid, segmentPath fs dataDir (xid / UInt32.ofNat transactionsPerPage) =
        getCLOGPath fs dataDir xid := by
  refine ⟨readRange_eq .., ?_, fun xid => ?_⟩
  · have hxids : ((readRange fs dataDir startXid endXid).map TransactionStatus.xid) =
        (xidRange startXid endXid).filter (PagePresent fs dataDir ·) := by
      rw [readRange_eq, List.map_map]
      exact List.map_id _
    rw [hxids]
    refine List.Pairwise.filter _ ?_
    rw [xidRange, List.pairwise_map]
    have hsorted : (List.range' startXid.toNat (endXid.toNat + 1 - startXid.toNat)).Pairwise
      (· < ·) := List.pairwise_lt_range'
    refine hsorted.imp_of_mem fun {m n} _ hn hmn => ?_
    have hlast := endXid.toNat_lt
    rw [List.mem_range'_1] at hn
    rw [UInt32.lt_iff_toNat_lt, UInt32.toNat_ofNat', UInt32.toNat_ofNat',
      Nat.mod_eq_of_lt (by omega), Nat.mod_eq_of_lt (by omega)]
    exact hmn
  · have hsegment : xid / UInt32.ofNat transactionsPerPage / UInt32.ofNat pagesPerSegment =
        xid / UInt32.ofNat transactionsPerSegment := by
      rw [← UInt32.toNat_inj, UInt32.toNat_div, UInt32.toNat_div, UInt32.toNat_div]
      show xid.toNat / 32768 / 32 = xid.toNat / 1048576
      omega
    rw [segmentPath, getCLOGPath, hsegment]

end

end LearnPg.Clog
