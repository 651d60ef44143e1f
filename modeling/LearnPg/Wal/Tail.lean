import LearnPg.Wal.Directory
import LearnPg.Basis.Sorts
import LearnPg.Basis.Windows

/-! The newest records of the directory, and when they are the last ones of the log. -/
namespace LearnPg.Wal
open LearnPg.Basis.RecordScan LearnPg.Basis.Sorts LearnPg.Basis.Windows

/-- The records of all segments from the newest down, as long as there are fewer than twice
the limit; segments that cannot be read are skipped. -/
def readTail (limit : Int64) : List Entry → List Record → List Record
  | [], records => records
  | e :: older, records =>
    if (records.length : Int) < (limit * 2).toInt then
      match readRecords e.file (extractSegNum e.name) 0 0 with
      | .error _ => readTail limit older records
      | .ok segmentRecords =>
        if segmentRecords = [] then readTail limit older records
        else readTail limit older (segmentRecords ++ records)
    else records

def Record.lsnKey (r : Record) : Nat := r.lsnValue.toNat

/-- `TailRecords`; `sort.Slice` is any sort by the LSN. -/
def tailRecords (σ : SliceSort Record.lsnKey) (dir : Except String WalDir) (limit : Int64) :
    Except String (List Record) :=
  let limit := if limit ≤ 0 then 100 else limit
  match listWALSegments dir with
  | .error err => .error err
  | .ok [] => .ok []
  | .ok segments =>
    let records := σ.sort (readTail limit segments.reverse [])
    if limit.toInt < records.length then
      .ok (records.drop (records.length - limit.toNatClampNeg))
    else .ok records

def Entry.records (e : Entry) : List Record :=
  match readRecords e.file (extractSegNum e.name) 0 0 with
  | .error _ => []
  | .ok records => records

def WalDir.records (dir : WalDir) : List Record := dir.segments.flatMap Entry.records

/-- The records of the fewest newest segments that hold at least `n`; all if none do. -/
def newestHolding (n : Nat) : List Entry → List Record
  | [] => []
  | e :: newer =>
    if (newestHolding n newer).length < n then e.records ++ newestHolding n newer
    else newestHolding n newer

/-! What is read. -/

variable {limit : Int64}

theorem readTail_append (newer older : List Entry) (records : List Record) :
    readTail limit (newer ++ older) records =
      readTail limit older (readTail limit newer records) := by
  induction newer generalizing records with
  | nil => rfl
  | cons e newer ih =>
    rw [List.cons_append, readTail, readTail]
    split
    · split
      · exact ih _
      · split
        · exact ih _
        · exact ih _
    · cases older with
      | nil => rfl
      | cons e' older => rw [readTail, if_neg ‹_›]

theorem readTail_singleton (e : Entry) (records : List Record) :
    readTail limit [e] records =
      if (records.length : Int) < (limit * 2).toInt then e.records ++ records else records := by
  rw [readTail, Entry.records]
  split
  · split
    · rfl
    · split
      · next h => rw [h]; rfl
      · rfl
  · rfl

theorem readTail_reverse (segments : List Entry) :
    readTail limit segments.reverse [] = newestHolding (limit * 2).toInt.toNat segments := by
  induction segments with
  | nil => rfl
  | cons e newer ih =>
    rw [List.reverse_cons, readTail_append, readTail_singleton, ih, newestHolding]
    simp only [Int.lt_toNat]

theorem newestHolding_suffix (n : Nat) (segments : List Entry) :
    ∃ older, segments.flatMap Entry.records = older ++ newestHolding n segments ∧
      (older = [] ∨ n ≤ (newestHolding n segments).length) := by
  induction segments with
  | nil => exact ⟨[], rfl, .inl rfl⟩
  | cons e newer ih =>
    obtain ⟨older, heq, hroom⟩ := ih
    rw [List.flatMap_cons, heq, newestHolding]
    split
    · next hlt =>
      obtain rfl := hroom.resolve_right (by omega)
      exact ⟨[], rfl, .inl rfl⟩
    · next hle => exact ⟨e.records ++ older, (List.append_assoc _ _ _).symm, .inr (by omega)⟩

theorem doubled (hlimit : 0 < limit) :
    (limit * 2).toInt.toNat = if limit.toInt < 2 ^ 62 then 2 * limit.toNatClampNeg else 0 := by
  have hpos : 0 < limit.toInt := Int64.lt_iff_toInt_lt.mp hlimit
  have hbound := limit.toInt_lt
  have htwo : (2 : Int64).toInt = 2 := by decide
  have hnat : limit.toNatClampNeg = limit.toInt.toNat := rfl
  rw [Int64.toInt_mul, htwo, hnat]
  split
  · rw [Int.bmod_eq_of_le (by omega) (by omega)]
    omega
  · have hwraps : (limit.toInt * 2).bmod (2 ^ 64) = limit.toInt * 2 - 2 ^ 64 := by
      rw [Int.bmod_def]
      omega
    omega

/-! The tail. -/

theorem tailRecords_eq (σ : SliceSort Record.lsnKey) (dir : WalDir) (hlimit : 0 < limit) :
    tailRecords σ (.ok dir) limit =
      .ok ((σ.sort (newestHolding (limit * 2).toInt.toNat dir.segments)).rtake
        limit.toNatClampNeg) := by
  have hnat : limit.toNatClampNeg = limit.toInt.toNat := rfl
  have hpos : ¬ limit ≤ 0 := Int64.not_le.mpr hlimit
  rw [← readTail_reverse, tailRecords]
  simp only [if_neg hpos, listWALSegments]
  cases hsegments : dir.segments with
  | nil =>
    have hnil : σ.sort [] = [] := List.perm_nil.mp (σ.perm [])
    simp [readTail, hnil]
  | cons e rest =>
    dsimp only
    split
    · rfl
    · next hall =>
      rw [List.rtake, Nat.sub_eq_zero_of_le (by omega), List.drop_zero]

theorem newestHolding_zero (segments : List Entry) : newestHolding 0 segments = [] := by
  induction segments with
  | nil => rfl
  | cons e newer ih => rw [newestHolding, if_neg (Nat.not_lt_zero _), ih]

theorem newestHolding_nil {dir : WalDir} (h : dir.records = []) (n : Nat) :
    newestHolding n dir.segments = [] := by
  obtain ⟨older, heq, -⟩ := newestHolding_suffix n dir.segments
  exact (List.append_eq_nil_iff.mp (heq.symm.trans h)).2

/-- The last records read are the last ones of the log. -/
theorem rtake_newestHolding (dir : WalDir) {m n : Nat} (h : n ≤ m) :
    (newestHolding m dir.segments).rtake n = dir.records.rtake n := by
  obtain ⟨older, heq, hroom⟩ := newestHolding_suffix m dir.segments
  rw [WalDir.records, heq]
  rcases hroom with rfl | hroom
  · rfl
  · exact (rtake_append older _ (h.trans hroom)).symm

/-- With a positive limit the newest records are the last ones of the log, whatever the sort,
exactly if twice the limit does not wrap around, or there are no records, and the last `limit`
of the records read have LSNs above those of all before them (or equal them). -/
theorem tailRecords_tail_iff (dir : WalDir) (limit : Int64) (hlimit : 0 < limit) :
    (∀ σ, tailRecords σ (.ok dir) limit = .ok (dir.records.rtake limit.toNatClampNeg)) ↔
      (2 ^ 62 ≤ limit.toInt → dir.records = []) ∧
        Settled Record.lsnKey (newestHolding (2 * limit.toNatClampNeg) dir.segments)
          ((newestHolding (2 * limit.toNatClampNeg) dir.segments).length -
            limit.toNatClampNeg) := by
  have hpos : 0 < limit.toInt := Int64.lt_iff_toInt_lt.mp hlimit
  have hnat : limit.toNatClampNeg = limit.toInt.toNat := rfl
  simp only [tailRecords_eq _ dir hlimit, doubled hlimit, Except.ok.injEq]
  by_cases hwraps : limit.toInt < 2 ^ 62
  · rw [if_pos hwraps, ← rtake_newestHolding dir (show limit.toNatClampNeg ≤
      2 * limit.toNatClampNeg by omega), ← drop_sort_iff]
    have hlen (σ : SliceSort Record.lsnKey) (l : List Record) :
        (σ.sort l).length = l.length := (σ.perm l).length_eq
    simp only [List.rtake, hlen]
    exact (and_iff_right fun h => absurd h (by omega)).symm
  · rw [if_neg hwraps, newestHolding_zero]
    have hnil (σ : SliceSort Record.lsnKey) : σ.sort [] = [] := List.perm_nil.mp (σ.perm [])
    have hall : ([] : List Record).rtake limit.toNatClampNeg =
        dir.records.rtake limit.toNatClampNeg ↔ dir.records = [] := by
      rw [List.rtake_nil, eq_comm, rtake_eq_nil (by omega)]
    simp only [hnil, hall]
    constructor
    · intro h
      have hrecords := h (insertion _)
      refine ⟨fun _ => hrecords, ?_⟩
      rw [newestHolding_nil hrecords]
      intro i j hi
      contradiction
    · exact fun h _ => h.1 (by omega)

def oneRecordPage : Bytes :=
  [0x18, 0xD1] ++ List.replicate 38 0 ++ [24, 0, 0, 0] ++ List.replicate 8148 0

def crossedEntry : Entry :=
  ⟨"000000010000000000000004", false, .ok (oneRecordPage ++ recordsPage)⟩

def crossedDir : WalDir := ⟨[crossedEntry], by simp⟩

def firstPageRecord : Extent UInt8 := ⟨0, 40, (oneRecordPage.drop 40).take 24⟩

theorem crossed_extents : segmentExtents (oneRecordPage ++ recordsPage) 0 =
    [firstPageRecord, secondPageRecord 20, secondPageRecord 44] := by
  have hlength : oneRecordPage.length = pageSize := by
    simp only [oneRecordPage, List.length_append, List.length_replicate, List.length_cons,
      List.length_nil, pageSize]
  have hlen : walFormat.lenOf (oneRecordPage.drop 40) = 24 := by decide
  have hlast : walFormat.scanFrom ⟨0, 40, 40, oneRecordPage⟩ 64 = ([], none) :=
    scanFrom_short (by decide) (by decide)
  have hfirst : walFormat.scanPage ⟨0, 40, 40, oneRecordPage⟩ none =
      ([firstPageRecord], none) := by
    show walFormat.scanFrom ⟨0, 40, 40, oneRecordPage⟩ 40 = _
    rw [scanFrom_found (by decide) (by rw [hlen]; decide) (by rw [hlen]; decide),
      hlen, show 40 + walFormat.align 24 = 64 from rfl, hlast]
    rfl
  rw [segmentExtents, segmentPages_pair hlength recordsPage_length (by decide) (by decide)
    (Nat.zero_le _), scan_cons, show max 40 0 = 40 from rfl, hfirst, scan_cons, recordsPage_scan]
  rfl

theorem crossed_segments : crossedDir.segments = [crossedEntry] := by
  rw [WalDir.segments, crossedDir, List.filter_cons_of_pos (by decide), List.filter_nil,
    List.mergeSort_singleton]

theorem crossed_entry : crossedEntry.records =
    [firstPageRecord, secondPageRecord 20, secondPageRecord 44].map (emit buildRecord 4) := by
  have hnum : extractSegNum crossedEntry.name = 4 := by decide
  have hfile : crossedEntry.file = .ok (oneRecordPage ++ recordsPage) := rfl
  rw [Entry.records, hnum, hfile, readRecords_all, crossed_extents]

theorem crossed_records : crossedDir.records =
    [firstPageRecord, secondPageRecord 20, secondPageRecord 44].map (emit buildRecord 4) := by
  rw [WalDir.records, crossed_segments, List.flatMap_singleton, crossed_entry]

theorem crossed_read {n : Nat} (h : 0 < n) : newestHolding n crossedDir.segments =
    [firstPageRecord, secondPageRecord 20, secondPageRecord 44].map (emit buildRecord 4) := by
  rw [crossed_segments, newestHolding, newestHolding, List.length_nil, if_pos h, crossed_entry,
    List.append_nil]

/-- The last of the three records has the greatest LSN. -/
theorem tailRecords_crossed : crossedDir.records.length = 3 ∧ ∀ σ,
    tailRecords σ (.ok crossedDir) 1 = .ok [emit buildRecord 4 (secondPageRecord 44)] := by
  refine ⟨congrArg List.length crossed_records, ?_⟩
  have hlast : crossedDir.records.rtake (1 : Int64).toNatClampNeg =
      [emit buildRecord 4 (secondPageRecord 44)] := by
    rw [crossed_records]
    rfl
  rw [← hlast]
  refine (tailRecords_tail_iff crossedDir 1 (by decide)).mpr ⟨fun h => absurd h (by decide), ?_⟩
  rw [crossed_read (by decide)]
  intro i j hi hj hlt hk
  have hj' : j = 2 := by
    have hone : (1 : Int64).toNatClampNeg = 1 := by decide
    simp only [List.length_map, List.length_cons, List.length_nil, hone] at hj hk
    omega
  subst hj'
  have hi' : i = 0 ∨ i = 1 := by omega
  rcases hi' with rfl | rfl
  · exact .inl (by decide : (lsnAt 4 40).toNat < (lsnAt 4 44).toNat)
  · exact .inl (by decide : (lsnAt 4 20).toNat < (lsnAt 4 44).toNat)

/-- The last two of the three records are never those returned: the first of them has the
least LSN. -/
theorem tailRecords_not_last :
    ¬ ∃ σ, tailRecords σ (.ok crossedDir) 2 = .ok (crossedDir.records.rtake 2) := by
  rintro ⟨σ, h⟩
  have hnum : (2 * 2 : Int64).toInt.toNat = 4 := by decide
  rw [tailRecords_eq σ crossedDir (by decide), hnum, crossed_read (by decide), crossed_records,
    Except.ok.injEq, show (2 : Int64).toNatClampNeg = 2 by decide, List.rtake, List.rtake,
    (σ.perm _).length_eq] at h
  have hle := le_of_drop_eq σ h (i := 0) (j := 1) (by decide) (by decide) (by decide) (by decide)
  exact absurd hle (by decide : ¬ (lsnAt 4 40).toNat ≤ (lsnAt 4 20).toNat)

end LearnPg.Wal
