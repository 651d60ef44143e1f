import LearnPg.Basis.Polling
import LearnPg.Collector.Reader
import LearnPg.Wal.Layout
import Mathlib.Data.List.Sort

/-! The collector's polling of the WAL directory. A poll looks at the two newest
segments and hands out the events whose LSN it has not seen. -/
namespace LearnPg.Collector
open Wal LearnPg.Basis.Polling LearnPg.Basis.RecordScan

/-- An entry of `pg_wal` and the outcome of reading it. -/
structure DirEntry where
  name : String
  isFile : Bool
  data : Except String Bytes

/-- The outcome of listing `pg_wal`. -/
abbrev Directory := Except String (List DirEntry)

def isSegmentName (name : String) : Bool :=
  name.utf8ByteSize = 24 ∧ name.toList.all fun ch => ('0' ≤ ch ∧ ch ≤ '9') ∨ ('A' ≤ ch ∧ ch ≤ 'F')

def listSegments (dir : Directory) : List DirEntry :=
  match dir with
  | .ok entries =>
      (entries.filter fun entry => entry.isFile && isSegmentName entry.name).mergeSort
        fun a b => a.name ≤ b.name
  | .error _ => []

/-- `if seen_lsns.insert(..) { events.push(..) }` for the records of one segment. -/
def pushNew (st : List WalInsertEvent × Finset String) (records : List WalInsertEvent) :
    List WalInsertEvent × Finset String :=
  records.foldl (fun st record =>
    if record.xlogPtr ∈ st.2 then st
    else (st.1 ++ [record], insert record.xlogPtr st.2)) st

def collectNewWalEvents (dir : Directory) (seenLsns : Finset String) (limit : Nat) :
    List WalInsertEvent × Finset String :=
  let segments := listSegments dir
  if segments.isEmpty then ([], seenLsns)
  else
    let st := (segments.drop (segments.length - 2)).foldl (fun st segment =>
      match readRecords segment.data with
      | .ok records => pushNew st records
      | .error _ => st) ([], seenLsns)
    let events :=
      if limit > 0 ∧ st.1.length > limit then st.1.drop (st.1.length - limit) else st.1
    (events,
      if st.2.card > 50000 then (events.map WalInsertEvent.xlogPtr).toFinset else st.2)

/-- All batches, one poll of each directory state after the other. -/
def collectAll (limit : Nat) (seenLsns : Finset String) : List Directory → List WalInsertEvent
  | [] => []
  | dir :: rest =>
      (collectNewWalEvents dir seenLsns limit).1 ++
        collectAll limit (collectNewWalEvents dir seenLsns limit).2 rest

/-- The records of the two newest segments. -/
def present (dir : Directory) : List WalInsertEvent :=
  let segments := listSegments dir
  (segments.drop (segments.length - 2)).flatMap fun segment =>
    (readRecords segment.data).toOption.getD []

/-- At every poll, in the state it finds: the records not present earlier fill the
limit, or they stay within it and every older record that is present is still
in the set of seen LSNs. -/
def PollsReady (limit : Nat) (seenLsns : Finset String) (earlier : List WalInsertEvent) :
    List Directory → Prop
  | [] => True
  | dir :: rest =>
      Ready WalInsertEvent.xlogPtr limit seenLsns earlier (present dir) ∧
        PollsReady limit (collectNewWalEvents dir seenLsns limit).2 (earlier ++ present dir) rest

theorem pushNew_eq (st : List WalInsertEvent × Finset String) (records : List WalInsertEvent) :
    pushNew st records =
      (st.1 ++ (takeNew WalInsertEvent.xlogPtr st.2 records).1,
        (takeNew WalInsertEvent.xlogPtr st.2 records).2) := by
  induction records generalizing st with
  | nil => simp [pushNew, takeNew]
  | cons record rest ih =>
    rw [pushNew, List.foldl_cons, takeNew]
    split
    next hseen => exact ih st
    next hseen =>
      refine (ih (st.1 ++ [record], insert record.xlogPtr st.2)).trans ?_
      simp

theorem pushNew_append (st : List WalInsertEvent × Finset String) (xs ys : List WalInsertEvent) :
    pushNew (pushNew st xs) ys = pushNew st (xs ++ ys) := by
  simp [pushNew]

/-- Segment by segment or all at once: the same records are new. -/
theorem foldl_pushNew (segments : List DirEntry) (st : List WalInsertEvent × Finset String) :
    segments.foldl (fun st segment =>
      match readRecords segment.data with
      | .ok records => pushNew st records
      | .error _ => st) st =
      pushNew st (segments.flatMap fun segment =>
        (readRecords segment.data).toOption.getD []) := by
  induction segments generalizing st with
  | nil => rfl
  | cons segment rest ih =>
    rw [List.foldl_cons, List.flatMap_cons, ← pushNew_append, ih]
    cases readRecords segment.data with
    | ok records => rfl
    | error message => rfl

theorem collectNewWalEvents_idle {dir : Directory} (h : listSegments dir = [])
    (seenLsns : Finset String) (limit : Nat) :
    collectNewWalEvents dir seenLsns limit = ([], seenLsns) ∧ present dir = [] := by
  rw [collectNewWalEvents, present, h]
  exact ⟨rfl, rfl⟩

theorem collectNewWalEvents_eq_poll {dir : Directory} (h : listSegments dir ≠ [])
    (seenLsns : Finset String) (limit : Nat) :
    collectNewWalEvents dir seenLsns limit =
      poll WalInsertEvent.xlogPtr limit 50000 seenLsns (present dir) := by
  have hsome : ¬ (listSegments dir).isEmpty = true := by simpa using h
  rw [collectNewWalEvents]
  dsimp only
  rw [if_neg hsome, foldl_pushNew, pushNew_eq]
  rfl

def windows (dirs : List Directory) : List (List WalInsertEvent) :=
  (dirs.filter (listSegments · ≠ [])).map present

theorem collectAll_eq_deliver (limit : Nat) (seenLsns : Finset String) (dirs : List Directory) :
    collectAll limit seenLsns dirs =
      deliver WalInsertEvent.xlogPtr limit 50000 seenLsns (windows dirs) := by
  induction dirs generalizing seenLsns with
  | nil => rfl
  | cons dir rest ih =>
    rw [collectAll]
    by_cases h : listSegments dir = []
    · rw [(collectNewWalEvents_idle h seenLsns limit).1, ih]
      simp [windows, h]
    · rw [collectNewWalEvents_eq_poll h, ih]
      simp [windows, h, deliver]

theorem pollsReady_iff (limit : Nat) (seenLsns : Finset String) (earlier : List WalInsertEvent)
    (dirs : List Directory) :
    PollsReady limit seenLsns earlier dirs ↔
      AllReady WalInsertEvent.xlogPtr limit 50000 seenLsns earlier (windows dirs) := by
  induction dirs generalizing seenLsns earlier with
  | nil => rfl
  | cons dir rest ih =>
    rw [PollsReady, ih]
    by_cases h : listSegments dir = []
    · obtain ⟨hstate, hpresent⟩ := collectNewWalEvents_idle h seenLsns limit
      have hready : Ready WalInsertEvent.xlogPtr limit seenLsns earlier [] := by
        left
        simp
      rw [hstate, hpresent]
      simp [windows, h, hready]
    · rw [collectNewWalEvents_eq_poll h]
      simp [windows, h, AllReady]

def logEvents (log : List (Bytes × UInt64)) : List WalInsertEvent :=
  log.map fun record => parseRecordBytes record.1 record.2 "wal-file"

/-- Each directory state shows a stretch of the log whose ends only move forward:
records are appended, and a newer segment takes an older one's place. -/
structure ShowsLog (log : List (Bytes × UInt64)) (dirs : List Directory)
    (polls : List (Nat × Nat)) : Prop where
  forward : Forward polls
  shows : List.Forall₂ (fun dir p => present dir = stretch (logEvents log) p) dirs polls

theorem logEvents_keys {log : List (Bytes × UInt64)} (h : (log.map Prod.snd).Nodup) :
    ((logEvents log).map WalInsertEvent.xlogPtr).Nodup := by
  have hkeys : (logEvents log).map WalInsertEvent.xlogPtr =
      (log.map Prod.snd).map formatLSN64 := by
    rw [logEvents, List.map_map, List.map_map]
    rfl
  rw [hkeys]
  exact h.map formatLSN64_injective

theorem ShowsLog.windows {log : List (Bytes × UInt64)} {dirs : List Directory}
    {polls : List (Nat × Nat)} (h : ShowsLog log dirs polls) :
    ∃ seeing, Forward seeing ∧ windows dirs = seeing.map (stretch (logEvents log)) := by
  obtain ⟨hforward, hshows⟩ := h
  suffices hsub : ∃ seeing : List (Nat × Nat), seeing.Sublist polls ∧
      Collector.windows dirs = seeing.map (stretch (logEvents log)) by
    obtain ⟨seeing, hsub, heq⟩ := hsub
    exact ⟨seeing, hforward.sublist hsub, heq⟩
  clear hforward
  induction hshows with
  | nil => exact ⟨[], List.Sublist.refl _, rfl⟩
  | @cons dir p dirs polls hhead _ ih =>
    obtain ⟨seeing, hsub, heq⟩ := ih
    by_cases hidle : listSegments dir = []
    · refine ⟨seeing, hsub.cons p, ?_⟩
      rw [← heq]
      simp [Collector.windows, hidle]
    · refine ⟨p :: seeing, hsub.cons_cons p, ?_⟩
      rw [List.map_cons, ← heq, ← hhead]
      simp [Collector.windows, hidle]

theorem exactlyOnce_windows (log delivered : List WalInsertEvent) (dirs : List Directory) :
    ExactlyOnce log (dirs.map present) delivered ↔ ExactlyOnce log (windows dirs) delivered := by
  constructor
  · rintro ⟨horder, honce⟩
    refine ⟨horder, fun window hwindow => ?_⟩
    obtain ⟨dir, hdir, rfl⟩ := List.mem_map.mp hwindow
    exact honce _ (List.mem_map_of_mem (List.mem_of_mem_filter hdir))
  · rintro ⟨horder, honce⟩
    refine ⟨horder, fun window hwindow x hx => ?_⟩
    obtain ⟨dir, hdir, rfl⟩ := List.mem_map.mp hwindow
    by_cases hidle : listSegments dir = []
    · rw [(collectNewWalEvents_idle hidle ∅ 0).2] at hx
      cases hx
    · refine honce _ (List.mem_map_of_mem ?_) x hx
      exact List.mem_filter.mpr ⟨hdir, by simpa using hidle⟩

/-- Polling a growing log hands out every record that is present exactly once and
in order if and only if every poll is ready. -/
theorem collectAll_exactlyOnce_iff (log : List (Bytes × UInt64))
    (hdistinct : (log.map Prod.snd).Nodup) (dirs : List Directory) (polls : List (Nat × Nat))
    (hshows : ShowsLog log dirs polls) (limit : Nat) :
    ExactlyOnce (logEvents log) (dirs.map present) (collectAll limit ∅ dirs) ↔
      PollsReady limit ∅ [] dirs := by
  obtain ⟨seeing, hforward, hwindows⟩ := hshows.windows
  rw [exactlyOnce_windows, pollsReady_iff, collectAll_eq_deliver, hwindows]
  exact exactlyOnce_iff (logEvents_keys hdistinct) seeing hforward

/-! One segment with two records. -/

def twoRecordPage : Bytes :=
  List.replicate 36 0 ++ (bareRecord 24 ++ (bareRecord 24 ++ List.replicate (pageSize - 84) 0))

def twoRecordLog : List (Bytes × UInt64) := [(bareRecord 24, 36), (bareRecord 24, 60)]

def twoRecordDirectory : Directory := .ok [⟨"000000010000000000000001", true, .ok twoRecordPage⟩]

theorem twoRecordPage_read : readRecords (.ok twoRecordPage) = .ok (logEvents twoRecordLog) := by
  have hlength : twoRecordPage.length = 1 * pageSize := by
    simp only [twoRecordPage, List.length_append, List.length_replicate,
      bareRecord_length (show 4 ≤ 24 by decide)]
    rfl
  have hpage : pageAt twoRecordPage 0 = twoRecordPage := by
    rw [pageAt, slice, List.drop_zero, Nat.zero_add, Nat.sub_zero]
    exact List.take_of_length_le (by rw [hlength]; decide)
  have hbytes : (segmentPage twoRecordPage 0).bytes = twoRecordPage := hpage
  have hfirst : walFormat.lenOf (twoRecordPage.drop 36) = 24 := by decide
  have hsecond : walFormat.lenOf (twoRecordPage.drop 60) = 24 := by decide
  have hlast : walFormat.lenOf (twoRecordPage.drop 84) = 0 := by decide
  have hquiet : Quiet walFormat (segmentPage twoRecordPage 0) 84 := by
    intro _
    rw [hbytes, hlast]
    decide
  have hextents : segmentExtents twoRecordPage =
      [⟨0, 36, bareRecord 24⟩, ⟨0, 60, bareRecord 24⟩] := by
    have hstarts : pageStarts twoRecordPage = [0] := by
      rw [pageStarts_of_length hlength]
      simp
    have hfrom : walFormat.scanFrom (segmentPage twoRecordPage 0) 36 =
        ([⟨0, 36, bareRecord 24⟩, ⟨0, 60, bareRecord 24⟩], none) := by
      rw [scanFrom_found (by decide) (by rw [hbytes, hfirst]; decide)
        (by rw [hbytes, hfirst]; decide), hbytes, hfirst]
      have hnext : 36 + walFormat.align 24 = 60 := rfl
      have hend : 60 + walFormat.align 24 = 84 := rfl
      rw [hnext, scanFrom_found (by decide) (by rw [hbytes, hsecond]; decide)
        (by rw [hbytes, hsecond]; decide), hbytes, hsecond, hend, scanFrom_quiet hquiet]
      have hraw : (twoRecordPage.drop 36).take 24 = bareRecord 24 := by decide
      have hraw' : (twoRecordPage.drop 60).take 24 = bareRecord 24 := by decide
      rw [hraw, hraw']
      rfl
    have hstart : walFormat.scanPage (segmentPage twoRecordPage 0) none =
        walFormat.scanFrom (segmentPage twoRecordPage 0) 36 := rfl
    rw [segmentExtents, hstarts, List.map_singleton, scan_cons, hstart, hfrom]
    rfl
  rw [readRecords_eq_scan, hextents]
  rfl

theorem twoRecordDirectory_segments : listSegments twoRecordDirectory =
    [⟨"000000010000000000000001", true, .ok twoRecordPage⟩] := by
  have hname : isSegmentName "000000010000000000000001" = true := by decide
  simp [listSegments, twoRecordDirectory, hname]

theorem twoRecordDirectory_present : present twoRecordDirectory = logEvents twoRecordLog := by
  rw [present, twoRecordDirectory_segments]
  show [_].flatMap _ = _
  rw [List.flatMap_singleton, twoRecordPage_read]
  rfl

theorem twoRecordDirectory_seen :
    (collectNewWalEvents twoRecordDirectory ∅ 256).2 =
      ((present twoRecordDirectory).map WalInsertEvent.xlogPtr).toFinset := by
  have hsegments : listSegments twoRecordDirectory ≠ [] := by
    rw [twoRecordDirectory_segments]
    exact List.cons_ne_nil _ _
  have hcard : ((present twoRecordDirectory).map WalInsertEvent.xlogPtr).toFinset.card ≤ 50000 := by
    refine (List.toFinset_card_le _).trans ?_
    rw [twoRecordDirectory_present]
    decide
  rw [collectNewWalEvents_eq_poll hsegments, poll]
  dsimp only
  rw [takeNew_snd, Finset.empty_union, if_neg (Nat.not_lt.mpr hcard)]

/-- The second poll sees what the first has seen. -/
theorem twoRecordDirectory_exactlyOnce :
    ExactlyOnce (logEvents twoRecordLog) [present twoRecordDirectory, present twoRecordDirectory]
      (collectAll 256 ∅ [twoRecordDirectory, twoRecordDirectory]) := by
  have hshows : ShowsLog twoRecordLog [twoRecordDirectory, twoRecordDirectory]
      [(0, 2), (0, 2)] := by
    have hstretch : present twoRecordDirectory = stretch (logEvents twoRecordLog) (0, 2) := by
      rw [twoRecordDirectory_present]
      rfl
    exact ⟨by simp [Forward], .cons hstretch (.cons hstretch .nil)⟩
  have hshort (earlier : List WalInsertEvent) :
      ((present twoRecordDirectory).filter (· ∉ earlier)).length ≤ 256 := by
    refine (List.length_filter_le _ _).trans ?_
    rw [twoRecordDirectory_present]
    decide
  refine (collectAll_exactlyOnce_iff twoRecordLog (by decide) _ [(0, 2), (0, 2)] hshows 256).mpr ?_
  refine ⟨.inl ⟨fun x _ hx => absurd hx List.not_mem_nil, .inr (hshort _)⟩,
    .inl ⟨fun x hx _ => ?_, .inr (hshort _)⟩, trivial⟩
  rw [twoRecordDirectory_seen]
  exact List.mem_toFinset.mpr (List.mem_map_of_mem hx)

/-- With a limit of one the older of two records is marked as seen and dropped. -/
theorem twoRecordDirectory_not_exactlyOnce :
    ¬ ExactlyOnce (logEvents twoRecordLog) [present twoRecordDirectory]
      (collectAll 1 ∅ [twoRecordDirectory]) := by
  have hwindows : windows [twoRecordDirectory] = [logEvents twoRecordLog] := by
    simp [windows, twoRecordDirectory_segments, twoRecordDirectory_present]
  have hnew : (takeNew WalInsertEvent.xlogPtr ∅ (logEvents twoRecordLog)).1 =
      logEvents twoRecordLog := by
    rw [takeNew_fst ∅ (logEvents_keys (by decide))]
    simp
  have hdelivered : collectAll 1 ∅ [twoRecordDirectory] =
      [parseRecordBytes (bareRecord 24) 60 "wal-file"] := by
    rw [collectAll_eq_deliver, hwindows, deliver, poll, hnew]
    rfl
  rintro ⟨-, honce⟩
  have hfirst := honce _ (List.mem_singleton_self _)
    (parseRecordBytes (bareRecord 24) 36 "wal-file")
    (by rw [twoRecordDirectory_present]; exact List.mem_cons_self)
  have hdiffer : parseRecordBytes (bareRecord 24) 60 "wal-file" ≠
      parseRecordBytes (bareRecord 24) 36 "wal-file" := by
    intro h
    exact absurd (congrArg WalInsertEvent.lsnValue h) (by decide)
  rw [hdelivered, List.count_singleton, if_neg (by simpa using hdiffer)] at hfirst
  exact Nat.zero_ne_one hfirst

end LearnPg.Collector
