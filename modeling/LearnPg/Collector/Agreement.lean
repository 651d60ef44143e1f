import LearnPg.Collector.Reader
import LearnPg.Wal.Layout

/-! Where the two readers decode the same records. They part on the first page,
whose header each takes for a different length, on a page that announces a
remainder of a record neither has open, and in the block references. -/
namespace LearnPg.Collector
open Wal LearnPg.Basis.RecordScan LearnPg.Basis.RecordStream

/-- Total length, xid, resource manager, info, payload length and references. -/
structure SameRecord (record : Record) (event : WalInsertEvent) : Prop where
  recordLen : record.recordLen = event.recordLen
  xid : record.xid = event.xid
  rmgrId : record.rmgrID = event.rmgrId
  info : record.info = event.info
  payloadLen : record.payloadLen = event.payloadLen
  blocks : List.Forall₂ SameRef record.blocks event.blocks

def Agree (data : Bytes) (segNum : UInt64) : Prop :=
  ∃ records events, Wal.readRecords (.ok data) segNum 0 0 = .ok records ∧
    readRecords (.ok data) = .ok events ∧ List.Forall₂ SameRecord records events

def AllMagic (data : Bytes) : Prop :=
  ∀ s ∈ pageStarts data, readLE16 (slice (pageAt data s) 0 2) = pageMagic

def payload (e : Extent UInt8) : Bytes := e.raw.drop xlogRecordHeaderSize

def NoHeaderAt (page : Bytes) (offset : Nat) : Prop :=
  offset + xlogRecordHeaderSize ≤ pageSize → recLenAt page offset < xlogRecordHeaderSize

instance (page : Bytes) (offset : Nat) : Decidable (NoHeaderAt page offset) :=
  inferInstanceAs (Decidable (_ → _))

/-- The page is not the first and announces no remainder, or there is no record
header where either reader begins the search. -/
def SearchedAlike (data : Bytes) (s : Nat) : Prop :=
  (s ≠ 0 ∧ remLen (pageAt data s) = 0) ∨
    (NoHeaderAt (pageAt data s) (Wal.headerSize s) ∧
      NoHeaderAt (pageAt data s) (searchStart (pageAt data s) s))

instance (data : Bytes) (s : Nat) : Decidable (SearchedAlike data s) :=
  inferInstanceAs (Decidable (_ ∨ _))

/-- The same for every page the backend comes to with no record open. -/
inductive AllSearchedAlike (data : Bytes) : List Nat → Option (Open UInt8) → Prop where
  | nil (record : Option (Open UInt8)) : AllSearchedAlike data [] record
  | cons {s : Nat} {rest : List Nat} {record : Option (Open UInt8)}
      (head : record = none → SearchedAlike data s)
      (tail : AllSearchedAlike data rest (walFormat.scanPage (Wal.segmentPage data 0 s) record).2) :
      AllSearchedAlike data (s :: rest) record

variable {data : Bytes}

theorem quiet_of_noHeaderAt {page : Page UInt8} {offset : Nat}
    (h : NoHeaderAt page.bytes offset) : Quiet walFormat page offset := by
  intro hroom
  have := h hroom
  rwa [recLenAt_eq] at this

theorem alike_of_searchedAlike {s : Nat} {record : Option (Open UInt8)}
    (hlater : record.isSome → s ≠ 0) (h : record = none → SearchedAlike data s) :
    Alike walFormat (Wal.segmentPage data 0 s) (segmentPage data s) record := by
  have hheader (hs : s ≠ 0) : Wal.headerSize s = headerSize s := by
    rw [Wal.headerSize, headerSize, if_neg hs, if_neg hs]
    rfl
  have hfirst : max (Wal.headerSize s) (0 - s) = Wal.headerSize s := by
    rw [Nat.zero_sub, Nat.max_zero]
  refine ⟨rfl, rfl, fun hopen => hheader (hlater hopen), fun hnone => ?_⟩
  rcases h hnone with ⟨hs, hrem⟩ | ⟨hbackend, hcollector⟩
  · left
    show max (Wal.headerSize s) (0 - s) = searchStart (pageAt data s) s
    rw [hfirst, searchStart, if_pos (Nat.pos_of_ne_zero hs), hrem, hheader hs, Nat.add_zero]
  · right
    refine ⟨quiet_of_noHeaderAt ?_, quiet_of_noHeaderAt hcollector⟩
    show NoHeaderAt (pageAt data s) (max (Wal.headerSize s) (0 - s))
    rwa [hfirst]

theorem allAlike_of_allSearchedAlike {starts : List Nat}
    (hsorted : starts.Pairwise (fun s t => s + pageSize ≤ t)) {record : Option (Open UInt8)}
    (hlater : record.isSome → ∀ s ∈ starts, s ≠ 0) (h : AllSearchedAlike data starts record) :
    AllAlike walFormat (starts.map (Wal.segmentPage data 0)) (starts.map (segmentPage data))
      record := by
  induction h with
  | nil record => exact .nil record
  | @cons s rest record head tail ih =>
    obtain ⟨hnext, hrest⟩ := List.pairwise_cons.mp hsorted
    refine .cons (alike_of_searchedAlike (fun ho => hlater ho s List.mem_cons_self) head) ?_
    refine ih hrest fun _ t ht => ?_
    have : s + 8192 ≤ t := hnext t ht
    omega

theorem segmentPages_of_allMagic (hmagic : AllMagic data) :
    segmentPages data 0 = (pageStarts data).map (Wal.segmentPage data 0) := by
  rw [segmentPages, List.filter_eq_self]
  intro page hpage
  obtain ⟨s, hs, rfl⟩ := List.mem_map.mp hpage
  exact decide_eq_true (hmagic s hs)

/-- Under the two conditions the readers find the same bytes. -/
theorem segmentExtents_eq (hmagic : AllMagic data)
    (hsearch : AllSearchedAlike data (pageStarts data) none) :
    Wal.segmentExtents data 0 = segmentExtents data := by
  rw [Wal.segmentExtents, segmentPages_of_allMagic hmagic, segmentExtents]
  exact (allAlike_of_allSearchedAlike (pageStarts_sorted data) (by simp) hsearch).scan

theorem sameRecord_iff (segNum : UInt64) (e : Extent UInt8) :
    SameRecord (Wal.emit buildRecord segNum e) (emit data e) ↔ SameRefs (payload e) :=
  ⟨fun h => h.blocks, fun h => ⟨rfl, rfl, rfl, rfl, rfl, h⟩⟩

theorem agree_iff_extents (data : Bytes) (segNum : UInt64) :
    Agree data segNum ↔ List.Forall₂ SameRecord
      ((Wal.segmentExtents data 0).map (Wal.emit buildRecord segNum))
      ((segmentExtents data).map (emit data)) := by
  constructor
  · rintro ⟨records, events, hrecords, hevents, h⟩
    rw [readRecords_all] at hrecords
    rw [readRecords_eq_scan] at hevents
    rwa [Except.ok.inj hrecords, Except.ok.inj hevents]
  · exact fun h => ⟨_, _, readRecords_all data segNum, readRecords_eq_scan data, h⟩

theorem agree_iff (hmagic : AllMagic data)
    (hsearch : AllSearchedAlike data (pageStarts data) none) (segNum : UInt64) :
    Agree data segNum ↔ ∀ e ∈ Wal.segmentExtents data 0, SameRefs (payload e) := by
  rw [agree_iff_extents, ← segmentExtents_eq hmagic hsearch, List.forall₂_map_left_iff,
    List.forall₂_map_right_iff, List.forall₂_same]
  exact forall₂_congr fun e _ => sameRecord_iff segNum e

/-- Where the pages are searched alike, the readers agree unless some record's
payload opens with a same-relation reference, and disagree if one does, the
zeros of `OpensWithZeros` apart. -/
theorem readers_agree (hmagic : AllMagic data)
    (hsearch : AllSearchedAlike data (pageStarts data) none) (segNum : UInt64) :
    ((∀ e ∈ Wal.segmentExtents data 0, ¬ OpensWithSameRel (payload e)) → Agree data segNum) ∧
      ((∃ e ∈ Wal.segmentExtents data 0,
        OpensWithSameRel (payload e) ∧ ¬ OpensWithZeros (payload e)) → ¬ Agree data segNum) := by
  rw [agree_iff hmagic hsearch]
  refine ⟨fun h e he => sameRefs_of_not_opens (h e he), ?_⟩
  rintro ⟨e, he, hopens, hzeros⟩ h
  exact hzeros (opensWithZeros_of_sameRefs hopens (h e he))

/-- A blank page, and one with a record at its front. -/
def secondPageRecord (k : Nat) : Bytes := if k = 1 then bareRecord 24 else []

def framedPage (k : Nat) : Bytes :=
  plainHeaders.bytes k ++ (secondPageRecord k ++
    List.replicate (pageSize - Wal.headerSize (k * pageSize) - (secondPageRecord k).length) 0)

def recordOnSecondPage : Bytes := (List.range 2).flatMap framedPage

theorem framedPage_length (k : Nat) : (framedPage k).length = pageSize := by
  have hheader : Wal.headerSize (k * pageSize) ≤ 40 := by
    rw [Wal.headerSize]
    split <;> decide
  have hrecord : (secondPageRecord k).length ≤ 24 := by
    rw [secondPageRecord]
    split
    · rw [bareRecord_length (by decide)]
    · decide
  simp only [framedPage, List.length_append, List.length_replicate, plainHeaders.length_bytes]
  simp only [pageSize] at *
  omega

theorem recordOnSecondPage_length : recordOnSecondPage.length = 2 * pageSize := by
  simp only [recordOnSecondPage, List.length_flatMap, framedPage_length]
  rfl

theorem recordOnSecondPage_page {k : Nat} (hk : k < 2) :
    pageAt recordOnSecondPage (k * pageSize) = framedPage k :=
  (slice_flatMap framedPage_length _ k (by simpa using hk)).trans (by rw [List.getElem_range])

theorem recordOnSecondPage_starts :
    pageStarts recordOnSecondPage = [0 * pageSize, 1 * pageSize] := by
  rw [pageStarts_of_length recordOnSecondPage_length]
  rfl

theorem recordOnSecondPage_magic : AllMagic recordOnSecondPage := by
  rw [AllMagic, recordOnSecondPage_starts, List.forall_mem_cons, List.forall_mem_singleton,
    recordOnSecondPage_page (by decide), recordOnSecondPage_page (by decide)]
  exact ⟨by decide, by decide⟩

theorem recordOnSecondPage_extents :
    Wal.segmentExtents recordOnSecondPage 0 = [⟨1 * pageSize, 20, bareRecord 24⟩] := by
  have hbytes {k : Nat} (hk : k < 2) :
      (Wal.segmentPage recordOnSecondPage 0 (k * pageSize)).bytes = framedPage k :=
    recordOnSecondPage_page hk
  rw [Wal.segmentExtents, segmentPages_of_allMagic recordOnSecondPage_magic,
    recordOnSecondPage_starts, List.map_cons, List.map_singleton, scan_cons, scan_cons]
  have hfirst : walFormat.scanPage (Wal.segmentPage recordOnSecondPage 0 (0 * pageSize)) none =
      ([], none) := by
    refine scanFrom_quiet (quiet_of_noHeaderAt ?_)
    rw [hbytes (by decide)]
    decide
  have hlen : walFormat.lenOf ((framedPage 1).drop 20) = 24 := by decide
  have hraw : ((framedPage 1).drop 20).take 24 = bareRecord 24 := by decide
  have hpage := hbytes (show 1 < 2 by decide)
  have hrest : Quiet walFormat (Wal.segmentPage recordOnSecondPage 0 (1 * pageSize))
      (20 + walFormat.align 24) := by
    refine quiet_of_noHeaderAt ?_
    rw [hpage]
    decide
  have hsecond : walFormat.scanFrom (Wal.segmentPage recordOnSecondPage 0 (1 * pageSize)) 20 =
      ([⟨1 * pageSize, 20, bareRecord 24⟩], none) := by
    rw [scanFrom_found (by decide) (by rw [hpage, hlen]; decide) (by rw [hpage, hlen]; decide),
      hpage, hlen, hraw, scanFrom_quiet hrest]
    rfl
  have hstart : walFormat.scanPage (Wal.segmentPage recordOnSecondPage 0 (1 * pageSize)) none =
      walFormat.scanFrom (Wal.segmentPage recordOnSecondPage 0 (1 * pageSize)) 20 := rfl
  rw [hfirst, hstart, hsecond]
  rfl

theorem recordOnSecondPage_agree : Agree recordOnSecondPage 1 := by
  have hsearch : AllSearchedAlike recordOnSecondPage (pageStarts recordOnSecondPage) none := by
    rw [recordOnSecondPage_starts]
    refine .cons (fun _ => .inr ⟨?_, ?_⟩) (.cons (fun _ => .inl ⟨by decide, ?_⟩) (.nil _))
    · rw [recordOnSecondPage_page (by decide)]
      decide
    · rw [recordOnSecondPage_page (by decide)]
      decide
    · rw [recordOnSecondPage_page (by decide)]
      decide
  refine (readers_agree recordOnSecondPage_magic hsearch 1).1 ?_
  rw [recordOnSecondPage_extents, List.forall_mem_singleton]
  decide

/-- The record behind a header of forty bytes is not seen behind one of
thirty-six. -/
theorem readers_differ :
    AllMagic (layOut plainHeaders [bareRecord 24] 1) ∧
      ¬ Agree (layOut plainHeaders [bareRecord 24] 1) 1 := by
  have hpage : pageAt (layOut plainHeaders [bareRecord 24] 1) 0 =
      laidPage plainHeaders [bareRecord 24] 0 := pageAt_layOut (show 0 < 1 by decide)
  have hstarts : pageStarts (layOut plainHeaders [bareRecord 24] 1) = [0] := by
    rw [pageStarts_of_length (layOut_length 1)]
    simp
  have hsized : ∀ raw ∈ [bareRecord 24], WellSized walFormat raw := by
    rintro raw (_ | ⟨_, h⟩)
    · exact bareRecord_wellSized (by decide) (by decide)
    · cases h
  have hlengths : [bareRecord 24].map List.length = [24] := by
    rw [List.map_singleton, bareRecord_length (by decide)]
  have hfits : Fits [bareRecord 24] 1 := fits_of_finish (by rw [hlengths]; decide)
  have hbackend := (segmentExtents_layOut_iff plainHeaders hsized hfits).mpr
    (by rw [hlengths]; trivial)
  have hcollector : segmentExtents (layOut plainHeaders [bareRecord 24] 1) = [] := by
    have hquiet : NoHeaderAt (laidPage plainHeaders [bareRecord 24] 0) 36 := by decide
    rw [segmentExtents, hstarts, List.map_singleton, scan_cons, Format.scanPage,
      scanFrom_quiet (quiet_of_noHeaderAt ?_)]
    · rfl
    · rw [segmentPage, hpage]
      exact hquiet
  refine ⟨?_, ?_⟩
  · rw [AllMagic, hstarts, List.forall_mem_singleton, hpage]
    decide
  · rw [agree_iff_extents, hcollector]
    intro h
    have hlength := h.length_eq
    have hone := congrArg List.length hbackend
    simp only [List.length_map, List.length_singleton, List.map_nil, List.length_nil]
      at hlength hone
    omega

end LearnPg.Collector
