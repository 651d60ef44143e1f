import LearnPg.Wal.Directory
import LearnPg.Wal.LsnText
import LearnPg.Wal.Resume

/-! The endpoint that lists records of a segment, and what a start position does to its
answer. -/
namespace LearnPg.Api
open Wal LearnPg.Basis LearnPg.Basis.RecordScan

/-- `strconv.Atoi`. -/
def atoi (text : String) : Option Int :=
  let (negative, digits) := match text.toList with
    | '-' :: digits => (true, digits)
    | '+' :: digits => (false, digits)
    | digits => (false, digits)
  if digits ≠ [] ∧ digits.all Char.isDigit then
    let n : Int := digits.foldl (fun acc c => 10 * acc + (c.toNat - 48)) 0
    let n := if negative then -n else n
    if -2 ^ 63 ≤ n ∧ n < 2 ^ 63 then some n else none
  else none

def parseIntQuery (value : String) (defaultValue : Int) : Int :=
  if value ≠ "" then (atoi value).getD defaultValue else defaultValue

/-- The parts in front of the first slash and behind it. -/
def splitLSN : List Char → Option (List Char × List Char)
  | [] => none
  | c :: rest =>
    if c = '/' then some ([], rest)
    else (splitLSN rest).map fun parts => (c :: parts.1, parts.2)

/-- `strconv.ParseUint(text, 16, 32)`. -/
def parseUintHex32 (text : List Char) : Option Nat :=
  if text ≠ [] ∧ text.all (fun c => (HexText.digitValue c).isSome) ∧
      HexText.value text < 2 ^ 32 then
    some (HexText.value text)
  else none

/-- The byte offset in an LSN such as `0/16D4F30`; 0 if parsing fails. -/
def parseLSNOffset (lsn : String) : Nat :=
  match splitLSN lsn.toList with
  | none => 0
  | some (_, low) => (parseUintHex32 low).getD 0

structure WalQuery where
  limit : String
  startLSN : String
  segment : String

structure WalRecordResponse where
  lsn : String
  rmgrName : String
  operation : String
  info : UInt8
  xid : UInt32
  recordLen : UInt32
  payloadLen : UInt32
  prevLSN : String
  pageOffset : UInt32
  blocks : List BlockRef
  details : List (String × Detail)
deriving DecidableEq

def recordsNote (records : List Record) : String :=
  if records = [] then "No WAL records parsed from the selected segment yet." else ""

def recordResponse (r : Record) : WalRecordResponse where
  lsn := r.lsn
  rmgrName := r.rmgrName
  operation := r.operation
  info := r.info
  xid := r.xid
  recordLen := r.recordLen
  payloadLen := r.payloadLen
  prevLSN := r.prevLSN
  pageOffset := r.pageOffset
  blocks := r.blocks
  details := r.details

structure WalResponse where
  records : List WalRecordResponse
  segment : String
  dataDir : String
  limit : Int
  note : String

/-- `limit` of the request: 100 unless positive, and 1000 at most. -/
def walLimit (limit : String) : Int :=
  let n := parseIntQuery limit 100
  let n := if n ≤ 0 then 100 else n
  if n > 1000 then 1000 else n

/-- The segment asked for by its name, or the newest. -/
def chooseSegment (segment : String) (segments : List Entry) : Option Entry :=
  if segment ≠ "" then segments.find? fun s => s.name = segment else segments.getLast?

/-- `ServeWAL`: a status and a message, or the answer with status 200. -/
def serveWAL (method : String) (q : WalQuery) (dataDir : String) (dir : Except String WalDir) :
    Except (Nat × String) WalResponse :=
  if method ≠ "GET" then .error (405, "GET required")
  else
    let limit := walLimit q.limit
    match listWALSegments dir with
    | .error _ | .ok [] =>
      .ok ⟨[], "", dataDir, limit,
        "WAL segments unavailable. Check that pg_wal is mounted and PG is running."⟩
    | .ok segments =>
      match chooseSegment q.segment segments with
      | none => .error (400, "segment not found: " ++ q.segment)
      | some entry =>
        let startOffset := if q.startLSN ≠ "" then parseLSNOffset q.startLSN else 0
        match readRecords entry.file (extractSegNum entry.name) startOffset limit with
        | .error err => .ok ⟨[], entry.name, dataDir, limit, err⟩
        | .ok records =>
          .ok ⟨records.map recordResponse, entry.name, dataDir, limit, recordsNote records⟩

/-! Reading a record's LSN back. -/

theorem splitLSN_append {text : List Char} (h : '/' ∉ text) (low : List Char) :
    splitLSN (text ++ '/' :: low) = some (text, low) := by
  induction text with
  | nil => rfl
  | cons c text ih =>
    rw [List.mem_cons, not_or] at h
    rw [List.cons_append, splitLSN, if_neg (Ne.symm h.1), ih h.2]
    rfl

theorem parseLSNOffset_formatLSN (hi lo : UInt32) :
    parseLSNOffset (formatLSN hi lo) = lo.toNat := by
  obtain ⟨hiDigits, hhi, -⟩ := HexText.map_digitValue_numeral hi.toNat
  obtain ⟨loDigits, hlo, -⟩ := HexText.map_digitValue_padded 8 lo.toNat
  have hslash : '/' ∉ HexText.numeral hi.toNat := fun h =>
    absurd (HexText.digit_of_mem hhi h) (by decide)
  have hne : HexText.padded 8 lo.toNat ≠ [] := by
    refine List.ne_nil_of_length_pos ?_
    rw [HexText.padded_length (Nat.lt_of_lt_of_le lo.toNat_lt (by decide))]
    decide
  have hall : (HexText.padded 8 lo.toNat).all (fun c => (HexText.digitValue c).isSome) := by
    rw [List.all_eq_true]
    exact fun c hc => HexText.digit_of_mem hlo hc
  rw [parseLSNOffset, formatLSN, String.toList_ofList, splitLSN_append hslash]
  simp only [parseUintHex32, HexText.value_padded]
  rw [if_pos ⟨hne, hall, lo.toNat_lt⟩]
  rfl

/-- The text of an LSN reads back as the LSN and, in the endpoint, as its lower half. A text
that is no LSN is rejected exactly if it has no slash or more than one. -/
theorem parseLSN_rejects_iff (lsn : String) :
    (∀ hi lo, parseLSN (formatLSN hi lo) = .ok (hi, lo) ∧
      parseLSNOffset (formatLSN hi lo) = lo.toNat) ∧
    ((¬ IsLSN lsn → ∃ err, parseLSN lsn = .error err) ↔
      lsn.toList.count '/' ≠ 1 ∨ IsLSN lsn) := by
  refine ⟨fun hi lo => ⟨parseLSN_formatLSN hi lo, parseLSNOffset_formatLSN hi lo⟩, ?_⟩
  rw [parseLSN_error_iff]
  by_cases hlsn : IsLSN lsn <;> simp [hlsn]

/-- No part of this text is a number, and it reads as zero. -/
theorem parseLSN_reads_malformed : ¬ ∀ lsn, ¬ IsLSN lsn → ∃ err, parseLSN lsn = .error err := by
  intro h
  have hmalformed : ¬ IsLSN "zz/-1" := by
    rintro ⟨hi, lo, htext, hhi, -⟩
    have hchars : "zz/-1".toList = ['z', 'z', '/', '-', '1'] := by decide
    rw [hchars] at htext
    have hz : 'z' ∈ hi := by
      cases hi with
      | nil => exact absurd rfl hhi.ne_nil
      | cons c hi =>
        rw [(List.cons.inj htext).1]
        exact List.mem_cons_self
    exact absurd (hhi.digits 'z' hz) (by decide)
  obtain ⟨err, herr⟩ := h _ hmalformed
  exact absurd (parseLSN_error_iff.mp ⟨err, herr⟩) (by decide)

theorem lsnAt_low (segNum : UInt64) (offset : Nat) :
    (lsnAt segNum offset).toUInt32 = UInt32.ofNat offset := by
  apply UInt32.toNat_inj.mp
  rw [lsnAt, UInt64.toNat_toUInt32, UInt64.toNat_or, Nat.or_mod_two_pow, UInt64.toNat_shiftLeft]
  simp [Nat.shiftLeft_eq]

theorem formatLSN_ne (hi lo : UInt32) : formatLSN hi lo ≠ "" := by
  intro h
  have := congrArg String.toList h
  rw [formatLSN, String.toList_ofList] at this
  simp at this

theorem walLimit_pos (limit : String) : 0 < walLimit limit := by
  unfold walLimit
  dsimp only
  split <;> split <;> omega

/-! The answer. -/

/-- The places of the records a request for a segment answers with. -/
def answered (data : Bytes) (startLSN : String) (limit : Int) : List (Extent UInt8) :=
  capped limit (segmentExtents data (parseLSNOffset startLSN))

def answeredRecords (data : Bytes) (segNum : UInt64) (startLSN : String) (limit : Int) :
    List Record :=
  (answered data startLSN limit).map (emit buildRecord segNum)

theorem isSegment_ne {entry : Entry} (h : entry.isSegment = true) : entry.name ≠ "" := by
  rintro hname
  rw [Entry.isSegment, hname] at h
  simp [isWALSegmentName] at h

theorem serveWAL_answered {dir : WalDir} {entry : Entry} (hentry : entry ∈ dir.segments)
    {data : Bytes} (hdata : entry.file = .ok data) {limit startLSN dataDir : String}
    (hstart : startLSN ≠ "") :
    serveWAL "GET" ⟨limit, startLSN, entry.name⟩ dataDir (.ok dir) =
      .ok ⟨(answeredRecords data (extractSegNum entry.name) startLSN (walLimit limit)).map
          recordResponse,
        entry.name, dataDir, walLimit limit, recordsNote
          (answeredRecords data (extractSegNum entry.name) startLSN (walLimit limit))⟩ := by
  have hname := isSegment_ne (WalDir.mem_segments.mp hentry).2
  have hchoose : chooseSegment entry.name dir.segments = some entry := by
    rw [chooseSegment, if_pos hname, WalDir.find_segment hentry]
  have hread : readRecords entry.file (extractSegNum entry.name) (parseLSNOffset startLSN)
      (walLimit limit) = .ok (answeredRecords data (extractSegNum entry.name) startLSN
        (walLimit limit)) := by
    rw [hdata, readRecords_eq_scan, capped_map, Int.toNat_natCast]
    rfl
  obtain ⟨first, rest, hsegments⟩ := List.exists_cons_of_ne_nil (List.ne_nil_of_mem hentry)
  rw [hsegments] at hchoose
  simp only [serveWAL, listWALSegments, hsegments, hchoose, if_pos hstart, hread, ne_eq,
    not_true_eq_false, if_false]

/-- Asked for a record's segment from the record's LSN on, the endpoint answers with that
record and the later ones, up to the limit, exactly if the record lies on the segment's first
page or is the first one in it. -/
theorem serveWAL_startLSN_iff (dir : WalDir) (entry : Entry) (hentry : entry ∈ dir.segments)
    (data : Bytes) (hdata : entry.file = .ok data) (i : Nat) (e : Extent UInt8)
    (he : (segmentExtents data 0)[i]? = some e) (limit dataDir : String) :
    let segNum := extractSegNum entry.name
    let r := emit buildRecord segNum e
    readRecords entry.file segNum 0 0 =
        .ok ((segmentExtents data 0).map (emit buildRecord segNum)) ∧
      serveWAL "GET" ⟨limit, r.lsn, entry.name⟩ dataDir (.ok dir) =
        .ok ⟨(answeredRecords data segNum r.lsn (walLimit limit)).map recordResponse,
          entry.name, dataDir, walLimit limit,
          recordsNote (answeredRecords data segNum r.lsn (walLimit limit))⟩ ∧
      (answered data r.lsn (walLimit limit) =
          capped (walLimit limit) ((segmentExtents data 0).drop i) ↔ e.base = 0 ∨ i = 0) := by
  dsimp only
  have hlsn : (emit buildRecord (extractSegNum entry.name) e).lsn =
      formatLSN64 (lsnAt (extractSegNum entry.name) e.offset) := rfl
  have hne : formatLSN64 (lsnAt (extractSegNum entry.name) e.offset) ≠ "" :=
    formatLSN_ne _ _
  have hoffset : parseLSNOffset (formatLSN64 (lsnAt (extractSegNum entry.name) e.offset)) =
      e.offset := by
    have hlt : e.offset < 2 ^ 32 := by
      have := (segmentExtents_places data 0 e (List.mem_of_getElem? he)).2.2.1
      have hsize : pageSize = 8192 := rfl
      omega
    rw [formatLSN64, parseLSNOffset_formatLSN, lsnAt_low]
    exact UInt32.toNat_ofNat_of_lt' hlt
  refine ⟨hdata ▸ readRecords_all data _, ?_, ?_⟩
  · rw [hlsn]
    exact serveWAL_answered hentry hdata hne
  · rw [hlsn, answered, hoffset]
    exact resumed_iff (walLimit_pos limit) he

def emptyPage : Bytes := [0x18, 0xD1] ++ List.replicate 8190 0

def secondPageEntry : Entry := ⟨"000000010000000000000004", false, .ok (emptyPage ++ recordsPage)⟩

def secondPageDir : WalDir := ⟨[secondPageEntry], by simp⟩

theorem secondPage_listed : secondPageEntry ∈ secondPageDir.segments :=
  WalDir.mem_segments.mpr ⟨List.mem_singleton_self _, by decide⟩

theorem secondPage_pages {startOffset : Nat} (hoffset : startOffset ≤ pageSize) :
    segmentPages (emptyPage ++ recordsPage) startOffset =
      [⟨0, 40, max 40 startOffset, emptyPage⟩, ⟨8192, 20, 20, recordsPage⟩] := by
  have hempty : emptyPage.length = pageSize := by
    simp only [emptyPage, List.length_append, List.length_replicate, List.length_cons,
      List.length_nil, pageSize]
  exact segmentPages_pair hempty recordsPage_length (by decide) (by decide) hoffset

theorem secondPage_extents {startOffset : Nat} (hoffset : startOffset = 0 ∨ startOffset = 44) :
    segmentExtents (emptyPage ++ recordsPage) startOffset =
      [secondPageRecord 20, secondPageRecord 44] := by
  have hnone : walFormat.scanPage ⟨0, 40, max 40 startOffset, emptyPage⟩ none = ([], none) := by
    rcases hoffset with rfl | rfl
    · exact scanFrom_short (by decide) (by decide)
    · exact scanFrom_short (by decide) (by decide)
  have hsmall : startOffset ≤ pageSize := by rcases hoffset with rfl | rfl <;> decide
  rw [segmentExtents, secondPage_pages hsmall, scan_cons, hnone, scan_cons,
    recordsPage_scan]
  rfl

/-- The first record of the file may lie on the second page. -/
theorem serveWAL_secondPage :
    answered (emptyPage ++ recordsPage) (emit buildRecord 4 (secondPageRecord 20)).lsn
        (walLimit "") = capped (walLimit "") [secondPageRecord 20, secondPageRecord 44] := by
  have h := (serveWAL_startLSN_iff secondPageDir secondPageEntry secondPage_listed _ rfl 0
    (secondPageRecord 20) (by rw [secondPage_extents (.inl rfl)]; rfl) "" "").2.2.mpr (.inr rfl)
  rw [secondPage_extents (.inl rfl), List.drop_zero] at h
  exact h

/-- Asked for the second record on the second page, the endpoint begins with the first. -/
theorem secondPage_startLSN :
    let file := secondPageEntry.file
    let records := [secondPageRecord 20, secondPageRecord 44].map (emit buildRecord 4)
    readRecords file 4 0 0 = .ok records ∧ ∃ r answer, records[1]? = some r ∧
      serveWAL "GET" ⟨"", r.lsn, secondPageEntry.name⟩ "" (.ok secondPageDir) = .ok answer ∧
      answer.records = records.map recordResponse ∧
      answer.records ≠ (capped answer.limit (records.drop 1)).map recordResponse := by
  dsimp only
  have hsegNum : extractSegNum secondPageEntry.name = 4 := by decide
  have hlimit : walLimit "" = 100 := by decide
  have hanswered : answered (emptyPage ++ recordsPage)
      (emit buildRecord 4 (secondPageRecord 44)).lsn 100 =
      [secondPageRecord 20, secondPageRecord 44] := by
    have hoffset : parseLSNOffset (emit buildRecord 4 (secondPageRecord 44)).lsn = 44 := by
      have hlsn : (emit buildRecord 4 (secondPageRecord 44)).lsn =
          formatLSN64 (lsnAt 4 44) := rfl
      rw [hlsn, formatLSN64, parseLSNOffset_formatLSN, lsnAt_low]
      rfl
    rw [answered, hoffset, secondPage_extents (.inr rfl)]
    rfl
  have hrecords : answeredRecords (emptyPage ++ recordsPage) 4
      (emit buildRecord 4 (secondPageRecord 44)).lsn 100 =
      [secondPageRecord 20, secondPageRecord 44].map (emit buildRecord 4) := by
    rw [answeredRecords, hanswered]
  have hne : (emit buildRecord 4 (secondPageRecord 44)).lsn ≠ "" := formatLSN_ne _ _
  have hserve := @serveWAL_answered _ _ secondPage_listed _ rfl "" _ "" hne
  rw [hsegNum, hlimit, hrecords] at hserve
  refine ⟨?_, emit buildRecord 4 (secondPageRecord 44), _, rfl, hserve, rfl, ?_⟩
  · rw [← secondPage_extents (.inl rfl)]
    exact readRecords_all _ _
  · intro h
    exact absurd (congrArg List.length h) (by simp [capped])

end LearnPg.Api
