import LearnPg.Api.TelemetryBatches
import LearnPg.Basis.CutText
import LearnPg.Frontend.ReportText

/-! What the handler of error reports reads of the text that a page posts. -/
namespace LearnPg.Api

open Basis.CutText Basis.Json Basis.JsonTypes Basis.Utf8 Frontend.ErrorReporter Telemetry

/-- An element of a slice of `json.RawMessage` is kept as a value. -/
structure TelemetryEnvelope where
  reports : Option (List Value)
  samples : Option (List Value)

def TelemetryEnvelope.fields : List String := ["reports", "samples"]

def TelemetryEnvelope.assign (env : TelemetryEnvelope) : Nat → Value → Option TelemetryEnvelope
  | 0, v => (decodeSlice some v).map fun reports => { env with reports }
  | _, v => (decodeSlice some v).map fun samples => { env with samples }

def TelemetryReport.fields : List String :=
  ["eventId", "timestamp", "level", "message", "stack", "url", "userAgent", "breadcrumbs"]

/-- The breadcrumbs may be any array; nothing uses them. -/
def TelemetryReport.assign (rep : TelemetryReport) : Nat → Value → Option TelemetryReport
  | 0, v => (decodeString rep.eventID v).map fun eventID => { rep with eventID }
  | 1, v => (decodeString rep.timestamp v).map fun timestamp => { rep with timestamp }
  | 2, v => (decodeString rep.level v).map fun level => { rep with level }
  | 3, v => (decodeString rep.message v).map fun message => { rep with message }
  | 4, v => (decodeString rep.stack v).map fun stack => { rep with stack }
  | 5, v => (decodeString rep.url v).map fun url => { rep with url }
  | 6, v => (decodeString rep.userAgent v).map fun userAgent => { rep with userAgent }
  | _, v => (decodeSlice some v).map fun _ => rep

def unmarshalEnvelope (body : List UInt8) : Option TelemetryEnvelope :=
  (parse (decodeRunes body)).bind
    (decodeStruct TelemetryEnvelope.fields TelemetryEnvelope.assign ⟨none, none⟩)

def unmarshalReport (raw : List UInt8) : Option TelemetryReport :=
  (parse (decodeRunes raw)).bind
    (decodeStruct TelemetryReport.fields TelemetryReport.assign ⟨"", "", "", "", "", "", ""⟩)

def rawMessage (v : Value) : List UInt8 := encodeRunes v.compact

/-- `fault` is the text of the error that `json.Unmarshal` returns. -/
def jsonDecoding (fault : List UInt8 → String) (parseTime : String → Option Time) : Decoding where
  envelope body :=
    match unmarshalEnvelope body with
    | some env => .ok ((env.reports.getD []).map rawMessage)
    | none => .error (fault body)
  report raw :=
    match unmarshalReport raw with
    | some rep => .ok rep
    | none => .error (fault raw)
  parseTime := parseTime

def postText (batch : List ErrorReport) : List UInt8 := encodeRunes (batchValue batch).compact

/-- The handler gets all of it, or reading fails behind some of its bytes. -/
def postRequest (batch : List ErrorReport) (cut : Option (Nat × String)) : ErrorsRequest where
  method := "POST"
  body := match cut with
    | some (n, _) => (postText batch).take n
    | none => postText batch
  failure := cut.map Prod.snd

/-- The text is within the limit, and it is read to its end or to the limit. -/
def Fits (batch : List ErrorReport) (cut : Option (Nat × String)) : Prop :=
  (postText batch).length ≤ 2 ^ 20 ∧ ∀ c ∈ cut, 2 ^ 20 ≤ ((postText batch).take c.1).length

/-- A report as it is recorded: that of the frontend has no id, time, level or user agent by the
names that the handler knows. -/
def reportInput (report : ErrorReport) : RecordInput where
  eventID := ""
  timestamp := zeroTime
  level := ""
  message := report.message
  url := report.url.getD ""
  userAgent := ""
  stack := report.stack.getD ""

section

variable {fault : List UInt8 → String} {parseTime : String → Option Time}
  {batch : List ErrorReport} {report : ErrorReport}

theorem decodeSlice_some (vs : List Value) : decodeSlice some (.array vs) = some (some vs) := by
  have hall : vs.mapM some = some vs := by
    induction vs with
    | nil => rfl
    | cons v vs ih => simp [ih]
  simp [decodeSlice, hall]

theorem decode_report : decodeStruct TelemetryReport.fields TelemetryReport.assign
    ⟨"", "", "", "", "", "", ""⟩ (reportValue report) =
      some ⟨"", "", "", report.message, report.stack.getD "", report.url.getD "", ""⟩ := by
  have hmessage : find TelemetryReport.fields "message" = some 3 := by decide +kernel
  have hname : find TelemetryReport.fields "name" = none := by decide +kernel
  have hstack : find TelemetryReport.fields "stack" = some 4 := by decide +kernel
  have hsource : find TelemetryReport.fields "source" = none := by decide +kernel
  have hurl : find TelemetryReport.fields "url" = some 5 := by decide +kernel
  have hbreadcrumbs : find TelemetryReport.fields "breadcrumbs" = some 7 := by decide +kernel
  have hcontext : find TelemetryReport.fields "context" = none := by decide +kernel
  have hcapturedAt : find TelemetryReport.fields "capturedAt" = none := by decide +kernel
  simp only [decodeStruct, reportValue, List.foldlM_append]
  cases report.stack <;> cases report.url <;> simp only [optionalText] <;>
    cases report.context <;>
    simp [optionalObject, decodeMember, hmessage, hname, hstack, hsource, hurl, hbreadcrumbs,
      hcontext, hcapturedAt, TelemetryReport.assign, decodeString, decodeSlice_some]

theorem unmarshalReport_raw : unmarshalReport (rawMessage (reportValue report)) =
    some ⟨"", "", "", report.message, report.stack.getD "", report.url.getD "", ""⟩ := by
  have hwithin : (reportValue report).Within maxNestingDepth := within_report report
  unfold unmarshalReport rawMessage
  rw [decodeRunes_encodeRunes, parse_compact hwithin, Option.bind_some, decode_report]

theorem report_raw :
    ((jsonDecoding fault parseTime).report (rawMessage (reportValue report))).toOption.map
      (·.input (jsonDecoding fault parseTime)) = some (reportInput report) := by
  simp only [jsonDecoding, unmarshalReport_raw]
  rfl

theorem length_pos_of_postText : 0 < (postText batch).length := by
  unfold postText batchValue
  rw [Value.compact, encodeRunes, List.flatMap_cons, List.length_append,
    String.length_utf8EncodeChar]
  exact Nat.add_pos_left (Char.utf8Size_pos _) _

/-- Of a text that is cut there is no envelope. -/
theorem unmarshalEnvelope_take (batch : List ErrorReport) {n : Nat} (hn : 0 < n) :
    unmarshalEnvelope ((postText batch).take n) =
      if (postText batch).length ≤ n then some ⟨some (batch.map reportValue), none⟩ else none := by
  have hwithin : (batchValue batch).Within maxNestingDepth := within_batch batch
  have hfield : find TelemetryEnvelope.fields "reports" = some 0 := by decide +kernel
  unfold unmarshalEnvelope postText
  unfold batchValue at hwithin ⊢
  rw [parse_take hwithin hn]
  split
  · simp [decodeStruct, decodeMember, hfield, TelemetryEnvelope.assign, decodeSlice_some]
  · rfl

theorem readAll_limit {r : ErrorsRequest} (h : 2 ^ 20 ≤ r.body.length) :
    r.readAll = .ok (r.body.take (2 ^ 20)) :=
  if_pos h

theorem readAll_failed {r : ErrorsRequest} {err : String} (h : r.body.length < 2 ^ 20)
    (hfailure : r.failure = some err) : r.readAll = .error err := by
  unfold ErrorsRequest.readAll
  rw [if_neg (Nat.not_le.mpr h), hfailure]

theorem readAll_ended {r : ErrorsRequest} (hfailure : r.failure = none) :
    r.readAll = .ok (r.body.take (2 ^ 20)) := by
  by_cases h : 2 ^ 20 ≤ r.body.length
  · exact readAll_limit h
  · unfold ErrorsRequest.readAll
    rw [if_neg h, hfailure, List.take_of_length_le (Nat.le_of_not_le h)]

theorem readAll_of_whole {cut : Option (Nat × String)}
    (h : ∀ c ∈ cut, 2 ^ 20 ≤ ((postText batch).take c.1).length) :
    (postRequest batch cut).readAll = .ok ((postText batch).take (2 ^ 20)) := by
  cases cut with
  | none => exact readAll_ended rfl
  | some c =>
    have hlength : 2 ^ 20 ≤ ((postText batch).take c.1).length := h c rfl
    have hn : 2 ^ 20 ≤ c.1 := Nat.le_trans hlength (List.length_take_le _ _)
    have htake : ((postText batch).take c.1).take (2 ^ 20) = (postText batch).take (2 ^ 20) := by
      rw [List.take_take, Nat.min_eq_left hn]
    exact htake ▸ readAll_limit hlength

theorem reports_of_read {r : ErrorsRequest} {body : List UInt8} (hpost : r.method = "POST")
    (hread : r.readAll = .ok body) (hne : body ≠ []) (d : Decoding) : r.reports d =
      match d.envelope body with
      | .error err => .error (400, "decode: " ++ err)
      | .ok reports => .ok (reports.map fun raw => (d.report raw).toOption.map (·.input d)) := by
  unfold ErrorsRequest.reports
  rw [if_neg (not_not.mpr hpost), hread]
  cases body with
  | nil => exact absurd rfl hne
  | cons b body => rfl

theorem reports_of_whole {cut : Option (Nat × String)}
    (hwhole : ∀ c ∈ cut, 2 ^ 20 ≤ ((postText batch).take c.1).length) :
    (postRequest batch cut).reports (jsonDecoding fault parseTime) =
      if (postText batch).length ≤ 2 ^ 20 then
        .ok (batch.map fun report => some (reportInput report))
      else .error (400, "decode: " ++ fault ((postText batch).take (2 ^ 20))) := by
  have hne : (postText batch).take (2 ^ 20) ≠ [] := by
    apply List.ne_nil_of_length_pos
    rw [List.length_take]
    exact lt_min (by decide) length_pos_of_postText
  rw [reports_of_read rfl (readAll_of_whole hwhole) hne]
  have henvelope := unmarshalEnvelope_take batch (by decide : 0 < 2 ^ 20)
  by_cases hle : (postText batch).length ≤ 2 ^ 20
  · rw [if_pos hle] at henvelope ⊢
    simp only [jsonDecoding, henvelope, Option.getD_some, List.map_map]
    exact congrArg Except.ok (List.map_congr_left fun report _ => report_raw)
  · rw [if_neg hle] at henvelope ⊢
    simp only [jsonDecoding, henvelope]

theorem reports_of_failed {c : Nat × String} (h : ((postText batch).take c.1).length < 2 ^ 20) :
    (postRequest batch (some c)).reports (jsonDecoding fault parseTime) =
      .error (400, "read body: " ++ c.2) := by
  have hpost : (postRequest batch (some c)).method = "POST" := rfl
  have hfailed : (postRequest batch (some c)).readAll = .error c.2 := readAll_failed h rfl
  unfold ErrorsRequest.reports
  rw [if_neg (not_not.mpr hpost), hfailed]

theorem reports_of_unfit {cut : Option (Nat × String)} (hfits : ¬ Fits batch cut) :
    ∃ message,
      (postRequest batch cut).reports (jsonDecoding fault parseTime) = .error (400, message) := by
  by_cases hwhole : ∀ c ∈ cut, 2 ^ 20 ≤ ((postText batch).take c.1).length
  · rw [reports_of_whole hwhole, if_neg fun hlength => hfits ⟨hlength, hwhole⟩]
    exact ⟨_, rfl⟩
  · push Not at hwhole
    obtain ⟨c, rfl, hshort⟩ := hwhole
    exact ⟨_, reports_of_failed hshort⟩

/-- A batch of the frontend is read report by report if its text fits, else not at all. -/
theorem reports_of_post (fault : List UInt8 → String) (parseTime : String → Option Time)
    (batch : List ErrorReport) (cut : Option (Nat × String)) :
    (Fits batch cut → (postRequest batch cut).reports (jsonDecoding fault parseTime) =
      .ok (batch.map fun report => some (reportInput report))) ∧
    (¬ Fits batch cut → ∃ message,
      (postRequest batch cut).reports (jsonDecoding fault parseTime) = .error (400, message)) := by
  refine ⟨fun hfits => ?_, reports_of_unfit⟩
  rw [reports_of_whole hfits.2, if_pos hfits.1]

end

def clickReport : ErrorReport :=
  ⟨"undefined is not a function", "TypeError", none, .boundary, none, [],
    [("info", .members [("componentStack", some (.text "at App"))])], 0⟩

theorem fits_click : Fits [clickReport] none := by
  refine ⟨?_, nofun⟩
  decide +kernel

/-- The post is read, and it is not where its connection breaks behind three bytes. -/
theorem reports_of_post_click :
    (postRequest [clickReport] none).reports (jsonDecoding (fun _ => "") fun _ => none) =
        .ok [some ⟨"", zeroTime, "", "undefined is not a function", "", "", ""⟩] ∧
      ∃ message, (postRequest [clickReport] (some (3, "unexpected EOF"))).reports
        (jsonDecoding (fun _ => "") fun _ => none) = .error (400, message) := by
  refine ⟨(reports_of_post _ _ _ _).1 fits_click, (reports_of_post _ _ _ _).2 ?_⟩
  rintro ⟨-, hwhole⟩
  have hlong := hwhole _ rfl
  have hshort := List.length_take_le 3 (postText [clickReport])
  dsimp only at hlong
  omega

end LearnPg.Api
