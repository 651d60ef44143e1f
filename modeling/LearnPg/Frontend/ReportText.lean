import LearnPg.Basis.CompactJson
import LearnPg.Basis.JsonTypes
import LearnPg.Frontend.ErrorReporter

/-! The text of a batch of error reports, as `JSON.stringify` writes it. A member that is
undefined is left out. No text has a lone surrogate in it: `JSON.stringify` escapes one, and Go
reads U+FFFD instead. -/
namespace LearnPg.Frontend.ErrorReporter

open ApiClient Basis.Json Basis.JsonTypes

def Source.text : Source → String
  | .uncaught => "uncaught"
  | .unhandledrejection => "unhandledrejection"
  | .boundary => "boundary"
  | .manual => "manual"

def typeText : BreadcrumbType → String
  | .log => "log"
  | .click => "click"
  | .nav => "nav"
  | .ws => "ws"
  | .fetch => "fetch"

def levelText : Level → String
  | .info => "info"
  | .warn => "warn"
  | .error => "error"

def datumValue : Datum → Value
  | .text value => .string value
  | .number value => encodeInt value
  | .flag value => .bool value

def detailValue : Detail → Value
  | .datum value => datumValue value
  | .members members => .object (members.map fun d => (d.1, (d.2.map datumValue).getD .null))

def optionalText (name : String) (s : Option String) : List (String × Value) :=
  (s.map fun s => (name, .string s)).toList

/-- An object without members is none. -/
def optionalObject (name : String) : List (String × Value) → List (String × Value)
  | [] => []
  | m :: ms => [(name, .object (m :: ms))]

def entryValue (entry : Entry) : Value :=
  .object ([("type", .string (typeText entry.breadcrumb.type))] ++
    optionalText "level" (entry.breadcrumb.level.map levelText) ++
    [("message", .string entry.breadcrumb.message)] ++
    optionalObject "data" (entry.breadcrumb.data.map fun d => (d.1, datumValue d.2)) ++
    [("timestamp", encodeInt entry.timestamp)])

def reportValue (report : ErrorReport) : Value :=
  .object ([("message", .string report.message), ("name", .string report.name)] ++
    optionalText "stack" report.stack ++
    [("source", .string report.source.text)] ++
    optionalText "url" report.url ++
    [("breadcrumbs", .array (report.breadcrumbs.map entryValue))] ++
    optionalObject "context" (report.context.map fun d => (d.1, detailValue d.2)) ++
    [("capturedAt", encodeInt report.capturedAt)])

def batchValue (batch : List ErrorReport) : Value :=
  .object [("reports", .array (batch.map reportValue))]

def stringify (batch : List ErrorReport) : Option String :=
  some (.ofList (batchValue batch).compact)

section

variable {n : Nat} {name : String}

theorem within_encodeInt (i : Int) : (encodeInt i).Within n := isNumber_toString i

theorem within_datum (d : Datum) : (datumValue d).Within n := by
  cases d with
  | text value => trivial
  | number value => exact within_encodeInt value
  | flag value => trivial

theorem membersWithin_map {α : Type} {f : α → Value} (hf : ∀ a, (f a).Within n)
    (ms : List (String × α)) : MembersWithin n (ms.map fun m => (m.1, f m.2)) := by
  induction ms with
  | nil => trivial
  | cons m ms ih => exact ⟨hf m.2, ih⟩

theorem within_detail (d : Detail) : (detailValue d).Within (n + 1) := by
  cases d with
  | datum value => exact within_datum value
  | members members =>
    have hvalue (o : Option Datum) : ((o.map datumValue).getD .null).Within n := by
      cases o with
      | none => trivial
      | some value => exact within_datum value
    exact ⟨Nat.succ_pos n, membersWithin_map hvalue members⟩

theorem within_optionalText (s : Option String) : MembersWithin n (optionalText name s) := by
  cases s <;> simp [optionalText, MembersWithin, Value.Within]

theorem within_optionalObject {ms : List (String × Value)} (h : MembersWithin n ms) :
    MembersWithin (n + 1) (optionalObject name ms) := by
  cases ms with
  | nil => trivial
  | cons m ms => exact ⟨⟨Nat.succ_pos n, h⟩, trivial⟩

theorem within_entry (entry : Entry) : (entryValue entry).Within (n + 2) := by
  refine ⟨Nat.succ_pos _, ?_⟩
  simp only [Nat.add_succ_sub_one, membersWithin_append, within_optionalText,
    within_optionalObject (membersWithin_map within_datum entry.breadcrumb.data)]
  simp [MembersWithin, Value.Within, within_encodeInt]

theorem within_report (report : ErrorReport) : (reportValue report).Within (n + 4) := by
  have hentries : ItemsWithin (n + 2) (report.breadcrumbs.map entryValue) :=
    itemsWithin_map fun entry _ => within_entry entry
  refine ⟨Nat.succ_pos _, ?_⟩
  simp only [Nat.add_succ_sub_one, membersWithin_append, within_optionalText,
    within_optionalObject (membersWithin_map within_detail report.context)]
  simp [MembersWithin, Value.Within, within_encodeInt, hentries]

theorem within_batch (batch : List ErrorReport) : (batchValue batch).Within (n + 6) :=
  ⟨Nat.succ_pos _, ⟨Nat.succ_pos _, itemsWithin_map fun report _ => within_report report⟩, trivial⟩

end

end LearnPg.Frontend.ErrorReporter
