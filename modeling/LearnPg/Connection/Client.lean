import LearnPg.Api.Provision
import LearnPg.Basis.Maps
import Mathlib.Data.List.Infix

/-! A client of a PostgreSQL server: how it sends a statement and what it makes of the
result. The driver and the server answer as they like. -/
namespace LearnPg.Connection

open Basis.Maps Workspace.Data

/-- A Go string that comes from the database, which need not be UTF-8. -/
abbrev Bytes := List UInt8

/-- What the driver scans into an `interface{}`. -/
inductive Cell where
  | null
  | string (text : Bytes)
  | bytes (text : Bytes)
  | int (n : Int)
  | bool (b : Bool)
  deriving DecidableEq

/-- The `Rows` that the driver returns, with what its methods return. -/
structure Rows where
  columns : Except String (List Bytes)
  columnTypes : Except String Unit
  scans : List (Except String (List Cell))
  err : Option String

/-- The methods of `sql.DB`; `exec` gives what `RowsAffected` returns. -/
structure DB where
  query : String → Except String Rows
  exec : String → Except String (Except String Int)

structure Column where
  name : Bytes
  type : UInt32
  deriving DecidableEq

structure ExecuteResult where
  columns : List Column
  rows : List (Map Bytes Bytes)
  commandTag : String

def ascii (text : String) : Bytes := text.toList.map fun c => UInt8.ofNat c.toNat

/-- `fmt.Sprintf("%v", value)`, which writes a byte slice as a list of numbers. -/
def format : Cell → Bytes
  | .null => ascii "<nil>"
  | .string text => text
  | .bytes text =>
    ascii "[" ++ [32].intercalate (text.map fun b => ascii (toString b.toNat)) ++ ascii "]"
  | .int n => ascii (toString n)
  | .bool b => ascii (toString b)

def rowMap (columns : List Bytes) (values : List Cell) : Map Bytes Bytes :=
  (columns.zip values).foldl
    (fun row e => if e.2 = .null then row else row.insert e.1 (format e.2)) ∅

def query (answer : Except String Rows) : Except String ExecuteResult := do
  let rows ← answer
  let columns ← rows.columns
  rows.columnTypes
  let maps ← rows.scans.mapM fun scan => return rowMap columns (← scan)
  if let some err := rows.err then throw err
  return ⟨columns.map (⟨·, 0⟩), maps, toString maps.length ++ " row(s)"⟩

def exec (answer : Except String (Except String Int)) : Except String ExecuteResult := do
  let rowsAffected ← answer
  let rowsAffected := rowsAffected.toOption.getD 0
  return ⟨[], [], "OK (" ++ toString rowsAffected ++ " row(s) affected)"⟩

def queryWords : List String :=
  ["select", "show", "with", "values", "explain", "describe", "desc"]

def returning : List Char := " returning ".toList

def shouldUseQuery (sql : String) : Bool :=
  if queryWords.any fun word => word.toList.isPrefixOf sql.toList then true
  else returning <:+: sql.toList

inductive Sent where
  | query (sql : String)
  | exec (sql : String)
  deriving DecidableEq

/-- `strings.ToLower`, by what it does with a character. -/
def toLower (lower : Char → Char) (sql : String) : String := .ofList (sql.toList.map lower)

/-- What `Execute` returns and what it has sent. -/
def execute (lower : Char → Char) (conn : Option DB) (sql : String) :
    Except String ExecuteResult × List Sent :=
  match conn with
  | none => (.error "not connected", [])
  | some conn =>
    let normalized := Api.trimSpace (toLower lower sql)
    if shouldUseQuery normalized then (query (conn.query sql), [.query sql])
    else
      match exec (conn.exec sql) with
      | .ok result => (.ok result, [.exec sql])
      | .error err =>
        if returning <:+: normalized.toList then (query (conn.query sql), [.exec sql, .query sql])
        else (.error err, [.exec sql])

/-- The second attempt is never made. -/
theorem sent_once (lower : Char → Char) (conn : DB) (sql : String) :
    (execute lower (some conn) sql).2 =
      if shouldUseQuery (Api.trimSpace (toLower lower sql)) then [.query sql] else [.exec sql] := by
  unfold execute
  dsimp only
  split
  next => rfl
  next hquery =>
    cases exec (conn.exec sql) with
    | ok result => rfl
    | error err =>
      have hreturning : ¬ returning <:+: (Api.trimSpace (toLower lower sql)).toList := by
        intro h
        simp [shouldUseQuery, h] at hquery
      simp only [if_neg hreturning]

end LearnPg.Connection
