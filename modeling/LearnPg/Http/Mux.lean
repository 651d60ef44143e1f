import LearnPg.Basis.Paths
import Mathlib.Data.List.MinMax

/-! How `http.ServeMux` finds the handler of a request. It cleans and cuts the path as the
request spells it; what it hands to a handler is the decoded path. -/
namespace LearnPg.Http.Mux
open LearnPg.Basis LearnPg.Basis.Paths

/-- A character of an escaped path, as it is or percent-encoded. -/
structure PathChar where
  char : Char
  encoded : Bool
  deriving DecidableEq

abbrev EscapedPath := List PathChar

def slash : PathChar := ⟨'/', false⟩

def literal (text : String) : EscapedPath := text.toList.map (⟨·, false⟩)

/-- `r.URL.Path`. -/
def decoded (path : EscapedPath) : String := .ofList (path.map (·.char))

def dots : Dots EscapedPath where
  stay segment := decide (segment = [] ∨ segment = literal ".")
  up segment := decide (segment = literal "..")

def joined (segments : List EscapedPath) : EscapedPath := segments.flatMap (slash :: ·)

def cleanPath (path : EscapedPath) : EscapedPath :=
  let segments := clean dots true (path.splitOn slash)
  let np := if segments = [] then [slash] else joined segments
  -- `path.Clean` takes a slash off the end
  if path.getLast? = some slash ∧ segments ≠ [] then np ++ [slash] else np

/-- A registered path; that of a subtree ends in a slash. -/
structure Pattern where
  segments : List String
  subtree : Bool

def Pattern.matches (pattern : Pattern) (segments : List String) : Bool :=
  if pattern.subtree then
    decide (pattern.segments <+: segments ∧ pattern.segments.length < segments.length)
  else decide (pattern.segments = segments)

/-- The segments are decoded one by one. -/
def segmentsOf (path : EscapedPath) : List String := (path.splitOn slash).tail.map decoded

inductive Route (ε : Type) where
  | redirect
  | notFound
  | handler (endpoint : ε)
  deriving DecidableEq

section

variable {ε : Type} (table : List (Pattern × ε))

/-- The longest pattern wins; a path that lacks the slash of a subtree is redirected. -/
def matchOrRedirect (segments : List String) : Route ε :=
  match (table.filter (·.1.matches segments)).argmax (·.1.segments.length) with
  | some entry => .handler entry.2
  | none =>
    if table.any fun entry => entry.1.subtree && entry.1.segments = segments then .redirect
    else .notFound

def findHandler (path : EscapedPath) : Route ε :=
  if cleanPath path ≠ path then .redirect else matchOrRedirect table (segmentsOf path)

end

section

variable {ε : Type} {segments : List EscapedPath} {segment : EscapedPath} {text : String}

end

end LearnPg.Http.Mux
