import Mathlib.Data.List.TakeWhile

/-! Variables in a text, as a compose file has them: `${NAME}` stands for the value of a
variable, `${NAME:-text}` for a text where it is unset or empty, and `$$` for a dollar. -/
namespace LearnPg.Basis.Interpolation

abbrev Variables := List Char → Option (List Char)

variable (vars : Variables)

def value (name : List Char) : List Char := (vars name).getD []

def valueOr (name default : List Char) : List Char :=
  if value vars name = [] then default else value vars name

/-- What stands for the text between two braces. -/
def expand (inner : List Char) : List Char :=
  let name := inner.takeWhile (· ≠ ':')
  match inner.dropWhile (· ≠ ':') with
  | ':' :: '-' :: default => valueOr vars name default
  | _ => value vars name

/-- Where the scan stands: in the text, behind a dollar, or behind an opening brace. -/
inductive Mode where
  | text
  | dollar
  | braced (inner : List Char)

def interpolateFrom : Mode → List Char → List Char
  | .text, [] => []
  | .dollar, [] => ['$']
  | .braced inner, [] => '$' :: '\x7b' :: inner
  | .text, c :: cs => if c = '$' then interpolateFrom .dollar cs else c :: interpolateFrom .text cs
  | .dollar, c :: cs =>
    if c = '$' then '$' :: interpolateFrom .text cs
    else if c = '\x7b' then interpolateFrom (.braced []) cs
    else '$' :: c :: interpolateFrom .text cs
  | .braced inner, c :: cs =>
    if c = '\x7d' then expand vars inner ++ interpolateFrom .text cs
    else interpolateFrom (.braced (inner ++ [c])) cs

def interpolate (text : List Char) : List Char := interpolateFrom vars .text text

section

variable {vars} {text inner more rest name : List Char}

theorem expand_name (h : ':' ∉ name) : expand vars name = value vars name := by
  have hall : ∀ c ∈ name, decide (c ≠ ':') = true :=
    fun c hc => decide_eq_true (ne_of_mem_of_not_mem hc h)
  unfold expand
  dsimp only
  rw [List.takeWhile_eq_self_iff.mpr hall, List.dropWhile_eq_nil_iff.mpr hall]

theorem expand_default (h : ':' ∉ name) (default : List Char) :
    expand vars (name ++ ':' :: '-' :: default) = valueOr vars name default := by
  have hall : ∀ c ∈ name, decide (c ≠ ':') = true :=
    fun c hc => decide_eq_true (ne_of_mem_of_not_mem hc h)
  unfold expand
  dsimp only
  rw [List.takeWhile_append_of_pos hall, List.dropWhile_append_of_pos hall]
  simp

theorem interpolateFrom_plain (h : '$' ∉ text) :
    interpolateFrom vars .text (text ++ rest) = text ++ interpolateFrom vars .text rest := by
  induction text with
  | nil => rfl
  | cons c cs ih =>
    obtain ⟨hc, hcs⟩ := List.ne_and_not_mem_of_not_mem_cons h
    rw [List.cons_append, interpolateFrom, if_neg hc.symm, ih hcs, List.cons_append]

theorem interpolateFrom_braced (h : '\x7d' ∉ more) :
    interpolateFrom vars (.braced inner) (more ++ '\x7d' :: rest) =
      expand vars (inner ++ more) ++ interpolateFrom vars .text rest := by
  induction more generalizing inner with
  | nil => simp [interpolateFrom]
  | cons c cs ih =>
    obtain ⟨hc, hcs⟩ := List.ne_and_not_mem_of_not_mem_cons h
    rw [List.cons_append, interpolateFrom, if_neg hc.symm, ih hcs, List.append_assoc,
      List.singleton_append]

theorem interpolate_plain (h : '$' ∉ text) : interpolate vars text = text := by
  have hnil : interpolateFrom vars .text [] = [] := rfl
  have happly : interpolateFrom vars .text (text ++ []) = text ++ interpolateFrom vars .text [] :=
    interpolateFrom_plain h
  rw [hnil, List.append_nil] at happly
  exact happly

theorem interpolate_variable (htext : '$' ∉ text) (hinner : '\x7d' ∉ inner) (hrest : '$' ∉ rest) :
    interpolate vars (text ++ '$' :: '\x7b' :: (inner ++ '\x7d' :: rest)) =
      text ++ (expand vars inner ++ rest) := by
  have htail : interpolateFrom vars .text rest = rest := interpolate_plain hrest
  unfold interpolate
  rw [interpolateFrom_plain htext, interpolateFrom, if_pos rfl, interpolateFrom,
    if_neg (by decide), if_pos rfl, interpolateFrom_braced hinner, htail, List.nil_append]

end

end LearnPg.Basis.Interpolation
