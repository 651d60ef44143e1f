import LearnPg.Basis.HexText
import Mathlib.Data.Bool.AllAny

/-! JSON texts: a reader that goes from state to state over the characters and then over the
tokens, and a writer that indents. What is written is read back. -/
namespace LearnPg.Basis.Json
open HexText

/-- A number is kept as it is written, an object with its members in their order. -/
inductive Value where
  | null
  | bool (b : Bool)
  | number (literal : List Char)
  | string (s : String)
  | array (items : List Value)
  | object (members : List (String × Value))

inductive Token where
  | openArray
  | closeArray
  | openObject
  | closeObject
  | colon
  | comma
  | word (w : List Char)
  | string (s : String)
  deriving DecidableEq

section Strings

/-- What stands in a string: a character, or a unit of UTF-16 by its number. -/
inductive Piece where
  | char (c : Char)
  | unit (n : Nat)

def isHigh (n : Nat) : Bool := 0xD800 ≤ n && n < 0xDC00

def isLow (n : Nat) : Bool := 0xDC00 ≤ n && n < 0xE000

def replacement : Char := '\ufffd'

def unitChar (n : Nat) : Char := if isHigh n || isLow n then replacement else Char.ofNat n

def pairChar (high low : Nat) : Char :=
  Char.ofNat (0x10000 + (high - 0xD800) * 0x400 + (low - 0xDC00))

def characters : List Piece → List Char
  | [] => []
  | .char c :: ps => c :: characters ps
  | [.unit n] => [unitChar n]
  | .unit n :: .char c :: ps => unitChar n :: c :: characters ps
  | .unit n :: .unit m :: ps =>
    if isHigh n && isLow m then pairChar n m :: characters ps
    else unitChar n :: characters (.unit m :: ps)

def escapes : List (Char × Char) :=
  [('"', '"'), ('\\', '\\'), ('\x08', 'b'), ('\x0c', 'f'), ('\n', 'n'), ('\r', 'r'), ('\t', 't')]

def unescape (letter : Char) : Option Char :=
  if letter = '/' then some '/' else (escapes.find? (·.2 = letter)).map (·.1)

def shortEscape (c : Char) : Option Char := (escapes.find? (·.1 = c)).map (·.2)

def isEscaped (c : Char) : Bool :=
  c.toNat < 0x20 || c ∈ ['<', '>', '&', '\u2028', '\u2029']

def hexDigits (n : Nat) : List Char :=
  [lowerDigit (n / 4096 % 16), lowerDigit (n / 256 % 16), lowerDigit (n / 16 % 16),
    lowerDigit (n % 16)]

def escape (c : Char) : List Char :=
  match shortEscape c with
  | some letter => ['\\', letter]
  | none => if isEscaped c then '\\' :: 'u' :: hexDigits c.toNat else [c]

def renderString (s : String) : List Char := '"' :: (s.toList.flatMap escape ++ ['"'])

/-- What `escape` makes of a character, as it is read back. -/
def pieceOf (c : Char) : Piece :=
  if (shortEscape c).isNone && isEscaped c then .unit c.toNat else .char c

end Strings

section Lexer

def isWhite (c : Char) : Bool := c ∈ [' ', '\t', '\r', '\n']

def mark (c : Char) : Option Token :=
  if c = '[' then some .openArray
  else if c = ']' then some .closeArray
  else if c = '\x7b' then some .openObject
  else if c = '\x7d' then some .closeObject
  else if c = ':' then some .colon
  else if c = ',' then some .comma
  else none

/-- Where the reader stands: between tokens, in a word, in a string, behind a backslash, or
behind some of the four digits of a unit. -/
inductive Mode where
  | gap
  | word (w : List Char)
  | string (pieces : List Piece)
  | escape (pieces : List Piece)
  | unit (pieces : List Piece) (count value : Nat)

structure Lexer where
  mode : Mode
  tokens : List Token

/-- A character that is in no word. -/
def atGap (tokens : List Token) (c : Char) : Lexer :=
  if isWhite c then ⟨.gap, tokens⟩
  else if c = '"' then ⟨.string [], tokens⟩
  else match mark c with
  | some token => ⟨.gap, tokens ++ [token]⟩
  | none => ⟨.word [c], tokens⟩

def isDelimiter (c : Char) : Bool := isWhite c || c == '"' || (mark c).isSome

def lexStep (l : Lexer) (c : Char) : Option Lexer :=
  match l.mode with
  | .gap => some (atGap l.tokens c)
  | .word w =>
    if isDelimiter c then some (atGap (l.tokens ++ [.word w]) c)
    else some ⟨.word (w ++ [c]), l.tokens⟩
  | .string pieces =>
    if c = '"' then some ⟨.gap, l.tokens ++ [.string (.ofList (characters pieces))]⟩
    else if c = '\\' then some ⟨.escape pieces, l.tokens⟩
    else if c.toNat < 0x20 then none
    else some ⟨.string (pieces ++ [.char c]), l.tokens⟩
  | .escape pieces =>
    if c = 'u' then some ⟨.unit pieces 0 0, l.tokens⟩
    else (unescape c).map fun d => ⟨.string (pieces ++ [.char d]), l.tokens⟩
  | .unit pieces count value =>
    (digitValue c).map fun d =>
      if count = 3 then ⟨.string (pieces ++ [.unit (16 * value + d)]), l.tokens⟩
      else ⟨.unit pieces (count + 1) (16 * value + d), l.tokens⟩

def Lexer.finish (l : Lexer) : Option (List Token) :=
  match l.mode with
  | .gap => some l.tokens
  | .word w => some (l.tokens ++ [.word w])
  | _ => none

def lexFrom : Lexer → List Char → Option (List Token)
  | l, [] => l.finish
  | l, c :: cs => (lexStep l c).bind fun l => lexFrom l cs

def lex (text : List Char) : Option (List Token) := lexFrom ⟨.gap, []⟩ text

end Lexer

section Parser

inductive NumberState where
  | start
  | minus
  | zero
  | whole
  | dot
  | fraction
  | exp
  | expSign
  | exponent

def isNonzero (c : Char) : Bool := c.isDigit && c != '0'

def numberStep (state : NumberState) (c : Char) : Option NumberState :=
  match state with
  | .start =>
    if c = '-' then some .minus else if c = '0' then some .zero
    else if isNonzero c then some .whole else none
  | .minus => if c = '0' then some .zero else if isNonzero c then some .whole else none
  | .zero =>
    if c = '.' then some .dot else if c = 'e' ∨ c = 'E' then some .exp else none
  | .whole =>
    if c.isDigit then some .whole else if c = '.' then some .dot
    else if c = 'e' ∨ c = 'E' then some .exp else none
  | .dot => if c.isDigit then some .fraction else none
  | .fraction =>
    if c.isDigit then some .fraction else if c = 'e' ∨ c = 'E' then some .exp else none
  | .exp =>
    if c = '+' ∨ c = '-' then some .expSign else if c.isDigit then some .exponent else none
  | .expSign | .exponent => if c.isDigit then some .exponent else none

def NumberState.accepts : NumberState → Bool
  | .zero | .whole | .fraction | .exponent => true
  | _ => false

def isNumber (w : List Char) : Bool := (w.foldlM numberStep .start).any (·.accepts)

def scalar (w : List Char) : Option Value :=
  if isNumber w then some (.number w)
  else if w = "null".toList then some .null
  else if w = "true".toList then some (.bool true)
  else if w = "false".toList then some (.bool false)
  else none

/-- An array or an object around the value that is read. -/
inductive Frame where
  | array (items : List Value)
  | object (members : List (String × Value)) (key : String)

/-- What may come next; `first` when it may also be the end of an empty array or object. -/
inductive Expect where
  | value (first : Bool)
  | key (members : List (String × Value)) (first : Bool)
  | colon (members : List (String × Value)) (key : String)
  | more (v : Value)

structure Parser where
  expect : Expect
  frames : List Frame

def maxNestingDepth : Nat := 10000

def parseStep (p : Parser) (token : Token) : Option Parser :=
  match p.expect with
  | .value first =>
    match token with
    | .word w => (scalar w).map fun v => ⟨.more v, p.frames⟩
    | .string s => some ⟨.more (.string s), p.frames⟩
    | .openArray =>
      if p.frames.length < maxNestingDepth then some ⟨.value true, .array [] :: p.frames⟩ else none
    | .openObject =>
      if p.frames.length < maxNestingDepth then some ⟨.key [] true, p.frames⟩ else none
    | .closeArray =>
      match first, p.frames with
      | true, .array items :: frames => some ⟨.more (.array items), frames⟩
      | _, _ => none
    | _ => none
  | .key members first =>
    match token with
    | .string k => some ⟨.colon members k, p.frames⟩
    | .closeObject => if first then some ⟨.more (.object members), p.frames⟩ else none
    | _ => none
  | .colon members key =>
    match token with
    | .colon => some ⟨.value false, .object members key :: p.frames⟩
    | _ => none
  | .more v =>
    match token, p.frames with
    | .comma, .array items :: frames => some ⟨.value false, .array (items ++ [v]) :: frames⟩
    | .comma, .object members k :: frames => some ⟨.key (members ++ [(k, v)]) false, frames⟩
    | .closeArray, .array items :: frames => some ⟨.more (.array (items ++ [v])), frames⟩
    | .closeObject, .object members k :: frames =>
      some ⟨.more (.object (members ++ [(k, v)])), frames⟩
    | _, _ => none

def Parser.finish (p : Parser) : Option Value :=
  match p.expect, p.frames with
  | .more v, [] => some v
  | _, _ => none

def parseFrom : Parser → List Token → Option Value
  | p, [] => p.finish
  | p, token :: tokens => (parseStep p token).bind fun p => parseFrom p tokens

def parse (text : List Char) : Option Value :=
  (lex text).bind (parseFrom ⟨.value false, []⟩)

end Parser

section Writer

mutual

/-- The tokens of a value; `moreItems` and `moreMembers` begin with a comma. -/
def Value.tokens : Value → List Token
  | .null => [.word "null".toList]
  | .bool true => [.word "true".toList]
  | .bool false => [.word "false".toList]
  | .number literal => [.word literal]
  | .string s => [.string s]
  | .array items => .openArray :: ((itemTokens items).tail ++ [.closeArray])
  | .object members => .openObject :: ((memberTokens members).tail ++ [.closeObject])

def itemTokens : List Value → List Token
  | [] => []
  | v :: vs => .comma :: (v.tokens ++ itemTokens vs)

def memberTokens : List (String × Value) → List Token
  | [] => []
  | (k, v) :: ms => .comma :: .string k :: .colon :: (v.tokens ++ memberTokens ms)

end

def newline (depth : Nat) : List Char := '\n' :: List.replicate (2 * depth) ' '

mutual

/-- `json.MarshalIndent` with no prefix and two blanks. -/
def Value.render (depth : Nat) : Value → List Char
  | .null => "null".toList
  | .bool true => "true".toList
  | .bool false => "false".toList
  | .number literal => literal
  | .string s => renderString s
  | .array [] => ['[', ']']
  | .array (v :: vs) =>
    '[' :: ((renderItems (depth + 1) (v :: vs)).tail ++ (newline depth ++ [']']))
  | .object [] => ['\x7b', '\x7d']
  | .object (m :: ms) =>
    '\x7b' :: ((renderMembers (depth + 1) (m :: ms)).tail ++ (newline depth ++ ['\x7d']))

def renderItems (depth : Nat) : List Value → List Char
  | [] => []
  | v :: vs => ',' :: (newline depth ++ (v.render depth ++ renderItems depth vs))

def renderMembers (depth : Nat) : List (String × Value) → List Char
  | [] => []
  | (k, v) :: ms =>
    ',' :: (newline depth ++ (renderString k ++ (':' :: ' ' ::
      (v.render depth ++ renderMembers depth ms))))

end

mutual

/-- Its numbers are numbers, and arrays and objects are nested in it at most so deep. -/
def Value.Within (depth : Nat) : Value → Prop
  | .number literal => isNumber literal = true
  | .array items => 0 < depth ∧ ItemsWithin (depth - 1) items
  | .object members => 0 < depth ∧ MembersWithin (depth - 1) members
  | _ => True

def ItemsWithin (depth : Nat) : List Value → Prop
  | [] => True
  | v :: vs => v.Within depth ∧ ItemsWithin depth vs

def MembersWithin (depth : Nat) : List (String × Value) → Prop
  | [] => True
  | (_, v) :: ms => v.Within depth ∧ MembersWithin depth ms

end

end Writer

section

variable {c letter : Char} {cs rest w : List Char} {pieces : List Piece} {tokens : List Token}
  {l : Lexer}

theorem characters_unit {n : Nat} (h : isHigh n = false) :
    characters (.unit n :: pieces) = unitChar n :: characters pieces := by
  cases pieces with
  | nil => rfl
  | cons p ps =>
    cases p with
    | char c => rfl
    | unit m => rw [characters, h, Bool.false_and, if_neg Bool.false_ne_true]

theorem not_half (c : Char) : isHigh c.toNat = false ∧ isLow c.toNat = false := by
  have hvalid : c.toNat < 0xD800 ∨ 0xDFFF < c.toNat ∧ c.toNat < 0x110000 := c.valid
  unfold isHigh isLow
  simp only [Bool.and_eq_false_iff, decide_eq_false_iff_not]
  omega

theorem characters_pieces (cs : List Char) : characters (cs.map pieceOf) = cs := by
  induction cs with
  | nil => rfl
  | cons c cs ih =>
    rw [List.map_cons, pieceOf]
    split
    · have hunit : unitChar c.toNat = c := by
        unfold unitChar
        rw [(not_half c).1, (not_half c).2]
        exact Char.ofNat_toNat c
      rw [characters_unit (not_half c).1, ih, hunit]
    · rw [characters, ih]

theorem unescape_of_short (h : shortEscape c = some letter) :
    unescape letter = some c ∧ letter ≠ 'u' := by
  have hall : ∀ p ∈ escapes, unescape p.2 = some p.1 ∧ p.2 ≠ 'u' := by decide
  obtain ⟨p, hp, rfl⟩ := Option.map_eq_some_iff.mp h
  have hc := List.find?_some hp
  rw [decide_eq_true_eq] at hc
  rw [← hc]
  exact hall p (List.mem_of_find?_eq_some hp)

theorem toNat_of_escaped (h : isEscaped c = true) : c.toNat < 0x10000 := by
  unfold isEscaped at h
  obtain h | h := Bool.or_eq_true_iff.mp h
  · have := of_decide_eq_true h
    omega
  · have hall : ∀ d ∈ ['<', '>', '&', '\u2028', '\u2029'], d.toNat < 0x10000 :=
      List.all_iff_forall_prop.mp rfl
    exact hall c (of_decide_eq_true h)

theorem lexFrom_cons {k : Lexer} (h : lexStep l c = some k) :
    lexFrom l (c :: rest) = lexFrom k rest := by
  rw [lexFrom, h, Option.bind_some]

theorem lexFrom_unit {n count value : Nat} (hn : n < 16) (hcount : count < 3) :
    lexFrom ⟨.unit pieces count value, tokens⟩ (lowerDigit n :: rest) =
      lexFrom ⟨.unit pieces (count + 1) (16 * value + n), tokens⟩ rest := by
  apply lexFrom_cons
  simp only [lexStep, digitValue_lowerDigit hn, Option.map_some]
  rw [if_neg (by omega)]

theorem lexFrom_hexDigits {n : Nat} (h : n < 0x10000) :
    lexFrom ⟨.unit pieces 0 0, tokens⟩ (hexDigits n ++ rest) =
      lexFrom ⟨.string (pieces ++ [.unit n]), tokens⟩ rest := by
  have hvalue : 16 * (16 * (16 * (16 * 0 + n / 4096 % 16) + n / 256 % 16) + n / 16 % 16) + n % 16 =
      n := by omega
  unfold hexDigits
  simp only [List.cons_append, List.nil_append]
  rw [lexFrom_unit (Nat.mod_lt _ (by decide)) (by decide),
    lexFrom_unit (Nat.mod_lt _ (by decide)) (by decide),
    lexFrom_unit (Nat.mod_lt _ (by decide)) (by decide)]
  apply lexFrom_cons
  simp only [lexStep, digitValue_lowerDigit (Nat.mod_lt n (by decide : 0 < 16)), Option.map_some,
    if_true, hvalue]

theorem lexFrom_backslash : lexFrom ⟨.string pieces, tokens⟩ ('\\' :: rest) =
    lexFrom ⟨.escape pieces, tokens⟩ rest :=
  lexFrom_cons rfl

theorem lexFrom_escape : lexFrom ⟨.string pieces, tokens⟩ (escape c ++ rest) =
    lexFrom ⟨.string (pieces ++ [pieceOf c]), tokens⟩ rest := by
  unfold escape pieceOf
  split
  next letter hletter =>
    obtain ⟨hback, hne⟩ := unescape_of_short hletter
    rw [hletter, List.cons_append, List.cons_append, List.nil_append, lexFrom_backslash]
    apply lexFrom_cons
    simp [lexStep, hne, hback]
  next hnone =>
    split
    next hescaped =>
      rw [hnone, hescaped, List.cons_append, List.cons_append, lexFrom_backslash,
        lexFrom_cons (k := ⟨.unit pieces 0 0, tokens⟩) rfl,
        lexFrom_hexDigits (toNat_of_escaped hescaped)]
      rfl
    next hplain =>
      have hquote : c ≠ '"' := by
        rintro rfl
        cases hnone
      have hback : c ≠ '\\' := by
        rintro rfl
        cases hnone
      have hcontrol : ¬ c.toNat < 0x20 := fun h => hplain (by simp [isEscaped, h])
      rw [hnone, Bool.eq_false_iff.mpr hplain]
      apply lexFrom_cons
      simp [lexStep, hquote, hback, hcontrol]

theorem lexFrom_escapes : lexFrom ⟨.string pieces, tokens⟩ (cs.flatMap escape ++ rest) =
    lexFrom ⟨.string (pieces ++ cs.map pieceOf), tokens⟩ rest := by
  induction cs generalizing pieces with
  | nil => simp
  | cons c cs ih =>
    rw [List.flatMap_cons, List.append_assoc, lexFrom_escape, ih, List.map_cons, List.append_assoc,
      List.singleton_append]

theorem lexFrom_string (s : String) : lexFrom ⟨.gap, tokens⟩ (renderString s ++ rest) =
    lexFrom ⟨.gap, tokens ++ [.string s]⟩ rest := by
  unfold renderString
  rw [List.cons_append, lexFrom_cons (k := ⟨.string [], tokens⟩) rfl, List.append_assoc,
    lexFrom_escapes, List.nil_append]
  apply lexFrom_cons
  simp only [lexStep, if_true, characters_pieces, String.ofList_toList]

def Delimited (text : List Char) : Prop := ∀ c ∈ text.head?, isDelimiter c = true

theorem lexFrom_delimited (h : Delimited rest) : lexFrom ⟨.word w, tokens⟩ rest =
    lexFrom ⟨.gap, tokens ++ [.word w]⟩ rest := by
  cases rest with
  | nil => rfl
  | cons c cs =>
    have hc : isDelimiter c = true := h c rfl
    simp only [lexFrom, lexStep, hc, if_true]

theorem lexFrom_continued {u : List Char} (hw : ∀ c ∈ w, isDelimiter c = false) :
    lexFrom ⟨.word u, tokens⟩ (w ++ rest) = lexFrom ⟨.word (u ++ w), tokens⟩ rest := by
  induction w generalizing u with
  | nil => simp
  | cons c w ih =>
    obtain ⟨hc, hw⟩ := List.forall_mem_cons.mp hw
    rw [List.cons_append, lexFrom_cons (k := ⟨.word (u ++ [c]), tokens⟩) (by simp [lexStep, hc]),
      ih hw, List.append_assoc, List.singleton_append]

theorem lexFrom_word (hne : w ≠ []) (hw : ∀ c ∈ w, isDelimiter c = false) (h : Delimited rest) :
    lexFrom ⟨.gap, tokens⟩ (w ++ rest) = lexFrom ⟨.gap, tokens ++ [.word w]⟩ rest := by
  cases w with
  | nil => exact absurd rfl hne
  | cons c w =>
    obtain ⟨hc, hw⟩ := List.forall_mem_cons.mp hw
    have hgap : atGap tokens c = ⟨.word [c], tokens⟩ := by
      unfold isDelimiter at hc
      simp only [Bool.or_eq_false_iff, beq_eq_false_iff_ne, Option.isSome_eq_false_iff,
        Option.isNone_iff_eq_none] at hc
      simp [atGap, hc]
    rw [List.cons_append, lexFrom_cons (k := ⟨.word [c], tokens⟩) (by rw [lexStep, hgap]),
      lexFrom_continued hw, lexFrom_delimited h, List.singleton_append]

theorem lexFrom_mark {token : Token} (h : mark c = some token) (hwhite : isWhite c = false)
    (hquote : c ≠ '"') : lexFrom ⟨.gap, tokens⟩ (c :: rest) =
      lexFrom ⟨.gap, tokens ++ [token]⟩ rest := by
  apply lexFrom_cons
  simp [lexStep, atGap, h, hwhite, hquote]

theorem lexFrom_white (h : ∀ c ∈ w, isWhite c = true) :
    lexFrom ⟨.gap, tokens⟩ (w ++ rest) = lexFrom ⟨.gap, tokens⟩ rest := by
  induction w with
  | nil => rfl
  | cons c w ih =>
    obtain ⟨hc, hw⟩ := List.forall_mem_cons.mp h
    rw [List.cons_append, lexFrom_cons (k := ⟨.gap, tokens⟩) (by simp [lexStep, atGap, hc]), ih hw]

theorem lexFrom_blank :
    lexFrom ⟨.gap, tokens⟩ (' ' :: rest) = lexFrom ⟨.gap, tokens⟩ rest :=
  lexFrom_cons rfl

theorem lexFrom_newline (depth : Nat) : lexFrom ⟨.gap, tokens⟩ (newline depth ++ rest) =
    lexFrom ⟨.gap, tokens⟩ rest := by
  apply lexFrom_white
  rw [newline, List.forall_mem_cons]
  refine ⟨rfl, fun c hc => ?_⟩
  rw [List.eq_of_mem_replicate hc]
  rfl

theorem ne_of_digit {d : Char} (h : c.isDigit = true) (hd : d.isDigit = false) : c ≠ d := by
  rintro rfl
  rw [h] at hd
  cases hd

theorem notDelimiter_of_step {state next : NumberState} (h : numberStep state c = some next) :
    isDelimiter c = false := by
  have hdigit (h : c.isDigit = true) : isDelimiter c = false := by
    have hne {d : Char} (hd : d.isDigit = false) : c ≠ d := ne_of_digit h hd
    simp [isDelimiter, isWhite, mark, hne]
  have hnonzero (h : isNonzero c = true) : isDelimiter c = false :=
    hdigit (Bool.and_eq_true_iff.mp h).1
  have hsign : ∀ d ∈ ['-', '+', '.', '0', 'e', 'E'], isDelimiter d = false :=
    List.all_iff_forall_prop.mp rfl
  cases state <;> simp only [numberStep] at h <;> grind

theorem chars_of_fold {state last : NumberState} (h : w.foldlM numberStep state = some last) :
    ∀ c ∈ w, isDelimiter c = false := by
  induction w generalizing state with
  | nil => exact List.forall_mem_nil _
  | cons c w ih =>
    obtain ⟨next, hnext, h⟩ := Option.bind_eq_some_iff.mp h
    exact List.forall_mem_cons.mpr ⟨notDelimiter_of_step hnext, ih h⟩

theorem chars_of_number (h : isNumber w = true) : w ≠ [] ∧ ∀ c ∈ w, isDelimiter c = false := by
  obtain ⟨last, hlast, haccepts⟩ := (Option.any_eq_true _ _).mp h
  refine ⟨?_, chars_of_fold hlast⟩
  rintro rfl
  cases hlast
  cases haccepts

theorem delimited_cons (h : isDelimiter c = true) : Delimited (c :: cs) := by
  intro d hd
  cases hd
  exact h

theorem delimited_newline (depth : Nat) : Delimited (newline depth ++ rest) := delimited_cons rfl

theorem delimited_items (depth : Nat) (vs : List Value) (h : Delimited rest) :
    Delimited (renderItems depth vs ++ rest) := by
  cases vs with
  | nil => exact h
  | cons v vs => exact delimited_cons rfl

theorem delimited_members (depth : Nat) (ms : List (String × Value)) (h : Delimited rest) :
    Delimited (renderMembers depth ms ++ rest) := by
  cases ms with
  | nil => exact h
  | cons m ms => exact delimited_cons rfl

end

mutual

/-- The tokens of a value are read back from its text. -/
theorem lexFrom_render (v : Value) {n : Nat} (depth : Nat) {tokens : List Token}
    {rest : List Char} (hv : v.Within n) (h : Delimited rest) :
    lexFrom ⟨.gap, tokens⟩ (v.render depth ++ rest) =
      lexFrom ⟨.gap, tokens ++ v.tokens⟩ rest := by
  match v with
  | .null => exact lexFrom_word (w := "null".toList) (by decide) (List.all_iff_forall_prop.mp rfl) h
  | .bool true => exact lexFrom_word (w := "true".toList) (by decide) (List.all_iff_forall_prop.mp rfl) h
  | .bool false => exact lexFrom_word (w := "false".toList) (by decide) (List.all_iff_forall_prop.mp rfl) h
  | .number literal => exact lexFrom_word (chars_of_number hv).1 (chars_of_number hv).2 h
  | .string s => exact lexFrom_string s
  | .array [] =>
    change lexFrom _ ('[' :: ']' :: rest) = _
    rw [lexFrom_mark rfl rfl (by decide), lexFrom_mark rfl rfl (by decide), List.append_assoc]
    rfl
  | .array (v :: vs) =>
    obtain ⟨-, hv, hvs⟩ := hv
    change lexFrom _ ('[' :: ((newline (depth + 1) ++ (v.render (depth + 1) ++
      renderItems (depth + 1) vs) ++ (newline depth ++ [']'])) ++ rest)) = _
    rw [lexFrom_mark rfl rfl (by decide)]
    simp only [List.append_assoc, List.cons_append, List.nil_append]
    have hend : Delimited (newline depth ++ ']' :: rest) := delimited_newline depth
    rw [lexFrom_newline, lexFrom_render v (depth + 1) hv (delimited_items _ _ hend),
      lexFrom_items vs (depth + 1) hvs hend, lexFrom_newline, lexFrom_mark rfl rfl (by decide)]
    simp [Value.tokens, itemTokens]
  | .object [] =>
    change lexFrom _ ('\x7b' :: '\x7d' :: rest) = _
    rw [lexFrom_mark rfl rfl (by decide), lexFrom_mark rfl rfl (by decide), List.append_assoc]
    rfl
  | .object ((k, v) :: ms) =>
    obtain ⟨-, hv, hms⟩ := hv
    change lexFrom _ ('\x7b' :: ((newline (depth + 1) ++ (renderString k ++ (':' :: ' ' ::
      (v.render (depth + 1) ++ renderMembers (depth + 1) ms))) ++ (newline depth ++ ['\x7d'])) ++
        rest)) = _
    rw [lexFrom_mark rfl rfl (by decide)]
    simp only [List.append_assoc, List.cons_append, List.nil_append]
    have hend : Delimited (newline depth ++ '\x7d' :: rest) := delimited_newline depth
    rw [lexFrom_newline, lexFrom_string, lexFrom_mark rfl rfl (by decide),
      lexFrom_blank,
      lexFrom_render v (depth + 1) hv (delimited_members _ _ hend),
      lexFrom_members ms (depth + 1) hms hend, lexFrom_newline, lexFrom_mark rfl rfl (by decide)]
    simp [Value.tokens, memberTokens]

theorem lexFrom_items (vs : List Value) {n : Nat} (depth : Nat) {tokens : List Token}
    {rest : List Char} (hvs : ItemsWithin n vs) (h : Delimited rest) :
    lexFrom ⟨.gap, tokens⟩ (renderItems depth vs ++ rest) =
      lexFrom ⟨.gap, tokens ++ itemTokens vs⟩ rest := by
  match vs with
  | [] => simp [renderItems, itemTokens]
  | v :: vs =>
    simp only [renderItems, List.cons_append, List.append_assoc]
    rw [lexFrom_mark rfl rfl (by decide), lexFrom_newline,
      lexFrom_render v depth hvs.1 (delimited_items _ _ h), lexFrom_items vs depth hvs.2 h]
    simp [itemTokens]

theorem lexFrom_members (ms : List (String × Value)) {n : Nat} (depth : Nat)
    {tokens : List Token} {rest : List Char} (hms : MembersWithin n ms) (h : Delimited rest) :
    lexFrom ⟨.gap, tokens⟩ (renderMembers depth ms ++ rest) =
      lexFrom ⟨.gap, tokens ++ memberTokens ms⟩ rest := by
  match ms with
  | [] => simp [renderMembers, memberTokens]
  | (k, v) :: ms =>
    simp only [renderMembers, List.cons_append, List.append_assoc]
    rw [lexFrom_mark rfl rfl (by decide), lexFrom_newline, lexFrom_string,
      lexFrom_mark rfl rfl (by decide), lexFrom_blank,
      lexFrom_render v depth hms.1 (delimited_members _ _ h), lexFrom_members ms depth hms.2 h]
    simp [memberTokens]

end

section

variable {rest : List Token} {frames : List Frame}

theorem parseFrom_cons {p q : Parser} {token : Token} (h : parseStep p token = some q) :
    parseFrom p (token :: rest) = parseFrom q rest := by
  rw [parseFrom, h, Option.bind_some]

theorem parseFrom_openArray {first : Bool} (h : frames.length < maxNestingDepth) :
    parseFrom ⟨.value first, frames⟩ (.openArray :: rest) =
      parseFrom ⟨.value true, .array [] :: frames⟩ rest :=
  parseFrom_cons (by simp only [parseStep, if_pos h])

theorem parseFrom_openObject {first : Bool} (h : frames.length < maxNestingDepth) :
    parseFrom ⟨.value first, frames⟩ (.openObject :: rest) =
      parseFrom ⟨.key [] true, frames⟩ rest :=
  parseFrom_cons (by simp only [parseStep, if_pos h])

end

mutual

theorem parseFrom_tokens (v : Value) {first : Bool} {frames : List Frame} {rest : List Token}
    (hv : v.Within (maxNestingDepth - frames.length)) :
    parseFrom ⟨.value first, frames⟩ (v.tokens ++ rest) = parseFrom ⟨.more v, frames⟩ rest := by
  match v with
  | .null => exact parseFrom_cons rfl
  | .bool true => exact parseFrom_cons rfl
  | .bool false => exact parseFrom_cons rfl
  | .number literal =>
    apply parseFrom_cons
    simp only [parseStep, scalar, if_pos (show isNumber literal = true from hv), Option.map_some]
  | .string s => exact parseFrom_cons rfl
  | .array [] =>
    have hroom : frames.length < maxNestingDepth := Nat.lt_of_sub_pos hv.1
    change parseFrom _ (.openArray :: .closeArray :: rest) = _
    rw [parseFrom_openArray hroom, parseFrom_cons rfl]
  | .array (v :: vs) =>
    obtain ⟨hpos, hv, hvs⟩ := hv
    have hroom : frames.length < maxNestingDepth := Nat.lt_of_sub_pos hpos
    change parseFrom _ (.openArray :: ((v.tokens ++ itemTokens vs) ++ [.closeArray] ++ rest)) = _
    rw [parseFrom_openArray hroom]
    simp only [List.append_assoc]
    rw [parseFrom_tokens v (by simpa [Nat.sub_sub] using hv)]
    exact parseFrom_items vs (by simpa [Nat.sub_sub] using hvs)
  | .object [] =>
    have hroom : frames.length < maxNestingDepth := Nat.lt_of_sub_pos hv.1
    change parseFrom _ (.openObject :: .closeObject :: rest) = _
    rw [parseFrom_openObject hroom, parseFrom_cons rfl]
  | .object ((k, v) :: ms) =>
    obtain ⟨hpos, hv, hms⟩ := hv
    have hroom : frames.length < maxNestingDepth := Nat.lt_of_sub_pos hpos
    change parseFrom _ (.openObject :: .string k :: .colon ::
      ((v.tokens ++ memberTokens ms) ++ [.closeObject] ++ rest)) = _
    rw [parseFrom_openObject hroom, parseFrom_cons rfl, parseFrom_cons rfl]
    simp only [List.append_assoc]
    rw [parseFrom_tokens v (by simpa [Nat.sub_sub] using hv)]
    exact parseFrom_members ms (by simpa [Nat.sub_sub] using hms)

theorem parseFrom_items (vs : List Value) {v : Value} {items : List Value} {frames : List Frame}
    {rest : List Token} (hvs : ItemsWithin (maxNestingDepth - (frames.length + 1)) vs) :
    parseFrom ⟨.more v, .array items :: frames⟩ (itemTokens vs ++ ([.closeArray] ++ rest)) =
      parseFrom ⟨.more (.array (items ++ v :: vs)), frames⟩ rest := by
  match vs with
  | [] => exact parseFrom_cons rfl
  | w :: vs =>
    simp only [itemTokens, List.cons_append, List.append_assoc]
    have hw : w.Within (maxNestingDepth - (Frame.array (items ++ [v]) :: frames).length) := hvs.1
    rw [parseFrom_cons rfl, parseFrom_tokens w hw]
    exact (parseFrom_items vs hvs.2).trans (by simp)

theorem parseFrom_members (ms : List (String × Value)) {v : Value} {k : String}
    {members : List (String × Value)} {frames : List Frame} {rest : List Token}
    (hms : MembersWithin (maxNestingDepth - (frames.length + 1)) ms) :
    parseFrom ⟨.more v, .object members k :: frames⟩ (memberTokens ms ++ ([.closeObject] ++ rest)) =
      parseFrom ⟨.more (.object (members ++ (k, v) :: ms)), frames⟩ rest := by
  match ms with
  | [] => exact parseFrom_cons rfl
  | (k', w) :: ms =>
    simp only [memberTokens, List.cons_append, List.append_assoc]
    have hw : w.Within
        (maxNestingDepth - (Frame.object (members ++ [(k, v)]) k' :: frames).length) := hms.1
    rw [parseFrom_cons rfl, parseFrom_cons rfl, parseFrom_cons rfl, parseFrom_tokens w hw]
    exact (parseFrom_members ms hms.2).trans (by simp)

end

/-- What is written is read back. -/
theorem parse_render {v : Value} (h : v.Within maxNestingDepth) :
    parse (v.render 0) = some v := by
  have hlex : lex (v.render 0) = some v.tokens := by
    have hrender : lexFrom ⟨.gap, []⟩ (v.render 0 ++ []) = lexFrom ⟨.gap, [] ++ v.tokens⟩ [] :=
      lexFrom_render v 0 h nofun
    rw [List.append_nil] at hrender
    exact hrender
  have hparse : parseFrom ⟨.value false, []⟩ (v.tokens ++ []) = parseFrom ⟨.more v, []⟩ [] :=
    parseFrom_tokens v h
  rw [List.append_nil] at hparse
  unfold parse
  rw [hlex, Option.bind_some, hparse]
  rfl

section Foreign

/-- A character that no value begins with. -/
structure Foreign (c : Char) : Prop where
  quote : c ≠ '"'
  mark : mark c = none
  number : numberStep .start c = none
  letter : c ∉ ['n', 't', 'f']

def ForeignToken (token : Token) : Prop := ∃ c w, token = .word (c :: w) ∧ Foreign c

structure ForeignLexer (l : Lexer) : Prop where
  mode : l.mode = .gap ∨ ∃ c w, l.mode = .word (c :: w) ∧ Foreign c
  tokens : ∀ token ∈ l.tokens, ForeignToken token

variable {c : Char} {w text : List Char} {tokens : List Token} {l : Lexer}

theorem scalar_foreign (h : Foreign c) : scalar (c :: w) = none := by
  have hnumber : isNumber (c :: w) = false := by
    rw [isNumber, List.foldlM_cons, h.number]
    rfl
  have hword {word : String} {d : Char} (hd : d ∈ ['n', 't', 'f'])
      (hfirst : word.toList.head? = some d) : c :: w ≠ word.toList := by
    intro heq
    rw [← heq] at hfirst
    cases hfirst
    exact h.letter hd
  unfold scalar
  rw [hnumber, if_neg Bool.false_ne_true, if_neg (hword (d := 'n') (by decide) rfl),
    if_neg (hword (d := 't') (by decide) rfl), if_neg (hword (d := 'f') (by decide) rfl)]

theorem foreign_atGap (h : Foreign c) (htokens : ∀ token ∈ tokens, ForeignToken token) :
    ForeignLexer (atGap tokens c) := by
  unfold atGap
  rw [if_neg h.quote, h.mark]
  split
  · exact ⟨.inl rfl, htokens⟩
  · exact ⟨.inr ⟨c, [], rfl, h⟩, htokens⟩

theorem foreign_step (hl : ForeignLexer l) (h : Foreign c) :
    ∃ next, lexStep l c = some next ∧ ForeignLexer next := by
  obtain hgap | ⟨first, w, hword, hfirst⟩ := hl.mode
  · exact ⟨_, by simp only [lexStep, hgap], foreign_atGap h hl.tokens⟩
  · by_cases hdelimiter : isDelimiter c = true
    · refine ⟨atGap (l.tokens ++ [.word (first :: w)]) c,
        by simp only [lexStep, hword, if_pos hdelimiter], foreign_atGap h ?_⟩
      rw [List.forall_mem_append, List.forall_mem_singleton]
      exact ⟨hl.tokens, first, w, rfl, hfirst⟩
    · refine ⟨⟨.word (first :: (w ++ [c])), l.tokens⟩,
        by simp only [lexStep, hword, if_neg hdelimiter, List.cons_append], ?_, hl.tokens⟩
      exact .inr ⟨first, w ++ [c], rfl, hfirst⟩

theorem foreign_lex (hl : ForeignLexer l) (h : ∀ c ∈ text, Foreign c) :
    ∃ tokens, lexFrom l text = some tokens ∧ ∀ token ∈ tokens, ForeignToken token := by
  induction text generalizing l with
  | nil =>
    obtain hgap | ⟨first, w, hword, hfirst⟩ := hl.mode
    · exact ⟨l.tokens, by simp only [lexFrom, Lexer.finish, hgap], hl.tokens⟩
    · refine ⟨l.tokens ++ [.word (first :: w)], by simp only [lexFrom, Lexer.finish, hword], ?_⟩
      rw [List.forall_mem_append, List.forall_mem_singleton]
      exact ⟨hl.tokens, first, w, rfl, hfirst⟩
  | cons c text ih =>
    obtain ⟨hc, htext⟩ := List.forall_mem_cons.mp h
    obtain ⟨next, hstep, hnext⟩ := foreign_step hl hc
    rw [lexFrom_cons hstep]
    exact ih hnext htext

theorem foreign_of_nonascii (h : 0x80 ≤ c.toNat) : Foreign c := by
  have hne {d : Char} (hd : d.toNat < 0x80) : c ≠ d := by
    rintro rfl
    omega
  have hdigit : c.isDigit = false := by
    have hlarge : ¬ c.toNat ≤ 57 := by omega
    unfold Char.isDigit
    rw [Bool.and_eq_false_iff]
    exact .inr (decide_eq_false fun hle => hlarge (UInt32.le_iff_toNat_le.mp hle))
  have hmark : mark c = none := by
    simp [mark, hne]
  have hnumber : numberStep .start c = none := by
    simp [numberStep, isNonzero, hne, hdigit]
  have hletter : c ∉ ['n', 't', 'f'] := by
    simp [hne]
  exact ⟨hne (by decide), hmark, hnumber, hletter⟩

theorem parse_foreign (h : ∀ c ∈ text, Foreign c) : parse text = none := by
  obtain ⟨tokens, hlex, htokens⟩ := foreign_lex (l := ⟨.gap, []⟩) ⟨.inl rfl, nofun⟩ h
  unfold parse lex
  rw [hlex, Option.bind_some]
  cases tokens with
  | nil => rfl
  | cons token rest =>
    obtain ⟨c, w, rfl, hc⟩ := htokens token List.mem_cons_self
    simp only [parseFrom, parseStep, scalar_foreign hc, Option.map_none, Option.bind_none]

end Foreign

section Null

variable {c : Char} {text w : List Char} {tokens out : List Token} {l : Lexer} {p q : Parser}
  {token : Token}

theorem scalar_null (h : scalar w = some .null) : w = "null".toList := by
  unfold scalar at h
  split at h
  · cases h
  · split at h
    next heq => exact heq
    next =>
      split at h
      · cases h
      · split at h <;> cases h

theorem parseStep_begun (h : parseStep p token = some q) (first : Bool) :
    q ≠ ⟨.value first, []⟩ := by
  rintro rfl
  obtain ⟨expect, frames⟩ := p
  unfold parseStep at h
  dsimp only at h
  split at h <;> (try split at h) <;> (try split at h) <;> simp_all

theorem parseStep_null (h : parseStep p token = some ⟨.more .null, []⟩) :
    ∃ first, p = ⟨.value first, []⟩ ∧ token = .word "null".toList := by
  obtain ⟨expect, frames⟩ := p
  unfold parseStep at h
  dsimp only at h
  split at h
  next first =>
    split at h
    next w =>
      obtain ⟨v, hv, heq⟩ := Option.map_eq_some_iff.mp h
      cases heq
      exact ⟨first, rfl, by rw [scalar_null hv]⟩
    all_goals first | cases h | (split at h <;> cases h)
  all_goals split at h <;> (try split at h) <;> cases h

theorem parseFrom_null (h : parseFrom p tokens = some .null) :
    p = ⟨.more .null, []⟩ ∧ tokens = [] ∨
      ∃ first, p = ⟨.value first, []⟩ ∧ tokens = [.word "null".toList] := by
  induction tokens generalizing p with
  | nil =>
    obtain ⟨expect, frames⟩ := p
    simp only [parseFrom, Parser.finish] at h
    split at h
    · cases h
      exact .inl ⟨by simp_all, rfl⟩
    · cases h
  | cons token tokens ih =>
    obtain ⟨q, hq, h⟩ := Option.bind_eq_some_iff.mp h
    obtain ⟨rfl, rfl⟩ | ⟨first, rfl, -⟩ := ih h
    · obtain ⟨first, rfl, rfl⟩ := parseStep_null hq
      exact .inr ⟨first, rfl, rfl⟩
    · exact absurd rfl (parseStep_begun hq first)

theorem tokens_atGap (tokens : List Token) (c : Char) : tokens <+: (atGap tokens c).tokens := by
  unfold atGap
  split
  · exact List.prefix_rfl
  · split
    · exact List.prefix_rfl
    · split
      · exact List.prefix_append _ _
      · exact List.prefix_rfl

theorem tokens_lexStep {next : Lexer} (h : lexStep l c = some next) : l.tokens <+: next.tokens := by
  unfold lexStep at h
  split at h
  · cases h
    exact tokens_atGap _ _
  · split at h
    · cases h
      exact (List.prefix_append _ _).trans (tokens_atGap _ _)
    · cases h
      exact List.prefix_rfl
  · split at h
    · cases h
      exact List.prefix_append _ _
    · split at h
      · cases h
        exact List.prefix_rfl
      · split at h
        · cases h
        · cases h
          exact List.prefix_rfl
  · split at h
    · cases h
      exact List.prefix_rfl
    · obtain ⟨d, -, rfl⟩ := Option.map_eq_some_iff.mp h
      exact List.prefix_rfl
  · obtain ⟨d, -, rfl⟩ := Option.map_eq_some_iff.mp h
    split <;> exact List.prefix_rfl

theorem tokens_lexFrom (h : lexFrom l text = some out) : l.tokens <+: out := by
  induction text generalizing l with
  | nil =>
    simp only [lexFrom, Lexer.finish] at h
    split at h
    · cases h
      exact List.prefix_rfl
    · cases h
      exact List.prefix_append _ _
    · cases h
  | cons c text ih =>
    obtain ⟨next, hnext, h⟩ := Option.bind_eq_some_iff.mp h
    exact (tokens_lexStep hnext).trans (ih h)

def Mode.inString : Mode → Bool
  | .gap | .word _ => false
  | _ => true

theorem string_of_lexFrom (hmode : l.mode.inString = true) (h : lexFrom l text = some out) :
    ∃ s, l.tokens ++ [.string s] <+: out := by
  induction text generalizing l with
  | nil =>
    simp only [lexFrom, Lexer.finish] at h
    split at h
    next hgap =>
      rw [hgap] at hmode
      cases hmode
    next hword =>
      rw [hword] at hmode
      cases hmode
    next => cases h
  | cons c text ih =>
    obtain ⟨next, hnext, h⟩ := Option.bind_eq_some_iff.mp h
    have hcontinue (hsame : next.tokens = l.tokens) (hmode : next.mode.inString = true) :
        ∃ s, l.tokens ++ [.string s] <+: out := by
      rw [← hsame]
      exact ih hmode h
    unfold lexStep at hnext
    split at hnext
    next hgap =>
      rw [hgap] at hmode
      cases hmode
    next hword =>
      rw [hword] at hmode
      cases hmode
    next =>
      split at hnext
      · cases hnext
        exact ⟨_, tokens_lexFrom h⟩
      · split at hnext
        · cases hnext
          exact hcontinue rfl rfl
        · split at hnext
          · cases hnext
          · cases hnext
            exact hcontinue rfl rfl
    next =>
      split at hnext
      · cases hnext
        exact hcontinue rfl rfl
      · obtain ⟨d, -, rfl⟩ := Option.map_eq_some_iff.mp hnext
        exact hcontinue rfl rfl
    next =>
      obtain ⟨d, -, rfl⟩ := Option.map_eq_some_iff.mp hnext
      split at hcontinue <;> exact hcontinue rfl rfl

theorem length_of_word {u : List Char} (h : lexFrom ⟨.word u, tokens⟩ text = some out) :
    tokens.length < out.length := by
  induction text generalizing u with
  | nil =>
    cases h
    simp
  | cons c text ih =>
    obtain ⟨next, hnext, h⟩ := Option.bind_eq_some_iff.mp h
    simp only [lexStep] at hnext
    split at hnext
    · cases hnext
      have hle := ((tokens_atGap (tokens ++ [.word u]) c).trans (tokens_lexFrom h)).length_le
      simp only [List.length_append, List.length_singleton] at hle
      omega
    · cases hnext
      exact ih h

theorem white_of_lexFrom (h : lexFrom ⟨.gap, tokens⟩ text = some out)
    (hlast : out.length ≤ tokens.length) : ∀ c ∈ text, isWhite c = true := by
  induction text with
  | nil => exact List.forall_mem_nil _
  | cons c text ih =>
    have hafter : lexFrom (atGap tokens c) text = some out := h
    unfold atGap at hafter
    split at hafter
    next hwhite => exact List.forall_mem_cons.mpr ⟨hwhite, ih hafter⟩
    next =>
      split at hafter
      · obtain ⟨s, hs⟩ := string_of_lexFrom rfl hafter
        have hle := hs.length_le
        simp only [List.length_append, List.length_singleton] at hle
        omega
      · split at hafter
        · have hle := (tokens_lexFrom hafter).length_le
          simp only [List.length_append, List.length_singleton] at hle
          omega
        · have hlt := length_of_word hafter
          omega

theorem word_of_lexFrom {u : List Char} (h : lexFrom ⟨.word u, []⟩ text = some [.word w]) :
    ∃ more after, text = more ++ after ∧ w = u ++ more ∧ ∀ c ∈ after, isWhite c = true := by
  induction text generalizing u with
  | nil =>
    cases h
    exact ⟨[], [], rfl, (List.append_nil _).symm, List.forall_mem_nil _⟩
  | cons c text ih =>
    obtain ⟨next, hnext, h⟩ := Option.bind_eq_some_iff.mp h
    simp only [lexStep] at hnext
    split at hnext
    · cases hnext
      have hprefix := (tokens_atGap ([] ++ [.word u]) c).trans (tokens_lexFrom h)
      have hword : u = w := by simpa using hprefix
      have hone : [Token.word w].length ≤ [Token.word u].length := Nat.le_refl 1
      refine ⟨[], c :: text, rfl, ?_, white_of_lexFrom h hone⟩
      rw [List.append_nil, hword]
    · cases hnext
      obtain ⟨more, after, rfl, rfl, hafter⟩ := ih h
      exact ⟨c :: more, after, rfl, by simp, hafter⟩

theorem mark_ne_word {token : Token} (h : mark c = some token) : token ≠ .word w := by
  rintro rfl
  unfold mark at h
  repeat' split at h
  all_goals cases h

theorem text_of_word (h : lex text = some [.word w]) : ∃ before after, text = before ++ w ++ after ∧
    ∀ c ∈ before ++ after, isWhite c = true := by
  unfold lex at h
  induction text with
  | nil => cases h
  | cons c text ih =>
    have hafter : lexFrom (atGap [] c) text = some [.word w] := h
    unfold atGap at hafter
    split at hafter
    next hwhite =>
      obtain ⟨before, after, rfl, hall⟩ := ih hafter
      exact ⟨c :: before, after, by simp, List.forall_mem_cons.mpr ⟨hwhite, hall⟩⟩
    next =>
      split at hafter
      · obtain ⟨s, hs⟩ := string_of_lexFrom rfl hafter
        simp at hs
      · split at hafter
        next token htoken =>
          have hprefix := tokens_lexFrom hafter
          have hsame : token = .word w := by simpa using hprefix
          exact absurd hsame (mark_ne_word htoken)
        next =>
          obtain ⟨more, after, rfl, rfl, hall⟩ := word_of_lexFrom hafter
          exact ⟨[], after, rfl, hall⟩

theorem parse_null_iff : parse text = some .null ↔
    ∃ before after, text = before ++ "null".toList ++ after ∧
      ∀ c ∈ before ++ after, isWhite c = true := by
  constructor
  · intro h
    obtain ⟨tokens, htokens, h⟩ := Option.bind_eq_some_iff.mp h
    obtain ⟨hbegun, -⟩ | ⟨first, -, rfl⟩ := parseFrom_null h
    · cases hbegun
    · exact text_of_word htokens
  · rintro ⟨before, after, rfl, hall⟩
    obtain ⟨hbefore, hafter⟩ := List.forall_mem_append.mp hall
    have hdelimited : Delimited after := fun c hc => by
      unfold isDelimiter
      rw [hafter c (List.mem_of_mem_head? hc), Bool.true_or, Bool.true_or]
    have hword : lexFrom ⟨.gap, []⟩ (before ++ "null".toList ++ after) =
        lexFrom ⟨.gap, [.word "null".toList]⟩ after := by
      rw [List.append_assoc, lexFrom_white hbefore,
        lexFrom_word (w := "null".toList) (by decide) (List.all_iff_forall_prop.mp rfl) hdelimited,
        List.nil_append]
    have hrest : lexFrom ⟨.gap, [.word "null".toList]⟩ (after ++ []) =
        lexFrom ⟨.gap, [.word "null".toList]⟩ [] := lexFrom_white hafter
    rw [List.append_nil] at hrest
    unfold parse lex
    rw [hword, hrest]
    rfl

end Null

end LearnPg.Basis.Json
