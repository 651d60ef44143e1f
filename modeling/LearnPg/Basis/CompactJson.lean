import LearnPg.Basis.Json

/-! JSON texts without white space, in which no more is escaped than must be. What is written so
is read back, too. -/
namespace LearnPg.Basis.Json

def plainEscape (c : Char) : List Char :=
  match shortEscape c with
  | some letter => ['\\', letter]
  | none => if c.toNat < 0x20 then '\\' :: 'u' :: hexDigits c.toNat else [c]

def plainString (s : String) : List Char := '"' :: (s.toList.flatMap plainEscape ++ ['"'])

/-- What `plainEscape` makes of a character, as it is read back. -/
def plainPiece (c : Char) : Piece :=
  if (shortEscape c).isNone && c.toNat < 0x20 then .unit c.toNat else .char c

mutual

def Value.compact : Value → List Char
  | .null => "null".toList
  | .bool true => "true".toList
  | .bool false => "false".toList
  | .number literal => literal
  | .string s => plainString s
  | .array items => '[' :: ((compactItems items).tail ++ [']'])
  | .object members => '\x7b' :: ((compactMembers members).tail ++ ['\x7d'])

def compactItems : List Value → List Char
  | [] => []
  | v :: vs => ',' :: (v.compact ++ compactItems vs)

def compactMembers : List (String × Value) → List Char
  | [] => []
  | (k, v) :: ms => ',' :: (plainString k ++ (':' :: (v.compact ++ compactMembers ms)))

end

mutual

def Value.decideWithin (depth : Nat) : (v : Value) → Decidable (v.Within depth)
  | .number literal => inferInstanceAs (Decidable (isNumber literal = true))
  | .array items => @instDecidableAnd _ _ _ (decideItemsWithin (depth - 1) items)
  | .object members => @instDecidableAnd _ _ _ (decideMembersWithin (depth - 1) members)
  | .null | .bool _ | .string _ => .isTrue trivial

def decideItemsWithin (depth : Nat) : (vs : List Value) → Decidable (ItemsWithin depth vs)
  | [] => .isTrue trivial
  | v :: vs => @instDecidableAnd _ _ (v.decideWithin depth) (decideItemsWithin depth vs)

def decideMembersWithin (depth : Nat) :
    (ms : List (String × Value)) → Decidable (MembersWithin depth ms)
  | [] => .isTrue trivial
  | (_, v) :: ms => @instDecidableAnd _ _ (v.decideWithin depth) (decideMembersWithin depth ms)

end

instance (depth : Nat) (v : Value) : Decidable (v.Within depth) := v.decideWithin depth

section

variable {c : Char} {cs rest : List Char} {pieces : List Piece} {tokens : List Token}

theorem characters_plain (cs : List Char) : characters (cs.map plainPiece) = cs := by
  induction cs with
  | nil => rfl
  | cons c cs ih =>
    rw [List.map_cons, plainPiece]
    split
    · have hunit : unitChar c.toNat = c := by
        unfold unitChar
        rw [(not_half c).1, (not_half c).2]
        exact Char.ofNat_toNat c
      rw [characters_unit (not_half c).1, ih, hunit]
    · rw [characters, ih]

theorem lexFrom_plainEscape : lexFrom ⟨.string pieces, tokens⟩ (plainEscape c ++ rest) =
    lexFrom ⟨.string (pieces ++ [plainPiece c]), tokens⟩ rest := by
  unfold plainEscape plainPiece
  split
  next letter hletter =>
    obtain ⟨hback, hne⟩ := unescape_of_short hletter
    rw [hletter, List.cons_append, List.cons_append, List.nil_append, lexFrom_backslash]
    apply lexFrom_cons
    simp [lexStep, hne, hback]
  next hnone =>
    split
    next hcontrol =>
      rw [hnone, List.cons_append, List.cons_append, lexFrom_backslash,
        lexFrom_cons (k := ⟨.unit pieces 0 0, tokens⟩) rfl, lexFrom_hexDigits (by omega)]
      simp [hcontrol]
    next hplain =>
      have hquote : c ≠ '"' := by
        rintro rfl
        cases hnone
      have hback : c ≠ '\\' := by
        rintro rfl
        cases hnone
      apply lexFrom_cons
      simp [lexStep, hquote, hback, hplain]

theorem lexFrom_plainEscapes :
    lexFrom ⟨.string pieces, tokens⟩ (cs.flatMap plainEscape ++ rest) =
      lexFrom ⟨.string (pieces ++ cs.map plainPiece), tokens⟩ rest := by
  induction cs generalizing pieces with
  | nil => simp
  | cons c cs ih =>
    rw [List.flatMap_cons, List.append_assoc, lexFrom_plainEscape, ih, List.map_cons,
      List.append_assoc, List.singleton_append]

theorem lexFrom_plainString (s : String) : lexFrom ⟨.gap, tokens⟩ (plainString s ++ rest) =
    lexFrom ⟨.gap, tokens ++ [.string s]⟩ rest := by
  unfold plainString
  rw [List.cons_append, lexFrom_cons (k := ⟨.string [], tokens⟩) rfl, List.append_assoc,
    lexFrom_plainEscapes, List.nil_append]
  apply lexFrom_cons
  simp only [lexStep, if_true, characters_plain, String.ofList_toList]

theorem delimited_compactItems (vs : List Value) (h : Delimited rest) :
    Delimited (compactItems vs ++ rest) := by
  cases vs with
  | nil => exact h
  | cons v vs => exact delimited_cons rfl

theorem delimited_compactMembers (ms : List (String × Value)) (h : Delimited rest) :
    Delimited (compactMembers ms ++ rest) := by
  cases ms with
  | nil => exact h
  | cons m ms => exact delimited_cons rfl

end

mutual

theorem lexFrom_compact (v : Value) {n : Nat} {tokens : List Token} {rest : List Char}
    (hv : v.Within n) (h : Delimited rest) :
    lexFrom ⟨.gap, tokens⟩ (v.compact ++ rest) = lexFrom ⟨.gap, tokens ++ v.tokens⟩ rest := by
  match v with
  | .null => exact lexFrom_word (w := "null".toList) (by decide) (List.all_iff_forall_prop.mp rfl) h
  | .bool true =>
    exact lexFrom_word (w := "true".toList) (by decide) (List.all_iff_forall_prop.mp rfl) h
  | .bool false =>
    exact lexFrom_word (w := "false".toList) (by decide) (List.all_iff_forall_prop.mp rfl) h
  | .number literal => exact lexFrom_word (chars_of_number hv).1 (chars_of_number hv).2 h
  | .string s => exact lexFrom_plainString s
  | .array [] =>
    change lexFrom _ ('[' :: ']' :: rest) = _
    rw [lexFrom_mark rfl rfl (by decide), lexFrom_mark rfl rfl (by decide), List.append_assoc]
    rfl
  | .array (v :: vs) =>
    obtain ⟨-, hv, hvs⟩ := hv
    have hend : Delimited (']' :: rest) := delimited_cons rfl
    change lexFrom _ ('[' :: ((v.compact ++ compactItems vs) ++ [']'] ++ rest)) = _
    rw [lexFrom_mark rfl rfl (by decide)]
    simp only [List.append_assoc, List.cons_append, List.nil_append]
    rw [lexFrom_compact v hv (delimited_compactItems _ hend), lexFrom_compactItems vs hvs hend,
      lexFrom_mark rfl rfl (by decide)]
    simp [Value.tokens, itemTokens]
  | .object [] =>
    change lexFrom _ ('\x7b' :: '\x7d' :: rest) = _
    rw [lexFrom_mark rfl rfl (by decide), lexFrom_mark rfl rfl (by decide), List.append_assoc]
    rfl
  | .object ((k, v) :: ms) =>
    obtain ⟨-, hv, hms⟩ := hv
    have hend : Delimited ('\x7d' :: rest) := delimited_cons rfl
    change lexFrom _ ('\x7b' :: ((plainString k ++ (':' :: (v.compact ++ compactMembers ms))) ++
      ['\x7d'] ++ rest)) = _
    rw [lexFrom_mark rfl rfl (by decide)]
    simp only [List.append_assoc, List.cons_append, List.nil_append]
    rw [lexFrom_plainString, lexFrom_mark rfl rfl (by decide),
      lexFrom_compact v hv (delimited_compactMembers _ hend), lexFrom_compactMembers ms hms hend,
      lexFrom_mark rfl rfl (by decide)]
    simp [Value.tokens, memberTokens]

theorem lexFrom_compactItems (vs : List Value) {n : Nat} {tokens : List Token}
    {rest : List Char} (hvs : ItemsWithin n vs) (h : Delimited rest) :
    lexFrom ⟨.gap, tokens⟩ (compactItems vs ++ rest) =
      lexFrom ⟨.gap, tokens ++ itemTokens vs⟩ rest := by
  match vs with
  | [] => simp [compactItems, itemTokens]
  | v :: vs =>
    simp only [compactItems, List.cons_append, List.append_assoc]
    rw [lexFrom_mark rfl rfl (by decide), lexFrom_compact v hvs.1 (delimited_compactItems _ h),
      lexFrom_compactItems vs hvs.2 h]
    simp [itemTokens]

theorem lexFrom_compactMembers (ms : List (String × Value)) {n : Nat} {tokens : List Token}
    {rest : List Char} (hms : MembersWithin n ms) (h : Delimited rest) :
    lexFrom ⟨.gap, tokens⟩ (compactMembers ms ++ rest) =
      lexFrom ⟨.gap, tokens ++ memberTokens ms⟩ rest := by
  match ms with
  | [] => simp [compactMembers, memberTokens]
  | (k, v) :: ms =>
    simp only [compactMembers, List.cons_append, List.append_assoc]
    rw [lexFrom_mark rfl rfl (by decide), lexFrom_plainString, lexFrom_mark rfl rfl (by decide),
      lexFrom_compact v hms.1 (delimited_compactMembers _ h), lexFrom_compactMembers ms hms.2 h]
    simp [memberTokens]

end

theorem membersWithin_append {depth : Nat} {ms ms' : List (String × Value)} :
    MembersWithin depth (ms ++ ms') ↔ MembersWithin depth ms ∧ MembersWithin depth ms' := by
  induction ms with
  | nil => simp [MembersWithin]
  | cons m ms ih => simp [MembersWithin, ih, and_assoc]

/-- What is written is read back. -/
theorem parse_compact {v : Value} (h : v.Within maxNestingDepth) : parse v.compact = some v := by
  have hlex : lex v.compact = some v.tokens := by
    have hcompact : lexFrom ⟨.gap, []⟩ (v.compact ++ []) = lexFrom ⟨.gap, [] ++ v.tokens⟩ [] :=
      lexFrom_compact v h nofun
    rw [List.append_nil] at hcompact
    exact hcompact
  have hparse : parseFrom ⟨.value false, []⟩ (v.tokens ++ []) = parseFrom ⟨.more v, []⟩ [] :=
    parseFrom_tokens v h
  rw [List.append_nil] at hparse
  unfold parse
  rw [hlex, Option.bind_some, hparse]
  rfl

end LearnPg.Basis.Json
