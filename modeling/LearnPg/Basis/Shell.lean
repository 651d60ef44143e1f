import Mathlib.Data.List.Basic

/-! How a POSIX shell reads a line: as one simple command of literal words, or as more than
that. Words joined by blanks are read back as they are exactly when none of them has a
character that the shell takes for itself. -/
namespace LearnPg.Basis.Shell

def isBlank (c : Char) : Bool := c = ' ' || c = '\t'

def isOperator (c : Char) : Bool := c ∈ ['|', '&', ';', '<', '>', '(', ')', '\n']

def isExpansion (c : Char) : Bool := c = '$' || c = '\x60'

def isQuoting (c : Char) : Bool := c = '\\' || c = '\'' || c = '"'

structure Letter where
  char : Char
  quoted : Bool

abbrev Word := List Letter

inductive Mode where
  | gap
  | word
  | comment
  | escaped
  | single
  | double
  | doubleEscaped

abbrev Rest := Word × List Word

def prepend (c : Char) (quoted : Bool) (rest : Rest) : Rest := (⟨c, quoted⟩ :: rest.1, rest.2)

def opened (rest : Rest) : Rest := ([], rest.1 :: rest.2)

def closed (rest : Rest) : Rest := ([], rest.2)

section

variable (next : Mode → Option Rest) (c : Char)

def inWord : Option Rest :=
  if isOperator c || isExpansion c then none
  else if c = '\\' then next .escaped
  else if c = '\'' then next .single
  else if c = '"' then next .double
  else (next .word).map (prepend c false)

def step : Mode → Option Rest
  | .gap =>
    if isBlank c then next .gap
    else if c = '#' then next .comment
    else if c = '~' then none
    else (inWord next c).map opened
  | .word => if isBlank c then (next .gap).map closed else inWord next c
  | .comment => if c = '\n' then none else next .comment
  -- behind an escaped line break the line goes on
  | .escaped => if c = '\n' then none else (next .word).map (prepend c true)
  | .single => if c = '\'' then next .word else (next .single).map (prepend c true)
  | .double =>
    if c = '"' then next .word
    else if c = '\\' then next .doubleEscaped
    else if isExpansion c then none
    else (next .double).map (prepend c true)
  | .doubleEscaped =>
    if c = '\n' then none
    else if isExpansion c || c = '"' || c = '\\' then (next .double).map (prepend c true)
    else (next .double).map fun rest => prepend '\\' true (prepend c true rest)

end

def lex : List Char → Mode → Option Rest
  | [], .gap | [], .word | [], .comment => some ([], [])
  | [], _ => none
  | c :: cs, mode => step (lex cs) c mode

/-- What a bracket holds, without the sign that negates it. -/
def unnegated : Word → Word
  | [] => []
  | l :: rest => if !l.quoted && (l.char = '!' || l.char = '^') then rest else l :: rest

/-- Whether an opened bracket is closed in the same component of a path. A bracket that would
close it at once stands for itself. -/
def closes (letters : Word) : Bool :=
  ((unnegated (letters.takeWhile (·.char ≠ '/'))).drop 1).any fun l => l.char = ']' && !l.quoted

/-- Whether a word stands for the names of the files that match it. -/
def isPattern : Word → Bool
  | [] => false
  | l :: rest =>
    (!l.quoted && (l.char = '*' || l.char = '?' || (l.char = '[' && closes rest))) || isPattern rest

/-- The words of a line that is one simple command and settles its words alone. Its first word
is to be the name of a command. No argument of a process has a NUL. -/
def simpleCommand (line : List Char) : Option (List (List Char)) :=
  if '\x00' ∈ line then none
  else (lex line .gap).bind fun rest =>
    if rest.2.any isPattern then none else some (rest.2.map (·.map (·.char)))

def isPlain (c : Char) : Bool :=
  !isBlank c && !isOperator c && !isExpansion c && !isQuoting c && c != '\x00'

def unquoted (word : List Char) : Word := word.map (⟨·, false⟩)

structure Plain (word : List Char) : Prop where
  chars : ∀ c ∈ word, isPlain c = true
  head : ∃ c, word.head? = some c ∧ c ≠ '#' ∧ c ≠ '~'
  pattern : isPattern (unquoted word) = false

theorem plain_iff {word : List Char} : Plain word ↔
    (word.all isPlain && (word.head?.any fun c => c != '#' && c != '~') &&
      !isPattern (unquoted word)) = true := by
  simp only [Bool.and_eq_true, List.all_eq_true, Option.any_eq_true, Bool.not_eq_true', bne_iff_ne]
  constructor
  · intro h
    exact ⟨⟨h.chars, h.head⟩, h.pattern⟩
  · rintro ⟨⟨hchars, hhead⟩, hpattern⟩
    exact ⟨hchars, hhead, hpattern⟩

instance (word : List Char) : Decidable (Plain word) := decidable_of_iff _ plain_iff.symm

section Quoting

variable {next : Mode → Option Rest} {line : List Char} {mode : Mode} {rest : Rest} {c : Char}

def Rest.chars (rest : Rest) : List Char := (rest.1 ++ rest.2.flatten).map (·.char)

@[simp] theorem chars_prepend (quoted : Bool) :
    Rest.chars (prepend c quoted rest) = c :: Rest.chars rest := rfl

@[simp] theorem chars_opened : Rest.chars (opened rest) = Rest.chars rest := rfl

theorem chars_closed : (Rest.chars (closed rest)).Sublist (Rest.chars rest) := by
  unfold Rest.chars closed
  rw [List.nil_append, List.map_append]
  exact List.sublist_append_right _ _

def Mode.bare : Mode → Prop
  | .gap | .word | .comment => True
  | _ => False

theorem gap_bare : Mode.gap.bare := trivial

theorem word_bare : Mode.word.bare := trivial

theorem comment_bare : Mode.comment.bare := trivial

/-- The backslashes that have been read and may still come to stand for themselves. -/
def Mode.owed : Mode → Nat
  | .doubleEscaped => 1
  | _ => 0

def marks (text : List Char) : Nat := text.countP isQuoting

def mark (c : Char) : Nat := if isQuoting c then 1 else 0

@[simp] theorem marks_cons (text : List Char) : marks (c :: text) = marks text + mark c :=
  List.countP_cons ..

theorem marks_sublist {text more : List Char} (h : text.Sublist more) : marks text ≤ marks more :=
  h.countP_le

theorem inWord_step (h : inWord next c = some rest) :
    isQuoting c = true ∧ (∃ mode, mode.owed = 0 ∧ next mode = some rest) ∨
      isQuoting c = false ∧ isOperator c = false ∧ isExpansion c = false ∧
        ∃ rest', next .word = some rest' ∧ rest = prepend c false rest' := by
  unfold inWord at h
  split at h
  · cases h
  next hspecial =>
    obtain ⟨hoperator, hexpansion⟩ := Bool.or_eq_false_iff.mp (Bool.eq_false_iff.mpr hspecial)
    split at h
    next hc => exact .inl ⟨by simp [isQuoting, hc], .escaped, rfl, h⟩
    split at h
    next hc => exact .inl ⟨by simp [isQuoting, hc], .single, rfl, h⟩
    split at h
    next hc => exact .inl ⟨by simp [isQuoting, hc], .double, rfl, h⟩
    next hescape hsingle hdouble =>
      obtain ⟨rest', hrest', rfl⟩ := Option.map_eq_some_iff.mp h
      exact .inr ⟨by simp [isQuoting, hescape, hsingle, hdouble], hoperator, hexpansion, rest',
        hrest', rfl⟩

theorem mark_of_not (h : isQuoting c = false) : mark c = 0 := by
  simp [mark, h]

theorem bare_step (hbare : mode.bare) (h : step next c mode = some rest) :
    ∃ mode' rest', next mode' = some rest' ∧ mode'.owed = 0 ∧
      (isQuoting c = true ∨ mode'.bare) ∧ marks rest.chars ≤ marks rest'.chars := by
  have hword {rest : Rest} (h : inWord next c = some rest) :
      ∃ mode' rest', next mode' = some rest' ∧ mode'.owed = 0 ∧
        (isQuoting c = true ∨ mode'.bare) ∧ marks rest.chars ≤ marks rest'.chars := by
    obtain ⟨hc, mode', howed, hnext⟩ | ⟨hc, -, -, rest', hrest', rfl⟩ := inWord_step h
    · exact ⟨mode', rest, hnext, howed, .inl hc, Nat.le_refl _⟩
    · refine ⟨.word, rest', hrest', rfl, .inr trivial, ?_⟩
      rw [chars_prepend, marks_cons, mark_of_not hc]
      exact Nat.le_refl _
  cases mode with
  | gap =>
    simp only [step] at h
    split at h
    · exact ⟨.gap, rest, h, rfl, .inr trivial, Nat.le_refl _⟩
    split at h
    · exact ⟨.comment, rest, h, rfl, .inr trivial, Nat.le_refl _⟩
    split at h
    · cases h
    obtain ⟨rest', hrest', rfl⟩ := Option.map_eq_some_iff.mp h
    rw [chars_opened]
    exact hword hrest'
  | word =>
    simp only [step] at h
    split at h
    · obtain ⟨rest', hrest', rfl⟩ := Option.map_eq_some_iff.mp h
      exact ⟨.gap, rest', hrest', rfl, .inr trivial, marks_sublist chars_closed⟩
    · exact hword h
  | comment =>
    simp only [step] at h
    split at h
    · cases h
    · exact ⟨.comment, rest, h, rfl, .inr trivial, Nat.le_refl _⟩
  | escaped | single | double | doubleEscaped => cases hbare

theorem step_marks (h : step next c mode = some rest) :
    ∃ mode' rest', next mode' = some rest' ∧
      marks rest.chars + mode'.owed ≤ marks rest'.chars + mark c + mode.owed := by
  have hbare (hbare : mode.bare) : ∃ mode' rest', next mode' = some rest' ∧
      marks rest.chars + mode'.owed ≤ marks rest'.chars + mark c + mode.owed := by
    obtain ⟨mode', rest', hrest', howed, -, hle⟩ := bare_step hbare h
    exact ⟨mode', rest', hrest', by omega⟩
  have hprepend {mode' : Mode} (howed : mode'.owed = 0)
      (h : (next mode').map (prepend c true) = some rest) : ∃ mode' rest',
        next mode' = some rest' ∧
          marks rest.chars + mode'.owed ≤ marks rest'.chars + mark c + mode.owed := by
    obtain ⟨rest', hrest', rfl⟩ := Option.map_eq_some_iff.mp h
    refine ⟨mode', rest', hrest', ?_⟩
    rw [chars_prepend, marks_cons]
    omega
  cases mode with
  | gap | word | comment => exact hbare trivial
  | escaped =>
    simp only [step] at h
    split at h
    · cases h
    · exact hprepend rfl h
  | single =>
    simp only [step] at h
    split at h
    · exact ⟨.word, rest, h, by simp only [Mode.owed]; omega⟩
    · exact hprepend rfl h
  | double =>
    simp only [step] at h
    split at h
    · exact ⟨.word, rest, h, by simp only [Mode.owed]; omega⟩
    split at h
    next hc =>
      refine ⟨.doubleEscaped, rest, h, ?_⟩
      simp [Mode.owed, mark, isQuoting, hc]
    split at h
    · cases h
    · exact hprepend rfl h
  | doubleEscaped =>
    simp only [step] at h
    split at h
    · cases h
    split at h
    · exact hprepend rfl h
    · obtain ⟨rest', hrest', rfl⟩ := Option.map_eq_some_iff.mp h
      refine ⟨.double, rest', hrest', ?_⟩
      have hbackslash : mark '\\' = 1 := rfl
      rw [chars_prepend, chars_prepend, marks_cons, marks_cons, hbackslash]
      simp only [Mode.owed]
      omega

theorem lex_nil (h : lex [] mode = some rest) : rest = ([], []) := by
  cases mode <;> cases h <;> rfl

theorem marks_lex (h : lex line mode = some rest) :
    marks rest.chars ≤ marks line + mode.owed := by
  induction line generalizing mode rest with
  | nil =>
    rw [lex_nil h]
    exact Nat.zero_le _
  | cons c cs ih =>
    obtain ⟨mode', rest', hrest', hle⟩ := step_marks h
    have hmarks := ih hrest'
    rw [marks_cons]
    omega

/-- A mark outside of quotes is lost. -/
theorem marks_lex_lt (hbare : mode.bare) (h : lex line mode = some rest)
    (hline : 0 < marks line) : marks rest.chars < marks line := by
  induction line generalizing mode rest with
  | nil => cases hline
  | cons c cs ih =>
    obtain ⟨mode', rest', hrest', howed, hnext, hle⟩ := bare_step hbare h
    rw [marks_cons] at hline ⊢
    cases hc : isQuoting c with
    | true =>
      have hmark : mark c = 1 := if_pos hc
      have hmarks := marks_lex hrest'
      omega
    | false =>
      rw [mark_of_not hc] at hline ⊢
      rw [hc] at hnext
      have hmarks := ih (hnext.resolve_left Bool.false_ne_true) hrest' hline
      omega

end Quoting

section Words

variable {next : Mode → Option Rest} {line : List Char} {mode : Mode} {rest : Rest} {c : Char}
  {word : List Char} {words : List (List Char)}

def Bare (w : Word) : Prop := ∀ l ∈ w, l.quoted = false ∧ isPlain l.char = true

def Begun (w : Word) : Prop := ∃ l, w.head? = some l ∧ l.char ≠ '#' ∧ l.char ≠ '~'

theorem isPlain_iff : isPlain c = true ↔ isBlank c = false ∧ isOperator c = false ∧
    isExpansion c = false ∧ isQuoting c = false ∧ c ≠ '\x00' := by
  simp [isPlain, and_assoc]

theorem bare_nil : Bare [] := List.forall_mem_nil _

theorem bare_lex (hbare : mode.bare) (hmarks : marks line = 0) (hnul : '\x00' ∉ line)
    (h : lex line mode = some rest) :
    Bare rest.1 ∧ ∀ w ∈ rest.2, Bare w ∧ Begun w := by
  induction line generalizing mode rest with
  | nil =>
    rw [lex_nil h]
    exact ⟨bare_nil, List.forall_mem_nil _⟩
  | cons c cs ih =>
    rw [marks_cons] at hmarks
    rw [List.mem_cons, not_or] at hnul
    have hcs : marks cs = 0 := by omega
    have hc : isQuoting c = false := by
      by_contra hquoting
      have hmark : mark c = 1 := if_pos (by simpa using hquoting)
      omega
    have hword {rest : Rest} (hblank : isBlank c = false) (h : inWord (lex cs) c = some rest) :
        (∃ w, rest.1 = ⟨c, false⟩ :: w) ∧ Bare rest.1 ∧ ∀ w ∈ rest.2, Bare w ∧ Begun w := by
      obtain ⟨hquoting, -⟩ | ⟨-, hoperator, hexpansion, rest', hrest', rfl⟩ := inWord_step h
      · rw [hc] at hquoting
        cases hquoting
      · obtain ⟨hfirst, hrest⟩ := ih word_bare hcs hnul.2 hrest'
        refine ⟨⟨_, rfl⟩, List.forall_mem_cons.mpr ⟨⟨rfl, ?_⟩, hfirst⟩, hrest⟩
        exact isPlain_iff.mpr ⟨hblank, hoperator, hexpansion, hc, Ne.symm hnul.1⟩
    cases mode with
    | gap =>
      simp only [lex, step] at h
      split at h
      · exact ih gap_bare hcs hnul.2 h
      next hblank =>
        split at h
        · exact ih comment_bare hcs hnul.2 h
        next hcomment =>
          split at h
          · cases h
          next htilde =>
            obtain ⟨rest', hrest', rfl⟩ := Option.map_eq_some_iff.mp h
            obtain ⟨⟨w, hw⟩, hfirst, hrest⟩ := hword (by simpa using hblank) hrest'
            refine ⟨bare_nil, List.forall_mem_cons.mpr ⟨⟨hfirst, ?_⟩, hrest⟩⟩
            exact ⟨⟨c, false⟩, by rw [hw]; rfl, hcomment, htilde⟩
    | word =>
      simp only [lex, step] at h
      split at h
      · obtain ⟨rest', hrest', rfl⟩ := Option.map_eq_some_iff.mp h
        exact ⟨bare_nil, (ih gap_bare hcs hnul.2 hrest').2⟩
      next hblank => exact (hword (by simpa using hblank) h).2
    | comment =>
      simp only [lex, step] at h
      split at h
      · cases h
      · exact ih comment_bare hcs hnul.2 h
    | escaped | single | double | doubleEscaped => cases hbare

theorem inWord_plain (hc : isPlain c = true) :
    inWord next c = (next .word).map (prepend c false) := by
  obtain ⟨-, hoperator, hexpansion, hquoting, -⟩ := isPlain_iff.mp hc
  obtain ⟨⟨hescape, hsingle⟩, hdouble⟩ : (c ≠ '\\' ∧ c ≠ '\'') ∧ c ≠ '"' := by
    simpa [isQuoting] using hquoting
  unfold inWord
  rw [hoperator, hexpansion, if_neg hescape, if_neg hsingle, if_neg hdouble]
  rfl

theorem lex_plain (hword : ∀ c ∈ word, isPlain c = true) : lex (word ++ line) .word =
    (lex line .word).map fun rest => (unquoted word ++ rest.1, rest.2) := by
  induction word with
  | nil =>
    rw [List.nil_append]
    cases lex line .word <;> rfl
  | cons c cs ih =>
    obtain ⟨hc, hcs⟩ := List.forall_mem_cons.mp hword
    have hblank : ¬ isBlank c = true := by simp [(isPlain_iff.mp hc).1]
    rw [List.cons_append]
    simp only [lex, step]
    rw [if_neg hblank, inWord_plain hc, ih hcs, Option.map_map]
    rfl

theorem lex_begun (h : Plain word) : lex (word ++ line) .gap =
    (lex line .word).map fun rest => ([], (unquoted word ++ rest.1) :: rest.2) := by
  obtain ⟨c, hc, hcomment, htilde⟩ := h.head
  obtain ⟨cs, rfl⟩ : ∃ cs, word = c :: cs := List.head?_eq_some_iff.mp hc
  obtain ⟨hplain, hcs⟩ := List.forall_mem_cons.mp h.chars
  have hblank : ¬ isBlank c = true := by simp [(isPlain_iff.mp hplain).1]
  rw [List.cons_append]
  simp only [lex, step]
  rw [if_neg hblank, if_neg hcomment, if_neg htilde, inWord_plain hplain, lex_plain hcs,
    Option.map_map, Option.map_map]
  rfl

def joined (words : List (List Char)) : List Char := [' '].intercalate words

theorem lex_joined (h : ∀ word ∈ words, Plain word) :
    lex (joined words) .gap = some ([], words.map unquoted) := by
  induction words with
  | nil => rfl
  | cons word words ih =>
    obtain ⟨hword, hwords⟩ := List.forall_mem_cons.mp h
    unfold joined
    cases words with
    | nil =>
      rw [List.intercalate_singleton, ← List.append_nil word, lex_begun hword]
      simp [lex]
    | cons next words =>
      have hrest := ih hwords
      have hblank : lex (' ' :: joined (next :: words)) .word =
          (lex (joined (next :: words)) .gap).map closed := rfl
      rw [List.intercalate_cons_cons, List.append_assoc, lex_begun hword, List.singleton_append]
      change (lex (' ' :: joined (next :: words)) .word).map _ = _
      rw [hblank, hrest]
      simp [closed]

theorem marks_joined (words : List (List Char)) : marks (joined words) = marks words.flatten := by
  induction words with
  | nil => rfl
  | cons word words ih =>
    cases words with
    | nil => simp [joined, List.intercalate_singleton]
    | cons next words =>
      have hblank : marks [' '] = 0 := rfl
      unfold joined at ih ⊢
      unfold marks at ih hblank ⊢
      rw [List.intercalate_cons_cons, List.countP_append, List.countP_append, ih, hblank]
      simp only [List.flatten_cons, List.countP_append]
      omega

theorem bare_eq {w : Word} (h : Bare w) : unquoted (w.map (·.char)) = w := by
  unfold unquoted
  rw [List.map_map]
  refine (List.map_congr_left fun l hl => ?_).trans (List.map_id w)
  obtain ⟨hquoted, -⟩ := h l hl
  cases l
  cases hquoted
  rfl

theorem nul_notMem (h : ∀ word ∈ words, Plain word) : '\x00' ∉ joined words := by
  induction words with
  | nil => simp [joined]
  | cons word words ih =>
    obtain ⟨hword, hwords⟩ := List.forall_mem_cons.mp h
    have hfree : '\x00' ∉ word := fun hmem => absurd (hword.chars _ hmem) (by decide)
    cases words with
    | nil => simpa [joined, List.intercalate_singleton] using hfree
    | cons next words =>
      have hrest := ih hwords
      unfold joined at hrest ⊢
      rw [List.intercalate_cons_cons]
      simp [hfree, hrest]

/-- Words that are joined by blanks are the command's words exactly when each is plain. -/
theorem simpleCommand_joined_iff :
    simpleCommand (joined words) = some words ↔ ∀ word ∈ words, Plain word := by
  constructor
  · intro h
    unfold simpleCommand at h
    split at h
    · cases h
    next hnul =>
      obtain ⟨rest, hrest, h⟩ := Option.bind_eq_some_iff.mp h
      split at h
      · cases h
      next hpattern =>
        have hwords := Option.some.inj h
        have hmarks : marks (joined words) = 0 := by
          by_contra hne
          have hlost := marks_lex_lt gap_bare hrest (by omega)
          have hkept : words.flatten.Sublist rest.chars := by
            unfold Rest.chars
            rw [← hwords, ← List.map_flatten, List.map_append]
            exact List.sublist_append_right _ _
          have hle := marks_sublist hkept
          rw [← marks_joined] at hle
          omega
        obtain ⟨-, hbare⟩ := bare_lex gap_bare hmarks hnul hrest
        intro word hword
        rw [← hwords] at hword
        obtain ⟨w, hw, rfl⟩ := List.mem_map.mp hword
        obtain ⟨hw', l, hl, hhead⟩ := hbare w hw
        refine ⟨fun c hc => ?_, ⟨l.char, by simp [hl], hhead⟩, ?_⟩
        · obtain ⟨m, hm, rfl⟩ := List.mem_map.mp hc
          exact (hw' m hm).2
        · rw [bare_eq hw']
          by_contra hsome
          exact hpattern (List.any_eq_true.mpr ⟨w, hw, by simpa using hsome⟩)
  · intro h
    have hpattern : ¬ (words.map unquoted).any isPattern = true := by
      rw [List.any_eq_true]
      rintro ⟨w, hw, hpattern⟩
      obtain ⟨word, hword, rfl⟩ := List.mem_map.mp hw
      rw [(h word hword).pattern] at hpattern
      cases hpattern
    unfold simpleCommand
    rw [if_neg (nul_notMem h), lex_joined h, Option.bind_some, if_neg hpattern]
    simp [unquoted, Function.comp_def]

end Words

section Patterns

variable {w v : Word} {word : List Char}

theorem unnegated_subset : unnegated w ⊆ w := by
  cases w with
  | nil => exact List.Subset.refl _
  | cons l rest =>
    simp only [unnegated]
    split
    · exact List.subset_cons_self l rest
    · exact List.Subset.refl _

theorem any_false (hv : ∀ l ∈ v, l.char ≠ ']') :
    (v.any fun l => l.char = ']' && !l.quoted) = false := by
  rw [List.any_eq_false]
  intro l hl
  simp [hv l hl]

theorem takeWhile_more (p : Letter → Bool) (w v : Word) :
    ∃ extra, extra ⊆ v ∧ (w ++ v).takeWhile p = w.takeWhile p ++ extra := by
  induction w with
  | nil => exact ⟨v.takeWhile p, List.takeWhile_subset p, rfl⟩
  | cons l rest ih =>
    rw [List.cons_append, List.takeWhile_cons, List.takeWhile_cons]
    split
    · obtain ⟨extra, hextra, heq⟩ := ih
      exact ⟨extra, hextra, by rw [heq]; rfl⟩
    · exact ⟨[], List.nil_subset v, rfl⟩

theorem closes_append (hv : ∀ l ∈ v, l.char ≠ ']') : closes (w ++ v) = closes w := by
  obtain ⟨extra, hsubset, htake⟩ := takeWhile_more (·.char ≠ '/') w v
  have hextra : ∀ l ∈ extra, l.char ≠ ']' := fun l hl => hv l (hsubset hl)
  have hdrop {n : Nat} : ∀ l ∈ extra.drop n, l.char ≠ ']' :=
    fun l hl => hextra l (List.drop_subset _ _ hl)
  unfold closes
  rw [htake]
  cases w.takeWhile (·.char ≠ '/') with
  | nil => exact any_false fun l hl => hextra l (unnegated_subset (List.drop_subset _ _ hl))
  | cons l rest =>
    simp only [List.cons_append, unnegated]
    split
    · cases rest with
      | nil => exact any_false hdrop
      | cons m rest =>
        rw [List.cons_append, List.drop_one, List.tail_cons, List.any_append,
          any_false hextra, Bool.or_false]
        rfl
    · rw [List.drop_one, List.tail_cons, List.any_append, any_false hextra, Bool.or_false]
      rfl

theorem closes_component (quoted : Bool) : closes (w ++ ⟨'/', quoted⟩ :: v) = closes w := by
  have htake : (w ++ ⟨'/', quoted⟩ :: v).takeWhile (·.char ≠ '/') =
      w.takeWhile (·.char ≠ '/') := by
    induction w with
    | nil => rfl
    | cons l rest ih =>
      rw [List.cons_append, List.takeWhile_cons, List.takeWhile_cons, ih]
  unfold closes
  rw [htake]

theorem isPattern_append (hv : ∀ l ∈ v, l.char ∉ ['*', '?', '[', ']']) :
    isPattern (w ++ v) = isPattern w := by
  induction w with
  | nil =>
    induction v with
    | nil => rfl
    | cons l rest ih =>
      obtain ⟨hl, hrest⟩ := List.forall_mem_cons.mp hv
      simp only [List.mem_cons, List.not_mem_nil, or_false, not_or] at hl
      rw [List.nil_append] at ih ⊢
      unfold isPattern
      rw [ih hrest]
      simp [hl, isPattern]
  | cons l rest ih =>
    have hclose : ∀ l ∈ v, l.char ≠ ']' := fun l hl heq => hv l hl (by simp [heq])
    rw [List.cons_append]
    unfold isPattern
    rw [ih, closes_append hclose]

theorem isPattern_component (quoted : Bool) :
    isPattern (w ++ ⟨'/', quoted⟩ :: v) = (isPattern w || isPattern v) := by
  induction w with
  | nil => simp [isPattern]
  | cons l rest ih =>
    simp only [List.cons_append, isPattern, ih, closes_component, Bool.or_assoc]

end Patterns

end LearnPg.Basis.Shell
