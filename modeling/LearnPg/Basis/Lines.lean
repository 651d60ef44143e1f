import Mathlib.Data.List.Basic

/-! A text as lines, each with its end, and a line as words with blanks between them. -/
namespace LearnPg.Basis.Lines

def lines (text : List Char) : List (List Char) := (text.splitOn '\n').dropLast

def words (line : List Char) : List (List Char) :=
  (line.splitOn ' ').filter fun word => !word.isEmpty

variable {line word : List Char}

theorem lines_cons (h : '\n' ∉ line) (rest : List Char) :
    lines (line ++ '\n' :: rest) = line :: lines rest := by
  unfold lines
  rw [List.splitOn_append_cons_self_of_not_mem h]
  exact List.dropLast_cons_of_ne_nil (List.splitOn_ne_nil _ _)

theorem lines_flatMap {α : Type} {f : α → List Char} {rows : List α}
    (h : ∀ row ∈ rows, '\n' ∉ f row) :
    lines (rows.flatMap fun row => f row ++ ['\n']) = rows.map f := by
  induction rows with
  | nil => rfl
  | cons row rows ih =>
    obtain ⟨hrow, hrows⟩ := List.forall_mem_cons.mp h
    rw [List.flatMap_cons, List.append_assoc, List.singleton_append, lines_cons hrow, ih hrows,
      List.map_cons]

theorem words_append (line rest : List Char) :
    words (line ++ ' ' :: rest) = words line ++ words rest := by
  unfold words
  rw [List.splitOn_append_cons_self, List.filter_append]

theorem words_blank (rest : List Char) : words (' ' :: rest) = words rest :=
  words_append [] rest

theorem words_word (hne : word ≠ []) (h : ' ' ∉ word) : words word = [word] := by
  unfold words
  rw [List.splitOn_eq_singleton h]
  simp [hne]

theorem words_cons (hne : word ≠ []) (h : ' ' ∉ word) (rest : List Char) :
    words (word ++ ' ' :: rest) = word :: words rest := by
  rw [words_append, words_word hne h, List.singleton_append]

end LearnPg.Basis.Lines
