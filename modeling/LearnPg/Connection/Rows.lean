import LearnPg.Connection.Client

/-! What can be read from the rows that `query` returns, by the names of the columns. A later
column takes the place of an earlier one of the same name, unless it is NULL, and bytes are
written as a list of numbers. -/
namespace LearnPg.Connection

open Basis.Maps

/-- The text of a cell. Bytes stand for the string that they are. -/
def Cell.text : Cell → Option Bytes
  | .null => none
  | .string text | .bytes text => some text
  | .int n => some (ascii (toString n))
  | .bool b => some (ascii (toString b))

def resultSet (columns : List Bytes) (values : List (List Cell)) : Rows :=
  ⟨.ok columns, .ok (), values.map .ok, none⟩

/-- Every cell is read back, by its row and the name of its column. -/
def Determines (columns : List Bytes) (values : List (List Cell)) (result : ExecuteResult) : Prop :=
  result.columns.map (·.name) = columns ∧
    ∀ (i j : Nat) (row : List Cell) (name : Bytes) (cell : Cell), values[i]? = some row →
      columns[j]? = some name → row[j]? = some cell →
        ∃ m, result.rows[i]? = some m ∧ m.lookup name = cell.text

/-- Columns of one name have one text, and the last of them is not delivered as bytes. -/
structure Distinct (cells : List (Bytes × Cell)) : Prop where
  same : ∀ e ∈ cells, ∀ e' ∈ cells, e.1 = e'.1 → e.2.text = e'.2.text
  last : ∀ before name text after, cells = before ++ (name, .bytes text) :: after →
    ∃ e ∈ after, e.1 = name

section

variable {columns : List Bytes} {row : List Cell} {values : List (List Cell)}
  {cells : List (Bytes × Cell)} {name : Bytes} {cell : Cell}

/-- The cell under a name that is read: the last one that is not NULL. -/
def readBack (cells : List (Bytes × Cell)) (name : Bytes) : Option Bytes :=
  (cells.reverse.find? fun e => e.1 = name ∧ e.2 ≠ .null).map (format ·.2)

theorem lookup_rowMap (columns : List Bytes) (row : List Cell) (name : Bytes) :
    (rowMap columns row).lookup name = readBack (columns.zip row) name := by
  unfold rowMap readBack
  generalize columns.zip row = cells
  induction cells using List.reverseRecOn with
  | nil => rfl
  | append_singleton cells e ih =>
    rw [List.foldl_append, List.reverse_append, List.foldl_cons, List.foldl_nil,
      List.reverse_singleton, List.singleton_append, List.find?_cons]
    by_cases hnull : e.2 = .null
    · simp [hnull, ih]
    · by_cases hname : e.1 = name
      · simp [hnull, hname]
      · rw [if_neg hnull, Finmap.lookup_insert_of_ne _ (Ne.symm hname), ih]
        simp [hname]

theorem length_join (bs : Bytes) :
    bs.length ≤ ([32].intercalate (bs.map fun b => ascii (toString b.toNat))).length := by
  have hdigits (b : UInt8) : 0 < (ascii (toString b.toNat)).length := by
    have hne : Nat.toDigits 10 b.toNat ≠ [] := Nat.toDigits_ne_nil
    simp [ascii, hne, List.length_pos_iff]
  induction bs with
  | nil => simp
  | cons b bs ih =>
    have hb := hdigits b
    cases bs with
    | nil =>
      simp only [List.map_cons, List.map_nil, List.intercalate_singleton, List.length_singleton]
      omega
    | cons b' bs =>
      rw [List.map_cons, List.map_cons, List.intercalate_cons_cons, List.length_append,
        List.length_append, List.length_cons]
      rw [List.map_cons] at ih
      omega

theorem format_bytes_ne (bs : Bytes) : format (.bytes bs) ≠ bs := by
  intro h
  have hlength := congrArg List.length h
  have hjoin := length_join bs
  simp only [format, List.length_append] at hlength
  have hopen : (ascii "[").length = 1 := rfl
  omega

theorem query_resultSet (columns : List Bytes) (values : List (List Cell)) :
    query (.ok (resultSet columns values)) =
      .ok ⟨columns.map (⟨·, 0⟩), values.map (rowMap columns),
        toString (values.map (rowMap columns)).length ++ " row(s)"⟩ := by
  have hmaps : ((values.map .ok).mapM fun scan : Except String (List Cell) =>
      (do return rowMap columns (← scan) : Except String (Map Bytes Bytes))) =
        .ok (values.map (rowMap columns)) := by
    induction values with
    | nil => rfl
    | cons row values ih =>
      rw [List.map_cons, List.mapM_cons, ih]
      rfl
  change Except.bind ((values.map .ok).mapM fun scan : Except String (List Cell) =>
      (do return rowMap columns (← scan) : Except String (Map Bytes Bytes))) _ = _
  rw [hmaps]
  rfl

theorem distinct_of_read (h : ∀ e ∈ cells, readBack cells e.1 = e.2.text) : Distinct cells := by
  constructor
  · intro e he e' he' hname
    rw [← h e he, ← h e' he', hname]
  · intro before name text after hcells
    by_contra hlast
    have hfind : (cells.reverse.find? fun e => e.1 = name ∧ e.2 ≠ .null) =
        some (name, .bytes text) := by
      rw [List.find?_eq_some_iff_append]
      refine ⟨by simp, after.reverse, before.reverse, by simp [hcells], ?_⟩
      intro e he
      have hname : e.1 ≠ name := fun hname => hlast ⟨e, by simpa using he, hname⟩
      simp [hname]
    have hread := h (name, .bytes text) (by simp [hcells])
    unfold readBack at hread
    rw [hfind] at hread
    exact format_bytes_ne text (Option.some.inj hread)

theorem read_of_distinct (h : Distinct cells) : ∀ e ∈ cells, readBack cells e.1 = e.2.text := by
  intro e he
  unfold readBack
  cases hfind : cells.reverse.find? fun x => x.1 = e.1 ∧ x.2 ≠ .null with
  | none =>
    have hnull := List.find?_eq_none.mp hfind e (by simpa using he)
    have hcell : e.2 = .null := by simpa using hnull
    rw [hcell]
    rfl
  | some x =>
    obtain ⟨hx, after, before, hcells, hafter⟩ := List.find?_eq_some_iff_append.mp hfind
    obtain ⟨hname, hnull⟩ : x.1 = e.1 ∧ x.2 ≠ .null := by simpa using hx
    have hsplit : cells = before.reverse ++ x :: after.reverse := by
      rw [← List.reverse_reverse cells, hcells]
      simp
    have hmem : x ∈ cells := by simp [hsplit]
    have htext := h.same x hmem e he hname
    rw [← htext, Option.map_some]
    obtain ⟨name, cell⟩ := x
    cases cell with
    | null => exact absurd rfl hnull
    | bytes text =>
      -- a NULL may stand behind it, but has not its text
      obtain ⟨y, hy, hyname⟩ := h.last _ _ _ _ hsplit
      have hynull : y.2 = .null := by
        have hout := hafter y (by simpa using hy)
        have hyname' : y.1 = e.1 := hyname.trans hname
        simpa [hyname'] using hout
      have hytext := h.same y (by simp [hsplit, hy]) _ hmem hyname
      rw [hynull] at hytext
      cases hytext
    | string | int | bool => rfl

theorem lookup_text_iff (columns : List Bytes) (row : List Cell) :
    (∀ e ∈ columns.zip row, (rowMap columns row).lookup e.1 = e.2.text) ↔
      Distinct (columns.zip row) := by
  simp only [lookup_rowMap]
  exact ⟨distinct_of_read, read_of_distinct⟩

/-- For every result set without an error: the result of `query` gives back every cell, NULL or
its text, exactly if in each row columns of one name have one text and none but an earlier
one of them is delivered as bytes. -/
theorem query_determines_iff (columns : List Bytes) (values : List (List Cell)) :
    (∃ result, query (.ok (resultSet columns values)) = .ok result ∧
      Determines columns values result) ↔
        ∀ row ∈ values, Distinct (columns.zip row) := by
  rw [query_resultSet]
  simp only [← lookup_text_iff, Except.ok.injEq, exists_eq_left', Determines]
  constructor
  · rintro ⟨-, h⟩ row hrow e he
    obtain ⟨i, hi⟩ := List.mem_iff_getElem?.mp hrow
    obtain ⟨j, hj⟩ := List.mem_iff_getElem?.mp he
    obtain ⟨hname, hcell⟩ := List.getElem?_zip_eq_some.mp hj
    obtain ⟨m, hm, hlookup⟩ := h i j row e.1 e.2 hi hname hcell
    rw [List.getElem?_map, hi, Option.map_some, Option.some.injEq] at hm
    rw [hm]
    exact hlookup
  · intro h
    refine ⟨by simp [Function.comp_def], fun i j row name cell hi hname hcell => ?_⟩
    refine ⟨rowMap columns row, by simp [hi], ?_⟩
    have he : (name, cell) ∈ columns.zip row :=
      List.mem_iff_getElem?.mpr ⟨j, List.getElem?_zip_eq_some.mpr ⟨hname, hcell⟩⟩
    exact h row (List.mem_of_getElem? hi) _ he

end

/-- Text that the driver delivers as bytes. -/
theorem bytes_misread : ¬ ∀ (columns : List Bytes) (values : List (List Cell)),
    ∃ result, query (.ok (resultSet columns values)) = .ok result ∧
      Determines columns values result := by
  intro h
  obtain ⟨result, hquery, -, hread⟩ := h [ascii "name"] [[.bytes (ascii "ab")]]
  rw [query_resultSet, Except.ok.injEq] at hquery
  subst hquery
  obtain ⟨m, hm, hlookup⟩ := hread 0 0 _ _ _ rfl rfl rfl
  cases hm
  revert hlookup
  decide

end LearnPg.Connection
