import LearnPg.Basis.HexText
import LearnPg.Basis.Lines

/-! Bytes as a hex dump, and the dump read back. -/
namespace LearnPg.Wal.HexDump

open Basis.HexText Basis.Lines

/-- What an `int` is after an overflow. -/
def wrap (n : Int) : Int := (n + 2 ^ 63) % 2 ^ 64 - 2 ^ 63

/-- Where the loop is; it may also read a byte that is not there, or write more than the buffer
can hold (`bytes.ErrTooLarge`). -/
inductive Dump where
  | running
  | panicked
  | returned (text : List Char)

/-- `%04X`. -/
def offsetText (i : Int) : List Char :=
  if i < 0 then '-' :: padded 3 i.natAbs else padded 4 i.toNat

/-- `%02X`. -/
def hexText (b : UInt8) : List Char := padded 2 b.toNat

/-- What follows the place `k` of a line. -/
def gap (k : Nat) : List Char := if k % 8 = 7 then [' '] else []

def hexColumn (k : Nat) : List UInt8 → List Char
  | [] => []
  | b :: bytes => hexText b ++ ' ' :: (gap k ++ hexColumn (k + 1) bytes)

def padding (k : Nat) : Nat → List Char
  | 0 => []
  | count + 1 => ' ' :: ' ' :: ' ' :: (gap k ++ padding (k + 1) count)

def asciiText (b : UInt8) : Char :=
  if 32 ≤ b ∧ b < 127 then Char.ofNat b.toNat else '.'

/-- The bytes from `i` on, up to `stop`. -/
def bytesBetween (data : List UInt8) (i stop : Int) : Option (List UInt8) :=
  if stop ≤ i then some []
  else if i < 0 then none
  else some ((data.drop i.toNat).take (stop - i).toNat)

def lineText (data : List UInt8) (bytesPerLine i : Int) : Option (List Char) :=
  let stop := wrap (i + bytesPerLine)
  let stop := if (data.length : Int) < stop then (data.length : Int) else stop
  let filled := wrap (stop - i)
  (bytesBetween data i stop).map fun bytes =>
    offsetText i ++ ' ' :: ' ' :: (hexColumn 0 bytes ++
      ((if filled < bytesPerLine then padding filled.toNat (bytesPerLine - filled).toNat else []) ++
        ' ' :: '|' :: (bytes.map asciiText ++ ['|', '\n'])))

/-- The buffer can hold `room` bytes. -/
def dumpFrom (room : Nat) (data : List UInt8) (bytesPerLine : Int) : Nat → Int → List Char → Dump
  | 0, _, _ => .running
  | fuel + 1, i, buf =>
    if i < (data.length : Int) then
      match lineText data bytesPerLine i with
      | none => .panicked
      | some line =>
        if (buf ++ line).length ≤ room then
          dumpFrom room data bytesPerLine fuel (wrap (i + bytesPerLine)) (buf ++ line)
        else .panicked
    else .returned buf

def width (bytesPerLine : Int64) : Int := if bytesPerLine = 0 then 16 else bytesPerLine.toInt

def dumpHex (room fuel : Nat) (data : List UInt8) (bytesPerLine : Int64) : Dump :=
  dumpFrom room data (width bytesPerLine) fuel 0 []

/-! Reading a dump. -/

def hexPart (line : List Char) : List Char := line.takeWhile fun c => !(c == '|')

def asciiStart (line : List Char) : Nat := (hexPart line).length

def offsetOf (line : List Char) : Nat := value ((words (hexPart line)).headD [])

def bytesOf (line : List Char) : List Nat := (words (hexPart line)).tail.map value

structure ReadsBack (data : List UInt8) (text : List Char) : Prop where
  bytes : (lines text).flatMap bytesOf = data.map UInt8.toNat
  offsets : ∀ before line after, lines text = before ++ line :: after →
    offsetOf line = (before.flatMap bytesOf).length
  ascii : ∀ line ∈ lines text, ∀ other ∈ lines text, asciiStart line = asciiStart other

/-- The loop ends, and its dump reads back. -/
def DumpsWell (room : Nat) (data : List UInt8) (bytesPerLine : Int64) : Prop :=
  ∃ fuel text, dumpHex room fuel data bytesPerLine = .returned text ∧ ReadsBack data text

/-! One line. -/

def rowFront (w start : Nat) (bytes : List UInt8) : List Char :=
  padded 4 start ++ ' ' :: ' ' :: (hexColumn 0 bytes ++
    (padding bytes.length (w - bytes.length) ++ [' ']))

def rowText (w start : Nat) (bytes : List UInt8) : List Char :=
  rowFront w start bytes ++ '|' :: (bytes.map asciiText ++ ['|'])

theorem notMem_padded {c : Char} (h : digitValue c = none) (width n : Nat) :
    c ∉ padded width n := by
  intro hmem
  obtain ⟨digits, hmap, -⟩ := map_digitValue_padded width n
  have hdigit := digit_of_mem hmap hmem
  rw [h] at hdigit
  cases hdigit

theorem le_padded_length (width n : Nat) : width ≤ (padded width n).length := by
  rw [padded, List.length_append, List.length_replicate]
  omega

theorem padded_ne_nil (width n : Nat) : padded (width + 1) n ≠ [] :=
  List.ne_nil_of_length_pos (Nat.lt_of_lt_of_le width.succ_pos (le_padded_length (width + 1) n))

theorem mem_gap {k : Nat} {c : Char} (h : c ∈ gap k) : c = ' ' := by
  unfold gap at h
  split at h
  · exact List.mem_singleton.mp h
  · cases h

theorem words_gap (k : Nat) (rest : List Char) : words (gap k ++ rest) = words rest := by
  unfold gap
  split
  · exact words_blank rest
  · rfl

theorem hexColumn_length (k : Nat) (bytes : List UInt8) (count : Nat) :
    (hexColumn k bytes).length + (padding (k + bytes.length) count).length =
      (padding k (bytes.length + count)).length := by
  induction bytes generalizing k with
  | nil => simp [hexColumn]
  | cons b bytes ih =>
    have hb : (hexText b).length = 1 + 1 := padded_length b.toNat_lt
    have hk := ih (k + 1)
    have heq : (b :: bytes).length + count = (bytes.length + count) + 1 := by
      rw [List.length_cons]
      omega
    have hplace : k + (b :: bytes).length = k + 1 + bytes.length := by
      rw [List.length_cons]
      omega
    rw [heq, hplace, hexColumn, padding]
    simp only [List.length_append, List.length_cons, hb]
    omega

theorem mem_hexColumn {k : Nat} {bytes : List UInt8} {c : Char} (h : c ∈ hexColumn k bytes)
    (hc : digitValue c = none) : c = ' ' := by
  induction bytes generalizing k with
  | nil => cases h
  | cons b bytes ih =>
    rw [hexColumn, List.mem_append, List.mem_cons, List.mem_append] at h
    rcases h with h | h | h | h
    · exact absurd h (notMem_padded hc 2 b.toNat)
    · exact h
    · exact mem_gap h
    · exact ih h

theorem mem_padding {k count : Nat} {c : Char} (h : c ∈ padding k count) : c = ' ' := by
  induction count generalizing k with
  | zero => cases h
  | succ count ih =>
    rw [padding, List.mem_cons, List.mem_cons, List.mem_cons, List.mem_append] at h
    rcases h with h | h | h | h | h
    · exact h
    · exact h
    · exact h
    · exact mem_gap h
    · exact ih h

theorem mem_rowFront {w start : Nat} {bytes : List UInt8} {c : Char}
    (h : c ∈ rowFront w start bytes) (hc : digitValue c = none) : c = ' ' := by
  simp only [rowFront, List.mem_append, List.mem_cons, List.not_mem_nil, or_false] at h
  rcases h with h | h | h | h | h | h
  · exact absurd h (notMem_padded hc 4 start)
  · exact h
  · exact h
  · exact mem_hexColumn h hc
  · exact mem_padding h
  · exact h

theorem asciiText_ne (b : UInt8) : asciiText b ≠ '\n' := by
  have hchars : ∀ n < 127, 32 ≤ n → Char.ofNat n ≠ '\n' := by decide
  unfold asciiText
  split
  next h => exact hchars b.toNat h.2 h.1
  next => decide

theorem newline_notMem_rowText (w start : Nat) (bytes : List UInt8) :
    '\n' ∉ rowText w start bytes := by
  simp only [rowText, List.mem_append, List.mem_cons, List.mem_map, List.not_mem_nil, or_false,
    not_or, not_exists, not_and]
  refine ⟨fun h => ?_, by decide, fun b _ => asciiText_ne b, by decide⟩
  exact absurd (mem_rowFront h (by decide)) (by decide)

theorem hexPart_rowText (w start : Nat) (bytes : List UInt8) :
    hexPart (rowText w start bytes) = rowFront w start bytes := by
  have hfront : ∀ c ∈ rowFront w start bytes, (!(c == '|')) = true := by
    intro c hc
    rw [Bool.not_eq_true', beq_eq_false_iff_ne]
    rintro rfl
    exact absurd (mem_rowFront hc (by decide)) (by decide)
  rw [hexPart, rowText, List.takeWhile_append_of_pos hfront]
  simp

theorem words_hexColumn (k : Nat) (bytes : List UInt8) (rest : List Char) :
    words (hexColumn k bytes ++ rest) = bytes.map hexText ++ words rest := by
  induction bytes generalizing k with
  | nil => rfl
  | cons b bytes ih =>
    have hne : hexText b ≠ [] := padded_ne_nil 1 b.toNat
    have hfree : ' ' ∉ hexText b := notMem_padded (by decide) 2 b.toNat
    rw [hexColumn, List.append_assoc, List.cons_append, words_cons hne hfree, List.append_assoc,
      words_gap, ih]
    rfl

theorem words_padding (k count : Nat) (rest : List Char) :
    words (padding k count ++ rest) = words rest := by
  induction count generalizing k with
  | zero => rfl
  | succ count ih =>
    rw [padding, List.cons_append, List.cons_append, List.cons_append, words_blank, words_blank,
      words_blank, List.append_assoc, words_gap, ih]

theorem words_rowFront (w start : Nat) (bytes : List UInt8) :
    words (rowFront w start bytes) = padded 4 start :: bytes.map hexText := by
  rw [rowFront, words_cons (padded_ne_nil 3 start) (notMem_padded (by decide) 4 start),
    words_blank, words_hexColumn, words_padding, words_blank]
  exact congrArg _ (List.append_nil _)

@[simp] theorem offsetOf_rowText (w start : Nat) (bytes : List UInt8) :
    offsetOf (rowText w start bytes) = start := by
  rw [offsetOf, hexPart_rowText, words_rowFront]
  exact value_padded 4 start

@[simp] theorem bytesOf_rowText (w start : Nat) (bytes : List UInt8) :
    bytesOf (rowText w start bytes) = bytes.map UInt8.toNat := by
  rw [bytesOf, hexPart_rowText, words_rowFront, List.tail_cons, List.map_map]
  exact List.map_congr_left fun b _ => value_padded 2 b.toNat

theorem asciiStart_rowText {w : Nat} {bytes : List UInt8} (h : bytes.length ≤ w) (start : Nat) :
    asciiStart (rowText w start bytes) = (padded 4 start).length + (padding 0 w).length + 3 := by
  have hlength := hexColumn_length 0 bytes (w - bytes.length)
  rw [Nat.zero_add, Nat.add_sub_cancel' h] at hlength
  rw [asciiStart, hexPart_rowText, rowFront]
  simp only [List.length_append, List.length_cons, List.length_nil]
  omega

theorem padding_length (k count : Nat) :
    (padding k count).length = 3 * count + ((k + count) / 8 - k / 8) := by
  induction count generalizing k with
  | zero => simp [padding]
  | succ count ih =>
    have hgap : (gap k).length = (k + 1) / 8 - k / 8 := by
      unfold gap
      split
      · rw [List.length_singleton]
        omega
      · rw [List.length_nil]
        omega
    rw [padding, List.length_cons, List.length_cons, List.length_cons, List.length_append, hgap, ih]
    omega

theorem rowText_length {w : Nat} {bytes : List UInt8} (h : bytes.length ≤ w) {start : Nat}
    (hfour : (padded 4 start).length = 4) :
    (rowText w start bytes ++ ['\n']).length = 10 + 3 * w + w / 8 + bytes.length := by
  have hfront := asciiStart_rowText h start
  rw [asciiStart, hexPart_rowText, hfour, padding_length] at hfront
  rw [rowText]
  simp only [List.length_append, List.length_cons, List.length_map, List.length_nil, hfront]
  omega

/-! The lines of a dump. -/

/-- The lines that show `rest`, which starts at an index, by `w` bytes each. -/
inductive Rows (w : Nat) : Nat → List UInt8 → List (Nat × List UInt8) → Prop where
  | done (start : Nat) : Rows w start [] []
  | row {start : Nat} {rest : List UInt8} {rows : List (Nat × List UInt8)} (hne : rest ≠ [])
      (hrows : Rows w (start + w) (rest.drop w) rows) :
      Rows w start rest ((start, rest.take w) :: rows)

section

variable {w start : Nat} {rest : List UInt8} {rows : List (Nat × List UInt8)}

theorem Rows.bytes (h : Rows w start rest rows) : rows.flatMap Prod.snd = rest := by
  induction h with
  | done => rfl
  | row hne hrows ih => rw [List.flatMap_cons, ih, List.take_append_drop]

theorem Rows.length_le (h : Rows w start rest rows) : ∀ row ∈ rows, row.2.length ≤ w := by
  induction h with
  | done => exact List.forall_mem_nil _
  | row hne hrows ih => exact List.forall_mem_cons.mpr ⟨List.length_take_le _ _, ih⟩

theorem Rows.start_eq (h : Rows w start rest rows) {before after : List (Nat × List UInt8)}
    {row : Nat × List UInt8} (hrow : rows = before ++ row :: after) :
    row.1 = start + (before.flatMap Prod.snd).length := by
  induction h generalizing before with
  | done => simp at hrow
  | @row start rest rows hne hrows ih =>
    cases before with
    | nil =>
      obtain ⟨rfl, -⟩ := List.cons.inj hrow
      rfl
    | cons first before =>
      obtain ⟨rfl, hrest⟩ := List.cons.inj hrow
      -- only the last line may be short
      have hlong : w < rest.length := by
        by_contra hshort
        rw [List.drop_eq_nil_of_le (not_lt.mp hshort)] at hrows
        cases hrows with
        | done => simp at hrest
        | row hnone => exact hnone rfl
      have hfull : (rest.take w).length = w := by
        rw [List.length_take]
        omega
      rw [ih hrest, List.flatMap_cons, List.length_append, hfull]
      omega

theorem Rows.start_mem (h : Rows w start rest rows) {s : Nat} (hle : start ≤ s)
    (hlt : s < start + rest.length) (hdvd : w ∣ s - start) : ∃ bytes, (s, bytes) ∈ rows := by
  induction h with
  | done =>
    simp only [List.length_nil] at hlt
    omega
  | @row start rest rows hne hrows ih =>
    by_cases heq : s = start
    · subst heq
      exact ⟨_, List.mem_cons_self⟩
    · obtain ⟨k, hk⟩ := hdvd
      cases k with
      | zero => omega
      | succ k =>
        rw [Nat.mul_succ] at hk
        obtain ⟨bytes, hmem⟩ := ih (by omega) (by rw [List.length_drop]; omega)
          ⟨k, by omega⟩
        exact ⟨bytes, List.mem_cons_of_mem _ hmem⟩

theorem Rows.start_bound (h : Rows w start rest rows) : ∀ row ∈ rows,
    start ≤ row.1 ∧ row.1 < start + rest.length ∧ w ∣ row.1 - start := by
  induction h with
  | done => exact List.forall_mem_nil _
  | @row start rest rows hne hrows ih =>
    have hpos := List.length_pos_of_ne_nil hne
    refine List.forall_mem_cons.mpr ⟨⟨le_refl start, by omega, by simp⟩, fun row hrow => ?_⟩
    obtain ⟨hle, hlt, k, hk⟩ := ih row hrow
    rw [List.length_drop] at hlt
    refine ⟨by omega, by omega, k + 1, ?_⟩
    rw [Nat.mul_succ]
    omega

theorem exists_rows (hw : 0 < w) (start : Nat) (rest : List UInt8) :
    ∃ rows, Rows w start rest rows := by
  induction hn : rest.length using Nat.strongRecOn generalizing start rest with
  | ind n ih =>
    by_cases hne : rest = []
    · subst hne
      exact ⟨[], .done start⟩
    · have hpos := List.length_pos_of_ne_nil hne
      obtain ⟨rows, hrows⟩ := ih (rest.drop w).length (by rw [List.length_drop]; omega)
        (start + w) (rest.drop w) rfl
      exact ⟨_, .row hne hrows⟩

theorem Rows.count (h : Rows w start rest rows) (hw : 0 < w) :
    rows.length = (rest.length + w - 1) / w := by
  induction h with
  | done =>
    rw [List.length_nil, List.length_nil, Nat.zero_add, Nat.div_eq_of_lt (Nat.sub_one_lt_of_lt hw)]
  | @row start rest rows hne hrows ih =>
    have hpos := List.length_pos_of_ne_nil hne
    rw [List.length_cons, ih, List.length_drop]
    by_cases hle : w ≤ rest.length
    · have hsum : rest.length + w - 1 = (rest.length - w + w - 1) + w := by omega
      rw [hsum, Nat.add_div_right _ hw]
    · have hzero : rest.length - w = 0 := by omega
      have hsum : rest.length + w - 1 = (rest.length - 1) + w := by omega
      rw [hzero, hsum, Nat.add_div_right _ hw, Nat.zero_add,
        Nat.div_eq_of_lt (Nat.sub_one_lt_of_lt hw), Nat.div_eq_of_lt (by omega)]

def rowsText (w : Nat) (rows : List (Nat × List UInt8)) : List Char :=
  rows.flatMap fun row => rowText w row.1 row.2 ++ ['\n']

theorem Rows.text_length (h : Rows w start rest rows)
    (hfour : ∀ row ∈ rows, (padded 4 row.1).length = 4) :
    (rowsText w rows).length = rows.length * (10 + 3 * w + w / 8) + rest.length := by
  induction h with
  | done => simp [rowsText]
  | @row start rest rows hne hrows ih =>
    obtain ⟨hfirst, hmore⟩ := List.forall_mem_cons.mp hfour
    have htext : rowsText w ((start, rest.take w) :: rows) =
        (rowText w start (rest.take w) ++ ['\n']) ++ rowsText w rows := rfl
    rw [htext, List.length_append, rowText_length (List.length_take_le _ _) hfirst, ih hmore]
    generalize 10 + 3 * w + w / 8 = width
    rw [List.length_cons, Nat.succ_mul, List.length_take, List.length_drop]
    omega

theorem lines_rowsText (w : Nat) (rows : List (Nat × List UInt8)) :
    lines (rowsText w rows) = rows.map fun row => rowText w row.1 row.2 :=
  lines_flatMap fun row _ => newline_notMem_rowText w row.1 row.2

theorem flatMap_bytesOf (w : Nat) (rows : List (Nat × List UInt8)) :
    (rows.map fun row => rowText w row.1 row.2).flatMap bytesOf =
      (rows.flatMap Prod.snd).map UInt8.toNat := by
  simp only [List.flatMap_map, bytesOf_rowText, List.map_flatMap]

theorem readsBack_rows_iff (h : Rows w 0 rest rows) : ReadsBack rest (rowsText w rows) ↔
    ∀ row ∈ rows, ∀ other ∈ rows, (padded 4 row.1).length = (padded 4 other.1).length := by
  have hstart (row : Nat × List UInt8) (hrow : row ∈ rows) :
      asciiStart (rowText w row.1 row.2) =
        (padded 4 row.1).length + (padding 0 w).length + 3 :=
    asciiStart_rowText (h.length_le row hrow) row.1
  constructor
  · intro hreads row hrow other hother
    have hascii := hreads.ascii
    rw [lines_rowsText] at hascii
    have heq := hascii _ (List.mem_map_of_mem hrow) _ (List.mem_map_of_mem hother)
    rw [hstart row hrow, hstart other hother] at heq
    omega
  · intro hsame
    refine ⟨?_, ?_, ?_⟩
    · rw [lines_rowsText, flatMap_bytesOf, h.bytes]
    · intro before line after hline
      rw [lines_rowsText] at hline
      obtain ⟨left, right, rfl, rfl, hright⟩ := List.map_eq_append_iff.mp hline
      obtain ⟨row, more, rfl, rfl, -⟩ := List.map_eq_cons_iff.mp hright
      rw [offsetOf_rowText, h.start_eq rfl, flatMap_bytesOf, List.length_map, Nat.zero_add]
    · rw [lines_rowsText]
      intro line hline other hother
      obtain ⟨row, hrow, rfl⟩ := List.mem_map.mp hline
      obtain ⟨row', hrow', rfl⟩ := List.mem_map.mp hother
      rw [hstart row hrow, hstart row' hrow', hsame row hrow row' hrow']

end

/-! The loop. -/

theorem wrap_eq {n : Int} (hle : -2 ^ 63 ≤ n) (hlt : n < 2 ^ 63) : wrap n = n := by
  unfold wrap
  omega

theorem wrap_add {i w : Nat} (h : i + w < 2 ^ 63) :
    wrap ((i : Int) + w) = ((i + w : Nat) : Int) := by
  rw [wrap_eq (by omega) (by omega), Int.natCast_add]

section

variable {room : Nat} {data : List UInt8} {w : Nat} {buf text : List Char}

theorem lineText_eq {i : Nat} (hw : 0 < w) (hi : i < data.length) (hfit : i + w < 2 ^ 63) :
    lineText data w i = some (rowText w i ((data.drop i).take w) ++ ['\n']) := by
  have hsum : wrap ((i : Int) + w) = (i : Int) + w := wrap_eq (by omega) (by omega)
  have hoffset : offsetText i = padded 4 i := by
    rw [offsetText, if_neg (by omega), Int.toNat_natCast]
  obtain ⟨stop, hstop, hmin⟩ : ∃ stop : Nat,
      (if (data.length : Int) < (i : Int) + w then (data.length : Int) else (i : Int) + w) = stop ∧
        stop = min data.length (i + w) := by
    refine ⟨min data.length (i + w), ?_, rfl⟩
    split
    · omega
    · omega
  have hbytes : bytesBetween data i stop = some ((data.drop i).take w) := by
    rw [bytesBetween, if_neg (by omega), if_neg (by omega), Int.toNat_natCast, Option.some_inj,
      List.take_eq_take_iff, List.length_drop]
    omega
  have hlength : ((data.drop i).take w).length = stop - i := by
    rw [List.length_take, List.length_drop]
    omega
  have hfilled : wrap ((stop : Int) - i) = ((stop - i : Nat) : Int) := by
    rw [wrap_eq (by omega) (by omega)]
    omega
  have hpadding : (if ((stop - i : Nat) : Int) < w then
      padding ((stop - i : Nat) : Int).toNat ((w : Int) - ((stop - i : Nat) : Int)).toNat else []) =
        padding (stop - i) (w - (stop - i)) := by
    split
    next =>
      have hcount : ((w : Int) - ((stop - i : Nat) : Int)).toNat = w - (stop - i) := by omega
      rw [hcount, Int.toNat_natCast]
    next =>
      have hcount : w - (stop - i) = 0 := by omega
      rw [hcount]
      rfl
  unfold lineText
  simp only [hsum, hstop, hbytes, hfilled, hpadding, hoffset, Option.map_some, rowText, rowFront,
    hlength, List.append_assoc, List.cons_append, List.nil_append]

theorem lineText_negative {width i : Int} (hi : i < 0) (hstop : i < wrap (i + width)) :
    lineText data width i = none := by
  unfold lineText
  simp only [Option.map_eq_none_iff]
  unfold bytesBetween
  rw [if_neg (by split <;> omega), if_pos hi]

theorem dumpFrom_negative {fuel : Nat} {i : Int} (hw : 0 < w) (hwidth : w < 2 ^ 63)
    (hle : -2 ^ 63 ≤ i) (hi : i < 0) : dumpFrom room data w fuel i buf ≠ .returned text := by
  cases fuel with
  | zero => nofun
  | succ fuel =>
    have hsum : wrap (i + w) = i + w := wrap_eq (by omega) (by omega)
    rw [dumpFrom, if_pos (by omega), lineText_negative hi (by omega)]
    nofun

/-- What is returned are the lines of the data, and they have room; an index that overflows ends
in a panic. -/
theorem dumpFrom_returned {fuel i : Nat} (hw : 0 < w) (hwidth : w < 2 ^ 63) (hi : i < 2 ^ 63)
    (hbuf : buf.length ≤ room) (h : dumpFrom room data w fuel i buf = .returned text) :
    text.length ≤ room ∧ ∃ rows, Rows w i (data.drop i) rows ∧ text = buf ++ rowsText w rows := by
  induction fuel generalizing i buf with
  | zero => cases h
  | succ fuel ih =>
    rw [dumpFrom] at h
    split at h
    next hlt =>
      have hlt : i < data.length := by omega
      by_cases hfit : i + w < 2 ^ 63
      · rw [lineText_eq hw hlt hfit, wrap_add hfit] at h
        dsimp only at h
        split at h
        next hroom =>
          obtain ⟨hlength, rows, hrows, rfl⟩ := ih hfit hroom h
          rw [← List.drop_drop] at hrows
          refine ⟨hlength, _,
            .row (List.ne_nil_of_length_pos (by rw [List.length_drop]; omega)) hrows, ?_⟩
          rw [List.append_assoc]
          rfl
        next => cases h
      · cases hline : lineText data w i with
        | none =>
          rw [hline] at h
          cases h
        | some line =>
          rw [hline] at h
          dsimp only at h
          split at h
          · refine absurd h (dumpFrom_negative hw hwidth ?_ ?_)
            · unfold wrap
              omega
            · unfold wrap
              omega
          · cases h
    next hge =>
      cases h
      rw [List.drop_eq_nil_of_le (by omega)]
      exact ⟨hbuf, [], .done i, (List.append_nil _).symm⟩

theorem dumpFrom_rows {n i : Nat} {rows : List (Nat × List UInt8)} (hw : 0 < w)
    (hrows : Rows w i (data.drop i) rows) (hfit : ∀ row ∈ rows, row.1 + w < 2 ^ 63)
    (hroom : (buf ++ rowsText w rows).length ≤ room) (hn : data.length ≤ i + n) :
    dumpFrom room data w (n + 1) i buf = .returned (buf ++ rowsText w rows) := by
  induction n generalizing i buf rows with
  | zero =>
    rw [List.drop_eq_nil_of_le (by omega)] at hrows
    cases hrows with
    | done => rw [dumpFrom, if_neg (by omega), rowsText, List.flatMap_nil, List.append_nil]
    | row hne => exact absurd rfl hne
  | succ n ih =>
    generalize hrest : data.drop i = rest at hrows
    cases hrows with
    | done =>
      have hle := List.drop_eq_nil_iff.mp hrest
      rw [dumpFrom, if_neg (by omega), rowsText, List.flatMap_nil, List.append_nil]
    | @row _ _ rows hne hrows =>
      have hi : i < data.length := by
        by_contra hle
        exact hne (hrest.symm.trans (List.drop_eq_nil_of_le (Nat.not_lt.mp hle)))
      obtain ⟨hfirst, hmore⟩ := List.forall_mem_cons.mp hfit
      have htext : buf ++ rowsText w ((i, rest.take w) :: rows) =
          (buf ++ (rowText w i (rest.take w) ++ ['\n'])) ++ rowsText w rows := by
        rw [List.append_assoc]
        rfl
      rw [htext] at hroom ⊢
      have hline : (buf ++ (rowText w i (rest.take w) ++ ['\n'])).length ≤ room := by
        rw [List.length_append] at hroom
        omega
      rw [← hrest, List.drop_drop] at hrows
      rw [dumpFrom, if_pos (by omega), lineText_eq hw hi hfirst, hrest, wrap_add hfirst]
      dsimp only
      rw [if_pos hline]
      exact ih hrows hmore hroom (by omega)

/-- A loop that goes backwards writes empty lines, until the index overflows. -/
theorem dumpFrom_backwards {fuel : Nat} {width i : Int} (hne : data ≠ []) (hwidth : width < 0)
    (hleast : -2 ^ 63 ≤ width) (hle : -2 ^ 63 ≤ i) (hi : i ≤ 0) :
    dumpFrom room data width fuel i buf ≠ .returned text := by
  have hpos := List.length_pos_of_ne_nil hne
  induction fuel generalizing i buf with
  | zero => nofun
  | succ fuel ih =>
    rw [dumpFrom, if_pos (by omega)]
    by_cases hfit : -2 ^ 63 ≤ i + width
    · have hsum : wrap (i + width) = i + width := wrap_eq hfit (by omega)
      split
      · nofun
      · split
        · rw [hsum]
          exact ih hfit (by omega)
        · nofun
    · have hsum : wrap (i + width) = i + width + 2 ^ 64 := by
        unfold wrap
        omega
      rw [lineText_negative (by omega) (by omega)]
      nofun

end

theorem width_pos_iff (bytesPerLine : Int64) : 0 < width bytesPerLine ↔ 0 ≤ bytesPerLine := by
  have hle : 0 ≤ bytesPerLine ↔ 0 ≤ bytesPerLine.toInt := Int64.le_iff_toInt_le
  have heq : bytesPerLine = 0 ↔ bytesPerLine.toInt = 0 := Int64.toInt_inj.symm
  unfold width
  split
  next h => simp [h]
  next h =>
    rw [heq] at h
    rw [hle]
    omega

theorem padded_four_length (start : Nat) : (padded 4 start).length = 4 ↔ start < 65536 := by
  constructor
  · intro hlength
    have hlt := value_lt (padded 4 start)
    rwa [value_padded, hlength] at hlt
  · intro hlt
    have hlength : (padded (3 + 1) start).length = 3 + 1 := padded_length hlt
    exact hlength

theorem dumpsWell_nil (room : Nat) (bytesPerLine : Int64) : DumpsWell room [] bytesPerLine := by
  refine ⟨1, [], rfl, rfl, ?_, List.forall_mem_nil _⟩
  intro before line after h
  have hnil : lines [] = [] := rfl
  rw [hnil] at h
  simp at h

theorem not_dumpsWell_of_neg {room : Nat} {data : List UInt8} {bytesPerLine : Int64}
    (hne : data ≠ []) (hneg : ¬ 0 ≤ bytesPerLine) : ¬ DumpsWell room data bytesPerLine := by
  rintro ⟨fuel, text, hdump, -⟩
  rw [← width_pos_iff] at hneg
  have hleast := bytesPerLine.le_toInt
  have hwidth : width bytesPerLine < 0 ∧ -2 ^ 63 ≤ width bytesPerLine := by
    unfold width at hneg ⊢
    split at hneg
    · omega
    next h =>
      have hzero : bytesPerLine.toInt ≠ 0 := fun heq => h (Int64.toInt_inj.mp heq)
      rw [if_neg h]
      omega
  exact dumpFrom_backwards hne hwidth.1 hwidth.2 (by omega) (le_refl 0) hdump

theorem width_eq {bytesPerLine : Int64} (h : 0 ≤ bytesPerLine) :
    ∃ w : Nat, width bytesPerLine = w ∧ 0 < w ∧ w < 2 ^ 63 := by
  have hpos := (width_pos_iff bytesPerLine).mpr h
  have hlt := bytesPerLine.toInt_lt
  refine ⟨(width bytesPerLine).toNat, by omega, by omega, ?_⟩
  unfold width
  split
  · decide
  · omega

/-- How long the text of `length` bytes is, by `w` bytes a line, where every offset has four
digits. -/
def textLength (length w : Nat) : Nat := (length + w - 1) / w * (10 + 3 * w + w / 8) + length

section

variable {room : Nat} {data : List UInt8} {bytesPerLine : Int64} {w : Nat}
  {rows : List (Nat × List UInt8)}

theorem Rows.length_eq_textLength (h : Rows w 0 data rows) (hw : 0 < w)
    (hfour : ∀ row ∈ rows, (padded 4 row.1).length = 4) :
    (rowsText w rows).length = textLength data.length w := by
  rw [h.text_length hfour, h.count hw, textLength]

/-- A dump that is returned has the lines of the data, and room for them. -/
theorem dumpHex_rows {fuel : Nat} {text : List Char} (hw : width bytesPerLine = w) (hpos : 0 < w)
    (hlt : w < 2 ^ 63) (h : dumpHex room fuel data bytesPerLine = .returned text) :
    text.length ≤ room ∧ ∃ rows, Rows w 0 data rows ∧ text = rowsText w rows := by
  unfold dumpHex at h
  rw [hw] at h
  exact dumpFrom_returned (i := 0) hpos hlt (by decide) (Nat.zero_le room) h

theorem four_digits_of_readsBack (hrows : Rows w 0 data rows)
    (hreads : ReadsBack data (rowsText w rows)) (hne : data ≠ []) :
    ∀ row ∈ rows, (padded 4 row.1).length = 4 := by
  intro row hrow
  have hpos := List.length_pos_of_ne_nil hne
  obtain ⟨first, hfirst⟩ := hrows.start_mem (le_refl 0) (by omega) (dvd_zero w)
  have hsame := (readsBack_rows_iff hrows).mp hreads _ hrow _ hfirst
  exact hsame.trans ((padded_four_length 0).mpr (by decide))

theorem conditions_of_dumpsWell (hne : data ≠ []) (hforward : 0 ≤ bytesPerLine)
    (h : DumpsWell room data bytesPerLine) :
    (∀ start : Nat, start < data.length → width bytesPerLine ∣ start → start < 65536) ∧
      textLength data.length (width bytesPerLine).toNat ≤ room := by
  obtain ⟨w, hw, hpos, hlt⟩ := width_eq hforward
  obtain ⟨fuel, text, hdump, hreads⟩ := h
  obtain ⟨hroom, rows, hrows, rfl⟩ := dumpHex_rows hw hpos hlt hdump
  have hfour := four_digits_of_readsBack hrows hreads hne
  rw [hw, Int.toNat_natCast, ← hrows.length_eq_textLength hpos hfour]
  refine ⟨fun start hstart hdvd => ?_, hroom⟩
  rw [Int.natCast_dvd_natCast] at hdvd
  obtain ⟨bytes, hbytes⟩ := hrows.start_mem (Nat.zero_le start) (by omega) hdvd
  exact (padded_four_length start).mp (hfour _ hbytes)

theorem dumpsWell_of_conditions (hforward : 0 ≤ bytesPerLine)
    (hfour : ∀ start : Nat, start < data.length → width bytesPerLine ∣ start → start < 65536)
    (hroom : textLength data.length (width bytesPerLine).toNat ≤ room) :
    DumpsWell room data bytesPerLine := by
  obtain ⟨w, hw, hpos, hlt⟩ := width_eq hforward
  rw [hw, Int.toNat_natCast] at hroom
  simp only [hw, Int.natCast_dvd_natCast] at hfour
  obtain ⟨rows, hrows⟩ := exists_rows hpos 0 data
  have hdigits : ∀ row ∈ rows, (padded 4 row.1).length = 4 := by
    intro row hrow
    obtain ⟨-, hbound, hdvd⟩ := hrows.start_bound row hrow
    exact (padded_four_length row.1).mpr (hfour row.1 (by omega) hdvd)
  -- a step past the last four-digit index cannot come before the end
  have hfit : ∀ row ∈ rows, row.1 + w < 2 ^ 63 := by
    intro row hrow
    obtain ⟨-, hbound, hdvd⟩ := hrows.start_bound row hrow
    have hsmall := hfour row.1 (by omega) hdvd
    obtain hzero | hstart := Nat.eq_zero_or_pos row.1
    · omega
    · have hle := Nat.le_of_dvd hstart hdvd
      omega
  rw [← hrows.length_eq_textLength hpos hdigits] at hroom
  have hdump : dumpHex room (data.length + 1) data bytesPerLine = .returned (rowsText w rows) := by
    unfold dumpHex
    rw [hw]
    have hempty : ([] ++ rowsText w rows).length ≤ room := hroom
    exact dumpFrom_rows (i := 0) hpos hrows hfit hempty (Nat.zero_add _).ge
  refine ⟨_, _, hdump, (readsBack_rows_iff hrows).mpr ?_⟩
  intro row hrow other hother
  rw [hdigits row hrow, hdigits other hother]

end

/-- The loop ends with a dump that reads back exactly if it goes forwards, every line starts at an
index of four digits, and the buffer can hold the text. -/
theorem dumpsWell_iff (room : Nat) (data : List UInt8) (bytesPerLine : Int64) :
    DumpsWell room data bytesPerLine ↔ data = [] ∨ 0 ≤ bytesPerLine ∧
      (∀ start : Nat, start < data.length → width bytesPerLine ∣ start → start < 65536) ∧
      textLength data.length (width bytesPerLine).toNat ≤ room := by
  by_cases hne : data = []
  · subst hne
    exact iff_of_true (dumpsWell_nil room bytesPerLine) (.inl rfl)
  rw [or_iff_right hne]
  by_cases hforward : 0 ≤ bytesPerLine
  · rw [and_iff_right hforward]
    exact ⟨conditions_of_dumpsWell hne hforward,
      fun h => dumpsWell_of_conditions hforward h.1 h.2⟩
  · exact iff_of_false (not_dumpsWell_of_neg hne hforward) fun h => hforward h.1

/-- A step backwards, one byte more than four digits count, and a line that no memory of 2^48
bytes holds. -/
theorem dumps_that_fail :
    ¬ DumpsWell (2 ^ 48) [0] (-1) ∧ ¬ DumpsWell (2 ^ 48) (List.replicate 65537 0) 16 ∧
      ¬ DumpsWell (2 ^ 48) [0] 4611686018427387904 := by
  refine ⟨not_dumpsWell_of_neg (List.cons_ne_nil 0 []) (by decide), fun h => ?_, fun h => ?_⟩
  · have hstart : 65536 < (List.replicate 65537 (0 : UInt8)).length := by
      rw [List.length_replicate]
      decide
    have hne : List.replicate 65537 (0 : UInt8) ≠ [] :=
      List.ne_nil_of_length_pos (Nat.lt_of_le_of_lt (Nat.zero_le _) hstart)
    exact lt_irrefl _ ((conditions_of_dumpsWell hne (by decide) h).1 65536 hstart (by decide))
  · have hlength := (conditions_of_dumpsWell (List.cons_ne_nil 0 []) (by decide) h).2
    exact absurd hlength (by decide)

end LearnPg.Wal.HexDump
