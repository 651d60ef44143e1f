import LearnPg.Basis.RecordWalk
import Mathlib.Data.List.Basic

/-! Scanning pages for self-delimiting records. The scanner keeps at most one
record open across page boundaries. On pages whose payloads are consecutive
stretches of one stream, what it assembles is what the walk of that stream
meets; page headers no longer occur. -/
namespace LearnPg.Basis.RecordScan
open RecordWalk

structure Format (α : Type) where
  pageSize : Nat
  minLen : Nat
  /-- The length a byte string claims for the record at its front. -/
  lenOf : List α → Nat
  align : Nat → Nat
  minLen_pos : 0 < minLen
  le_align : ∀ n, n ≤ align n
  align_lt : ∀ n, align n < n + minLen
  lenOf_take : ∀ bytes, lenOf (bytes.take minLen) = lenOf bytes

/-- One page: where it lies in the file, the size of its header, and the offset
at which the search for records begins when none is open. -/
structure Page (α : Type) where
  base : Nat
  header : Nat
  start : Nat
  bytes : List α

/-- A record the scanner assembled, with the place its first byte was found. -/
structure Extent (α : Type) where
  base : Nat
  offset : Nat
  raw : List α
deriving DecidableEq

/-- A record whose first bytes have been read. -/
structure Open (α : Type) where
  base : Nat
  offset : Nat
  need : Nat
  raw : List α

variable {α : Type} (format : Format α)

def Format.scanFrom (page : Page α) (offset : Nat) : List (Extent α) × Option (Open α) :=
  if offset + format.minLen ≤ format.pageSize then
    if format.lenOf (page.bytes.drop offset) < format.minLen then ([], none)
    else if format.pageSize < offset + format.lenOf (page.bytes.drop offset) then
      ([], some ⟨page.base, offset, format.lenOf (page.bytes.drop offset), page.bytes.drop offset⟩)
    else
      let found := Format.scanFrom page
        (offset + format.align (format.lenOf (page.bytes.drop offset)))
      (⟨page.base, offset,
        (page.bytes.drop offset).take (format.lenOf (page.bytes.drop offset))⟩ :: found.1,
        found.2)
  else ([], none)
termination_by format.pageSize - offset
decreasing_by
  have := format.le_align (format.lenOf (page.bytes.drop offset))
  have := format.minLen_pos
  omega

def Open.extend (record : Open α) (page : Page α) : List α :=
  record.raw ++ (page.bytes.drop page.header).take (record.need - record.raw.length)

def Format.scan : List (Page α) → Option (Open α) → List (Extent α)
  | [], _ => []
  | page :: rest, none =>
      let found := format.scanFrom page page.start
      found.1 ++ Format.scan rest found.2
  | page :: rest, some record =>
      let raw := record.extend page
      if raw.length = record.need then
        let found := format.scanFrom page
          (page.header + (record.need - record.raw.length))
        ⟨record.base, record.offset, raw⟩ :: (found.1 ++ Format.scan rest found.2)
      else Format.scan rest (some { record with raw })

/-- What one page adds, and the record it leaves open. -/
def Format.scanPage (page : Page α) : Option (Open α) → List (Extent α) × Option (Open α)
  | none => format.scanFrom page page.start
  | some record =>
      let raw := record.extend page
      if raw.length = record.need then
        let found := format.scanFrom page (page.header + (record.need - record.raw.length))
        (⟨record.base, record.offset, raw⟩ :: found.1, found.2)
      else ([], some { record with raw })

/-! Where records are found. -/

def Extent.position (e : Extent α) : Nat := e.base + e.offset
def Open.position (o : Open α) : Nat := o.base + o.offset

variable {format}

theorem scanFrom_short {page : Page α} {offset : Nat}
    (hroom : offset + format.minLen ≤ format.pageSize)
    (hshort : format.lenOf (page.bytes.drop offset) < format.minLen) :
    format.scanFrom page offset = ([], none) := by
  rw [Format.scanFrom, if_pos hroom, if_pos hshort]

theorem scanFrom_over {page : Page α} {offset : Nat}
    (hroom : offset + format.minLen ≤ format.pageSize)
    (hshort : ¬ format.lenOf (page.bytes.drop offset) < format.minLen)
    (hover : format.pageSize < offset + format.lenOf (page.bytes.drop offset)) :
    format.scanFrom page offset =
      ([], some ⟨page.base, offset, format.lenOf (page.bytes.drop offset),
        page.bytes.drop offset⟩) := by
  rw [Format.scanFrom, if_pos hroom, if_neg hshort, if_pos hover]

theorem scanFrom_found {page : Page α} {offset : Nat}
    (hroom : offset + format.minLen ≤ format.pageSize)
    (hshort : ¬ format.lenOf (page.bytes.drop offset) < format.minLen)
    (hover : ¬ format.pageSize < offset + format.lenOf (page.bytes.drop offset)) :
    format.scanFrom page offset =
      (⟨page.base, offset,
        (page.bytes.drop offset).take (format.lenOf (page.bytes.drop offset))⟩ ::
          (format.scanFrom page (offset + format.align (format.lenOf (page.bytes.drop offset)))).1,
        (format.scanFrom page
          (offset + format.align (format.lenOf (page.bytes.drop offset)))).2) := by
  rw [Format.scanFrom, if_pos hroom, if_neg hshort, if_neg hover]

theorem scanFrom_past {page : Page α} {offset : Nat}
    (hroom : ¬ offset + format.minLen ≤ format.pageSize) :
    format.scanFrom page offset = ([], none) := by
  rw [Format.scanFrom, if_neg hroom]

variable (format) in
theorem scan_cons (page : Page α) (rest : List (Page α)) (record : Option (Open α)) :
    format.scan (page :: rest) record =
      (format.scanPage page record).1 ++ format.scan rest (format.scanPage page record).2 := by
  cases record with
  | none => rfl
  | some record =>
    rw [Format.scan, Format.scanPage]
    dsimp only
    split <;> rfl

variable (format) in
theorem scanFrom_offsets (page : Page α) (offset : Nat) :
    (∀ e ∈ (format.scanFrom page offset).1, e.base = page.base ∧ offset ≤ e.offset ∧
      e.offset + format.minLen ≤ format.pageSize) ∧
    (∀ o ∈ (format.scanFrom page offset).2, o.base = page.base ∧ offset ≤ o.offset ∧
      o.offset + format.minLen ≤ format.pageSize ∧
      ∀ e ∈ (format.scanFrom page offset).1, e.offset < o.offset) ∧
    (format.scanFrom page offset).1.Pairwise (fun a b => a.offset < b.offset) := by
  induction offset using Format.scanFrom.induct format page with
  | case1 offset hroom hshort =>
    rw [scanFrom_short hroom hshort]
    simp
  | case2 offset hroom hshort hover =>
    rw [scanFrom_over hroom hshort hover]
    simp [hroom]
  | case3 offset hroom hshort hover ih =>
    rw [scanFrom_found hroom hshort hover]
    obtain ⟨hfound, hopen, hsorted⟩ := ih
    have hpos := format.minLen_pos
    have hle := format.le_align (format.lenOf (page.bytes.drop offset))
    refine ⟨?_, ?_, ?_⟩
    · rintro e (_ | ⟨_, he⟩)
      · exact ⟨rfl, Nat.le_refl _, hroom⟩
      · have := hfound e he
        exact ⟨this.1, by omega, this.2.2⟩
    · intro o ho
      obtain ⟨hbase, hoffset, hfit, hlast⟩ := hopen o ho
      refine ⟨hbase, by omega, hfit, ?_⟩
      rintro e (_ | ⟨_, he⟩)
      · show offset < o.offset
        omega
      · exact hlast e he
    · refine List.pairwise_cons.mpr ⟨fun e he => ?_, hsorted⟩
      have := (hfound e he).2.1
      show offset < e.offset
      omega
  | case4 offset hroom =>
    rw [scanFrom_past hroom]
    simp

variable (format) in
theorem scanFrom_raw (page : Page α) (offset : Nat) :
    (∀ e ∈ (format.scanFrom page offset).1, ∃ n, format.minLen ≤ n ∧
      e.raw = (page.bytes.drop e.offset).take n) ∧
    (∀ o ∈ (format.scanFrom page offset).2, o.raw = page.bytes.drop o.offset) := by
  induction offset using Format.scanFrom.induct format page with
  | case1 offset hroom hshort =>
    rw [scanFrom_short hroom hshort]
    simp
  | case2 offset hroom hshort hover =>
    rw [scanFrom_over hroom hshort hover]
    simp
  | case3 offset hroom hshort hover ih =>
    rw [scanFrom_found hroom hshort hover]
    refine ⟨?_, ih.2⟩
    rintro e (_ | ⟨_, he⟩)
    · exact ⟨_, Nat.le_of_not_lt hshort, rfl⟩
    · exact ih.1 e he
  | case4 offset hroom =>
    rw [scanFrom_past hroom]
    simp

/-- The records from an offset of a page on, on that page and the later ones. -/
def Format.scanAfter (format : Format α) (page : Page α) (offset : Nat)
    (rest : List (Page α)) : List (Extent α) :=
  (format.scanFrom page offset).1 ++ format.scan rest (format.scanFrom page offset).2

/-- A property of records being read: it holds wherever a header can start on
these pages, and reading on does not change it. -/
structure Format.Kept (format : Format α) (P : Nat → Nat → List α → Prop)
    (pages : List (Page α)) : Prop where
  starts : ∀ p ∈ pages, ∀ offset n, offset + format.minLen ≤ format.pageSize →
    format.minLen ≤ n → P p.base offset ((p.bytes.drop offset).take n)
  grows : ∀ base offset raw more, P base offset raw → P base offset (raw ++ more)

theorem Format.Kept.tail {P : Nat → Nat → List α → Prop} {page : Page α} {rest : List (Page α)}
    (h : format.Kept P (page :: rest)) : format.Kept P rest :=
  ⟨fun p hp => h.starts p (List.mem_cons_of_mem page hp), h.grows⟩

theorem scanAfter_kept_of {P : Nat → Nat → List α → Prop} {page : Page α} {rest : List (Page α)}
    (hkept : format.Kept P (page :: rest)) (offset : Nat)
    (ih : ∀ record : Option (Open α), (∀ o ∈ record, P o.base o.offset o.raw) →
      ∀ e ∈ format.scan rest record, P e.base e.offset e.raw) :
    ∀ e ∈ format.scanAfter page offset rest, P e.base e.offset e.raw := by
  obtain ⟨hfound, hlast, -⟩ := scanFrom_offsets format page offset
  obtain ⟨hraw, hlastRaw⟩ := scanFrom_raw format page offset
  have hpage := hkept.starts page List.mem_cons_self
  intro e he
  rcases List.mem_append.mp he with he | he
  · obtain ⟨hbase, -, hfit⟩ := hfound e he
    obtain ⟨n, hn, heq⟩ := hraw e he
    rw [heq, hbase]
    exact hpage _ _ hfit hn
  · refine ih _ (fun o ho => ?_) e he
    obtain ⟨hbase, -, hfit, -⟩ := hlast o ho
    have := hpage o.offset (format.minLen + (page.bytes.drop o.offset).length) hfit (by omega)
    rwa [List.take_of_length_le (by omega), ← hbase, ← hlastRaw o ho] at this

theorem scan_kept {P : Nat → Nat → List α → Prop} {pages : List (Page α)}
    {record : Option (Open α)} (hkept : format.Kept P pages)
    (hopen : ∀ o ∈ record, P o.base o.offset o.raw) :
    ∀ e ∈ format.scan pages record, P e.base e.offset e.raw := by
  induction pages generalizing record with
  | nil => simp [Format.scan]
  | cons page rest ih =>
    have hrest {record : Option (Open α)} (h : ∀ o ∈ record, P o.base o.offset o.raw) :=
      ih hkept.tail h
    cases record with
    | none => exact scanAfter_kept_of hkept page.start fun _ => hrest
    | some record =>
      have hrecord : P record.base record.offset (record.extend page) :=
        hkept.grows _ _ _ _ (hopen record rfl)
      rw [Format.scan]
      split
      · rintro e (_ | ⟨_, he⟩)
        · exact hrecord
        · exact scanAfter_kept_of hkept _ (fun _ => hrest) e he
      · exact hrest (by rintro o ⟨⟩; exact hrecord)

theorem scanAfter_kept {P : Nat → Nat → List α → Prop} {page : Page α} {rest : List (Page α)}
    (hkept : format.Kept P (page :: rest)) (offset : Nat) :
    ∀ e ∈ format.scanAfter page offset rest, P e.base e.offset e.raw :=
  scanAfter_kept_of hkept offset fun _ => scan_kept hkept.tail

theorem scanAfter_sorted_of {page : Page α} {rest : List (Page α)}
    (hfirst : ∀ p ∈ rest, page.base + format.pageSize ≤ p.base) (offset : Nat)
    (ih : ∀ record : Option (Open α), (∀ o ∈ record, ∀ p ∈ rest, o.position < p.base) →
      (format.scan rest record).Pairwise (fun a b => a.position < b.position)) :
    (format.scanAfter page offset rest).Pairwise (fun a b => a.position < b.position) := by
  have hpos := format.minLen_pos
  obtain ⟨hfound, hlast, hsorted⟩ := scanFrom_offsets format page offset
  refine List.pairwise_append.mpr ⟨?_, ?_, ?_⟩
  · refine hsorted.imp_of_mem fun {a b} ha hb hab => ?_
    simp only [Extent.position, (hfound a ha).1, (hfound b hb).1]
    omega
  · refine ih _ fun o ho p hp => ?_
    obtain ⟨hbase, -, hfit, -⟩ := hlast o ho
    have := hfirst p hp
    simp only [Open.position]
    omega
  · intro a ha
    obtain ⟨hbase, -, hfit⟩ := hfound a ha
    have hkept : format.Kept (fun base offset _ => a.position < base + offset) rest := by
      refine ⟨fun p hp offset _ _ _ => ?_, fun _ _ _ _ h => h⟩
      have := hfirst p hp
      simp only [Extent.position]
      omega
    refine scan_kept hkept fun o ho => ?_
    obtain ⟨hobase, -, -, hbefore⟩ := hlast o ho
    have := hbefore a ha
    simp only [Extent.position]
    omega

/-- Records are assembled in the order of their places in the file. -/
theorem scan_sorted {pages : List (Page α)} {record : Option (Open α)}
    (hpages : pages.Pairwise (fun p q => p.base + format.pageSize ≤ q.base))
    (hopen : ∀ o ∈ record, ∀ p ∈ pages, o.position < p.base) :
    (format.scan pages record).Pairwise (fun a b => a.position < b.position) := by
  induction pages generalizing record with
  | nil => simp [Format.scan]
  | cons page rest ih =>
    obtain ⟨hfirst, hrest⟩ := List.pairwise_cons.mp hpages
    cases record with
    | none => exact scanAfter_sorted_of hfirst page.start fun _ => ih hrest
    | some record =>
      have hrecord := hopen record rfl
      rw [Format.scan]
      split
      · refine List.pairwise_cons.mpr
          ⟨?_, scanAfter_sorted_of hfirst _ fun _ => ih hrest⟩
        have hkept : format.Kept
            (fun base offset _ => record.base + record.offset < base + offset) (page :: rest) := by
          refine ⟨fun p hp offset _ _ _ => ?_, fun _ _ _ _ h => h⟩
          have := hrecord p hp
          simp only [Open.position] at this
          omega
        exact scanAfter_kept hkept _
      · refine ih hrest ?_
        rintro o ⟨⟩ p hp
        exact hrecord p (List.mem_cons_of_mem page hp)

/-! Two scanners over the same bytes. -/

variable (format) in
def Quiet (page : Page α) (offset : Nat) : Prop :=
  offset + format.minLen ≤ format.pageSize → format.lenOf (page.bytes.drop offset) < format.minLen

theorem scanFrom_quiet {page : Page α} {offset : Nat} (h : Quiet format page offset) :
    format.scanFrom page offset = ([], none) := by
  by_cases hroom : offset + format.minLen ≤ format.pageSize
  · exact scanFrom_short hroom (h hroom)
  · exact scanFrom_past hroom

theorem scanFrom_congr {p q : Page α} (hbase : p.base = q.base) (hbytes : p.bytes = q.bytes)
    (offset : Nat) : format.scanFrom p offset = format.scanFrom q offset := by
  induction offset using Format.scanFrom.induct format p with
  | case1 offset hroom hshort =>
    rw [scanFrom_short hroom hshort]
    rw [hbytes] at hshort
    rw [scanFrom_short hroom hshort]
  | case2 offset hroom hshort hover =>
    rw [scanFrom_over hroom hshort hover]
    rw [hbytes] at hshort hover
    rw [scanFrom_over hroom hshort hover, hbytes, hbase]
  | case3 offset hroom hshort hover ih =>
    rw [scanFrom_found hroom hshort hover, ih]
    rw [hbytes] at hshort hover ⊢
    rw [scanFrom_found hroom hshort hover, hbase]
  | case4 offset hroom =>
    rw [scanFrom_past hroom, scanFrom_past hroom]

variable (format) in
/-- Two views of one page: with a record open they skip the same header, and
otherwise they begin the search at the same offset or both find nothing there. -/
structure Alike (p q : Page α) (record : Option (Open α)) : Prop where
  base : p.base = q.base
  bytes : p.bytes = q.bytes
  header : record.isSome → p.header = q.header
  start : record = none → p.start = q.start ∨ Quiet format p p.start ∧ Quiet format q q.start

theorem Alike.scanPage {p q : Page α} {record : Option (Open α)} (h : Alike format p q record) :
    format.scanPage p record = format.scanPage q record := by
  have hfrom (offset : Nat) : format.scanFrom p offset = format.scanFrom q offset :=
    scanFrom_congr h.base h.bytes offset
  cases record with
  | none =>
    rw [Format.scanPage, Format.scanPage]
    rcases h.start rfl with hstart | ⟨hp, hq⟩
    · rw [hfrom, hstart]
    · rw [scanFrom_quiet hp, scanFrom_quiet hq]
  | some record =>
    have hextend : record.extend p = record.extend q := by
      rw [Open.extend, Open.extend, h.header rfl, h.bytes]
    rw [Format.scanPage, Format.scanPage, hextend, hfrom, h.header rfl]

variable (format) in
/-- The pages are alike wherever the scan comes to them. -/
inductive AllAlike : List (Page α) → List (Page α) → Option (Open α) → Prop where
  | nil (record : Option (Open α)) : AllAlike [] [] record
  | cons {p q : Page α} {ps qs : List (Page α)} {record : Option (Open α)}
      (head : Alike format p q record)
      (tail : AllAlike ps qs (format.scanPage p record).2) : AllAlike (p :: ps) (q :: qs) record

theorem AllAlike.scan {ps qs : List (Page α)} {record : Option (Open α)}
    (h : AllAlike format ps qs record) : format.scan ps record = format.scan qs record := by
  induction h with
  | nil record => rfl
  | cons head _ ih => rw [scan_cons, scan_cons, ih, head.scanPage]

/-! Pages that carry consecutive stretches of one stream. -/

def window (stream : Nat → α) (t n : Nat) : List α := (List.range' t n).map stream

@[simp] theorem window_length (stream : Nat → α) (t n : Nat) :
    (window stream t n).length = n := by simp [window]

theorem window_drop (stream : Nat → α) (t n k : Nat) :
    (window stream t n).drop k = window stream (t + k) (n - k) := by
  simp [window, ← List.map_drop, List.drop_range']

theorem window_take (stream : Nat → α) (t n k : Nat) :
    (window stream t n).take k = window stream t (min k n) := by
  by_cases h : k ≤ n
  · simp [window, ← List.map_take, List.take_range'_of_length_ge h, Nat.min_eq_left h]
  · have h := Nat.le_of_not_le h
    simp [window, ← List.map_take, List.take_range'_of_length_le h, Nat.min_eq_right h]

theorem window_append (stream : Nat → α) (t n k : Nat) :
    window stream t n ++ window stream (t + n) k = window stream t (n + k) := by
  simp [window, ← List.map_append]

variable (format) in
/-- The pages carry the stream from position `t` on, each up to the grid's next
boundary, and the search for records starts right behind each header. -/
def Laid (grid : Grid) (stream : Nat → α) (t : Nat) : List (Page α) → Prop
  | [] => True
  | page :: rest =>
      page.start = page.header ∧
      page.header + (grid.pageEnd t - t) = format.pageSize ∧
      page.bytes.drop page.header = window stream t (grid.pageEnd t - t) ∧
      Laid grid stream (grid.pageEnd t) rest

def lastEdge (grid : Grid) (t : Nat) : List (Page α) → Nat
  | [] => t
  | _ :: rest => lastEdge grid (grid.pageEnd t) rest

variable (format) in
/-- The format's rules for a walk over the stream. -/
def Format.rules (grid : Grid) : Rules where
  toGrid := grid
  minLen := format.minLen
  align := format.align
  minLen_pos := format.minLen_pos
  le_align := format.le_align
  align_lt := format.align_lt

variable (format) in
def Format.lenAt (stream : Nat → α) (t : Nat) : Nat := format.lenOf (window stream t format.minLen)

theorem lenOf_window (stream : Nat → α) {t n : Nat} (h : format.minLen ≤ n) :
    format.lenOf (window stream t n) = format.lenAt stream t := by
  rw [Format.lenAt, ← format.lenOf_take (window stream t n), window_take, Nat.min_eq_left h]

theorem le_lastEdge (grid : Grid) (t : Nat) (pages : List (Page α)) :
    t ≤ lastEdge grid t pages := by
  induction pages generalizing t with
  | nil => exact Nat.le_refl t
  | cons page rest ih => exact Nat.le_trans (grid.lt_pageEnd t).le (ih _)

variable (format) in
/-- The bytes of the records the walk meets from `t` on. -/
def Format.walkBytes (grid : Grid) (stream : Nat → α) (total t : Nat) : List (List α) :=
  ((format.rules grid).walk (format.lenAt stream) total t).map
    fun p => window stream p.1 p.2

theorem walkBytes_found {grid : Grid} {stream : Nat → α} {total t n : Nat}
    (hroom : t + format.minLen ≤ grid.pageEnd t) (hn : format.lenAt stream t = n)
    (hmin : format.minLen ≤ n) (hfit : t + n ≤ total) :
    format.walkBytes grid stream total t = window stream t n ::
      format.walkBytes grid stream total ((format.rules grid).resume t n) := by
  subst hn
  rw [Format.walkBytes, walk_found hroom hmin hfit, List.map_cons]
  rfl

theorem walkBytes_skip {grid : Grid} {stream : Nat → α} {total t : Nat} (ht : t < total)
    (h : ¬ (t + format.minLen ≤ grid.pageEnd t ∧ format.minLen ≤ format.lenAt stream t)) :
    format.walkBytes grid stream total t =
      format.walkBytes grid stream total (grid.pageEnd t) := by
  rw [Format.walkBytes, walk_skip ht h]
  rfl

/-- What an open record becomes: it is completed if the pages are long enough. -/
def Format.completed (format : Format α) (grid : Grid) (stream : Nat → α) (total t n : Nat) :
    List (List α) :=
  if t + n ≤ total then window stream t n :: format.walkBytes grid stream total (t + n) else []

/-- A record whose bytes up to position `u` of the stream have been read, and
which needs more. -/
structure Reading (stream : Nat → α) (t u : Nat) (record : Open α) : Prop where
  lt : t < u
  raw : record.raw = window stream t (u - t)
  more : u < t + record.need

section Laid
variable {grid : Grid} {stream : Nat → α} {t : Nat} {page : Page α} {rest : List (Page α)}

theorem Laid.drop (h : Laid format grid stream t (page :: rest)) {offset : Nat}
    (hoffset : page.header ≤ offset) :
    page.bytes.drop offset = window stream (t + (offset - page.header))
      (grid.pageEnd t - (t + (offset - page.header))) := by
  obtain ⟨k, rfl⟩ := Nat.exists_eq_add_of_le hoffset
  rw [← List.drop_drop, h.2.2.1, window_drop]
  congr 1 <;> omega

/-- A record that reaches past the page is left open, and completed or lost. -/
theorem walkBytes_completed {u n total : Nat} (hroom : u + format.minLen ≤ grid.pageEnd u)
    (hn : format.lenAt stream u = n) (hmin : format.minLen ≤ n) (hover : grid.pageEnd u < u + n) :
    format.walkBytes grid stream total u = format.completed grid stream total u n := by
  have hpos := format.minLen_pos
  unfold Format.completed
  split
  · rw [walkBytes_found hroom hn hmin ‹_›]
    have hresume : (format.rules grid).resume u n = u + n := if_neg (Nat.not_le_of_lt hover)
    rw [hresume]
  · subst hn
    rw [Format.walkBytes, Rules.walk]
    by_cases hu : u < total
    · rw [dif_pos hu, if_pos ⟨hroom, hmin⟩, if_neg ‹_›]
      rfl
    · rw [dif_neg hu]
      rfl

/-- Scanning a page from any offset and going on is walking the stream from the
corresponding position, or from the next page if the offset is past this one. -/
theorem scanAfter_laid (h : Laid format grid stream t (page :: rest))
    (hnone : (format.scan rest none).map Extent.raw =
      format.walkBytes grid stream (lastEdge grid t (page :: rest)) (grid.pageEnd t))
    (hsome : ∀ u record, Reading stream u (grid.pageEnd t) record →
      (format.scan rest (some record)).map Extent.raw =
        format.completed grid stream (lastEdge grid t (page :: rest)) u record.need)
    (offset : Nat) (hoffset : page.header ≤ offset) :
    (format.scanAfter page offset rest).map Extent.raw =
      format.walkBytes grid stream (lastEdge grid t (page :: rest))
        (min (t + (offset - page.header)) (grid.pageEnd t)) := by
  have hsize := h.2.1
  have hlt := grid.lt_pageEnd t
  have hpos := format.minLen_pos
  have htotal : grid.pageEnd t ≤ lastEdge grid t (page :: rest) := le_lastEdge grid _ rest
  induction offset using Format.scanFrom.induct format page with
  | case1 offset hroom hshort =>
    rw [Format.scanAfter, scanFrom_short hroom hshort]
    rw [h.drop hoffset, lenOf_window stream (by omega)] at hshort
    have hend := grid.pageEnd_eq t (t + (offset - page.header)) (by omega) (by omega)
    rw [Nat.min_eq_left (by omega), walkBytes_skip (by omega) (by omega), hend, ← hnone]
    rfl
  | case2 offset hroom hshort hover =>
    rw [Format.scanAfter, scanFrom_over hroom hshort hover]
    rw [h.drop hoffset, lenOf_window stream (by omega)] at hshort hover ⊢
    have hend := grid.pageEnd_eq t (t + (offset - page.header)) (by omega) (by omega)
    rw [Nat.min_eq_left (by omega), walkBytes_completed (by omega) rfl (by omega) (by omega)]
    exact hsome _ _ ⟨by omega, rfl, by simp only; omega⟩
  | case3 offset hroom hshort hover ih =>
    have hle := format.le_align (format.lenOf (page.bytes.drop offset))
    specialize ih (by omega)
    rw [Format.scanAfter, scanFrom_found hroom hshort hover]
    rw [h.drop hoffset, lenOf_window stream (by omega)] at hshort hover ih hle ⊢
    have hend := grid.pageEnd_eq t (t + (offset - page.header)) (by omega) (by omega)
    rw [Nat.min_eq_left (by omega), walkBytes_found (by omega) rfl (by omega) (by omega),
      List.cons_append, List.map_cons]
    congr 1
    · rw [window_take, Nat.min_eq_left (by omega)]
    · have hresume : (format.rules grid).resume (t + (offset - page.header))
          (format.lenAt stream (t + (offset - page.header))) =
          min (t + (offset + format.align (format.lenAt stream (t + (offset - page.header))) -
            page.header)) (grid.pageEnd t) := by
        unfold Rules.resume
        simp only [Format.rules, hend]
        rw [if_pos (by omega)]
        congr 1
        omega
      rw [hresume, ← ih, Format.scanAfter]
  | case4 offset hroom =>
    have hskip : format.walkBytes grid stream (lastEdge grid t (page :: rest))
        (min (t + (offset - page.header)) (grid.pageEnd t)) =
        format.walkBytes grid stream (lastEdge grid t (page :: rest)) (grid.pageEnd t) := by
      by_cases hpast : grid.pageEnd t ≤ t + (offset - page.header)
      · rw [Nat.min_eq_right hpast]
      · have hend := grid.pageEnd_eq t (t + (offset - page.header)) (by omega) (by omega)
        rw [Nat.min_eq_left (by omega), walkBytes_skip (by omega) (by omega), hend]
    rw [hskip, ← hnone, Format.scanAfter, scanFrom_past hroom]
    rfl

end Laid

/-- One more page brings an open record up to its end or to the page's end. -/
theorem Laid.extend {grid : Grid} {stream : Nat → α} {t u : Nat} {page : Page α}
    {rest : List (Page α)} {record : Open α} (h : Laid format grid stream t (page :: rest))
    (hr : Reading stream u t record) :
    record.extend page =
      window stream u (min record.need (grid.pageEnd t - u)) := by
  obtain ⟨hut, hraw, hmore⟩ := hr
  have hlt := grid.lt_pageEnd t
  have hsplit : window stream u (t - u) ++
      window stream (u + (t - u)) (min (record.need - (t - u)) (grid.pageEnd t - t)) =
      window stream u (min record.need (grid.pageEnd t - u)) := by
    rw [window_append]
    congr 1
    omega
  rw [Open.extend, h.2.2.1, hraw, window_length, window_take, ← hsplit]
  congr 2
  omega

/-- Scanning laid pages assembles the records the walk meets, and completes an
open record if the pages are long enough. -/
theorem scan_laid {grid : Grid} {stream : Nat → α} {t : Nat} {pages : List (Page α)}
    (h : Laid format grid stream t pages) :
    (format.scan pages none).map Extent.raw =
        format.walkBytes grid stream (lastEdge grid t pages) t ∧
    ∀ u record, Reading stream u t record →
      (format.scan pages (some record)).map Extent.raw =
        format.completed grid stream (lastEdge grid t pages) u record.need := by
  induction pages generalizing t with
  | nil =>
    refine ⟨?_, fun u record hr => ?_⟩
    · simp [Format.scan, Format.walkBytes, lastEdge, walk_of_le]
    · have hmore := hr.more
      rw [Format.completed, if_neg (by simp only [lastEdge]; omega)]
      rfl
  | cons page rest ih =>
    obtain ⟨hnone, hsome⟩ := ih h.2.2.2
    have hafter := scanAfter_laid h hnone hsome
    have hlt := grid.lt_pageEnd t
    refine ⟨?_, fun u record hr => ?_⟩
    · have := hafter page.header (Nat.le_refl _)
      rw [Nat.sub_self, Nat.add_zero, Nat.min_eq_left hlt.le] at this
      rw [Format.scan, h.1]
      exact this
    · have hextend := h.extend hr
      obtain ⟨hut, hraw, hmore⟩ := hr
      rw [Format.scan, hextend, window_length]
      split
      next hlen =>
        have hfit : u + record.need ≤ grid.pageEnd t := by omega
        have htotal : u + record.need ≤ lastEdge grid t (page :: rest) :=
          hfit.trans (le_lastEdge grid _ rest)
        have hnext := hafter (page.header + (record.need - record.raw.length)) (by omega)
        have hposition : min (t + (page.header + (record.need - record.raw.length) - page.header))
            (grid.pageEnd t) = u + record.need := by
          rw [hraw, window_length]
          omega
        rw [hposition] at hnext
        rw [List.map_cons, Format.completed, if_pos htotal, hlen]
        exact congrArg _ hnext
      next hlen =>
        refine hsome u { record with raw := _ } ⟨by omega, ?_, by simp only; omega⟩
        rw [Nat.min_eq_right (by omega)]

end LearnPg.Basis.RecordScan
