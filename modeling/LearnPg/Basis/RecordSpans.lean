import LearnPg.Basis.RecordStream

/-! What scanned pages give, seen as a whole: the lengths of the records, the record left
open behind some pages, and the stretch of the pages' payloads each record takes. -/
namespace LearnPg.Basis.RecordSpans
open RecordScan RecordStream

variable {α : Type} {format : Format α}

/-! Lengths. -/

theorem lenOf_append {bytes : List α} (h : format.minLen ≤ bytes.length) (more : List α) :
    format.lenOf (bytes ++ more) = format.lenOf bytes := by
  rw [← format.lenOf_take, List.take_append_of_le_length h, format.lenOf_take]

theorem lenOf_take_of_le (bytes : List α) {n : Nat} (h : format.minLen ≤ n) :
    format.lenOf (bytes.take n) = format.lenOf bytes := by
  rw [← format.lenOf_take, List.take_take, Nat.min_eq_left h, format.lenOf_take]

variable (format) in
structure Started (o : Open α) : Prop where
  header : format.minLen ≤ o.raw.length
  claim : format.lenOf o.raw = o.need
  lacks : o.raw.length < o.need

theorem scanFrom_sized {page : Page α} (hpage : page.bytes.length = format.pageSize)
    (offset : Nat) :
    (∀ e ∈ (format.scanFrom page offset).1, WellSized format e.raw) ∧
      ∀ o ∈ (format.scanFrom page offset).2, Started format o := by
  induction offset using Format.scanFrom.induct format page with
  | case1 offset hroom hshort => simp [scanFrom_short hroom hshort]
  | case2 offset hroom hshort hover =>
    rw [scanFrom_over hroom hshort hover]
    have hlen : (page.bytes.drop offset).length = format.pageSize - offset := by
      rw [List.length_drop, hpage]
    refine ⟨by simp, ?_⟩
    rintro o ⟨⟩
    exact ⟨by simp only [hlen]; omega, rfl, by simp only [hlen]; omega⟩
  | case3 offset hroom hshort hover ih =>
    rw [scanFrom_found hroom hshort hover]
    refine ⟨?_, ih.2⟩
    rintro e (_ | ⟨_, he⟩)
    · have hmin := Nat.le_of_not_lt hshort
      have hlen : ((page.bytes.drop offset).take
          (format.lenOf (page.bytes.drop offset))).length =
          format.lenOf (page.bytes.drop offset) := by
        rw [List.length_take, List.length_drop, hpage]
        omega
      exact ⟨(lenOf_take_of_le _ hmin).trans hlen.symm, hlen.symm ▸ hmin⟩
    · exact ih.1 e he
  | case4 offset hroom => simp [scanFrom_past hroom]

theorem Started.extend {o : Open α} (h : Started format o) {page : Page α}
    (hlen : (o.extend page).length ≠ o.need) :
    Started format { o with raw := o.extend page } := by
  obtain ⟨hheader, hclaim, hlacks⟩ := h
  refine ⟨?_, ?_, ?_⟩
  · simp only [Open.extend, List.length_append]
    omega
  · exact (lenOf_append hheader _).trans hclaim
  · simp only [Open.extend, List.length_append, List.length_take] at hlen ⊢
    omega

theorem Started.complete {o : Open α} (h : Started format o) {page : Page α}
    (hlen : (o.extend page).length = o.need) : WellSized format (o.extend page) := by
  obtain ⟨hheader, hclaim, hlacks⟩ := h
  refine ⟨?_, by omega⟩
  rw [hlen, ← hclaim]
  exact lenOf_append hheader _

theorem scanPage_sized {page : Page α} (hpage : page.bytes.length = format.pageSize)
    {record : Option (Open α)} (hopen : ∀ o ∈ record, Started format o) :
    (∀ e ∈ (format.scanPage page record).1, WellSized format e.raw) ∧
      ∀ o ∈ (format.scanPage page record).2, Started format o := by
  cases record with
  | none => exact scanFrom_sized hpage page.start
  | some o =>
    have ho := hopen o rfl
    rw [Format.scanPage]
    by_cases hlen : (o.extend page).length = o.need
    · obtain ⟨hfound, hlast⟩ := scanFrom_sized hpage (page.header + (o.need - o.raw.length))
      simp only [if_pos hlen]
      refine ⟨?_, hlast⟩
      rintro e (_ | ⟨_, he⟩)
      · exact ho.complete hlen
      · exact hfound e he
    · simp only [if_neg hlen]
      refine ⟨by simp, ?_⟩
      rintro o' ⟨⟩
      exact ho.extend hlen

/-- Every record found on full pages has the length it claims. -/
theorem scan_sized {pages : List (Page α)} {record : Option (Open α)}
    (hpages : ∀ p ∈ pages, p.bytes.length = format.pageSize)
    (hopen : ∀ o ∈ record, Started format o) :
    ∀ e ∈ format.scan pages record, WellSized format e.raw := by
  induction pages generalizing record with
  | nil => simp [Format.scan]
  | cons page rest ih =>
    obtain ⟨hfound, hlast⟩ := scanPage_sized (hpages page List.mem_cons_self) hopen
    rw [scan_cons]
    intro e he
    rcases List.mem_append.mp he with he | he
    · exact hfound e he
    · exact ih (fun p hp => hpages p (List.mem_cons_of_mem page hp)) hlast e he

/-! The record left open. -/

def Format.leftOpen (format : Format α) : List (Page α) → Option (Open α) → Option (Open α)
  | [], record => record
  | page :: rest, record => Format.leftOpen format rest (format.scanPage page record).2

theorem scan_append (ps qs : List (Page α)) (record : Option (Open α)) :
    format.scan (ps ++ qs) record =
      format.scan ps record ++ format.scan qs (Format.leftOpen format ps record) := by
  induction ps generalizing record with
  | nil => rfl
  | cons page rest ih =>
    rw [List.cons_append, scan_cons, ih, scan_cons, List.append_assoc]
    rfl

/-- An open record is found later or left open, where it was begun. -/
theorem open_kept (pages : List (Page α)) (o : Open α) :
    (∃ e ∈ format.scan pages (some o), e.base = o.base ∧ e.offset = o.offset) ∨
      ∃ o' ∈ Format.leftOpen format pages (some o), o'.base = o.base ∧ o'.offset = o.offset := by
  induction pages generalizing o with
  | nil => exact .inr ⟨o, rfl, rfl, rfl⟩
  | cons page rest ih =>
    rw [scan_cons, Format.leftOpen, Format.scanPage]
    by_cases hlen : (o.extend page).length = o.need
    · simp only [if_pos hlen]
      exact .inl ⟨_, List.mem_append_left _ List.mem_cons_self, rfl, rfl⟩
    · simp only [if_neg hlen, List.nil_append]
      exact ih { o with raw := o.extend page }

/-! Searching from a record on. -/

theorem scanFrom_of_found {page : Page α} {offset i : Nat} {e : Extent α}
    (h : (format.scanFrom page offset).1[i]? = some e) :
    format.scanFrom page e.offset =
      ((format.scanFrom page offset).1.drop i, (format.scanFrom page offset).2) := by
  induction offset using Format.scanFrom.induct format page generalizing i with
  | case1 offset hroom hshort => simp [scanFrom_short hroom hshort] at h
  | case2 offset hroom hshort hover => simp [scanFrom_over hroom hshort hover] at h
  | case3 offset hroom hshort hover ih =>
    rw [scanFrom_found hroom hshort hover] at h ⊢
    cases i with
    | zero =>
      rw [List.getElem?_cons_zero, Option.some.injEq] at h
      subst h
      rw [scanFrom_found hroom hshort hover]
      rfl
    | succ i =>
      rw [List.getElem?_cons_succ] at h
      exact ih h
  | case4 offset hroom => simp [scanFrom_past hroom] at h

theorem scanFrom_of_open {page : Page α} {offset : Nat} {o : Open α}
    (h : (format.scanFrom page offset).2 = some o) :
    format.scanFrom page o.offset = ([], some o) := by
  induction offset using Format.scanFrom.induct format page with
  | case1 offset hroom hshort => simp [scanFrom_short hroom hshort] at h
  | case2 offset hroom hshort hover =>
    rw [scanFrom_over hroom hshort hover] at h
    cases h
    exact scanFrom_over hroom hshort hover
  | case3 offset hroom hshort hover ih =>
    rw [scanFrom_found hroom hshort hover] at h
    exact ih h
  | case4 offset hroom => simp [scanFrom_past hroom] at h

theorem scanFrom_first (page : Page α) (offset : Nat) :
    (∀ e ∈ (format.scanFrom page offset).1.head?, e.base = page.base ∧ e.offset = offset) ∧
      ((format.scanFrom page offset).1 = [] → ∀ o ∈ (format.scanFrom page offset).2,
        o.base = page.base ∧ o.offset = offset) := by
  rw [Format.scanFrom]
  split
  · split
    · simp
    · split <;> simp
  · simp

theorem scan_some_head {pages : List (Page α)} {o : Open α} :
    ∀ e ∈ (format.scan pages (some o)).head?, e.base = o.base ∧ e.offset = o.offset := by
  induction pages generalizing o with
  | nil => simp [Format.scan]
  | cons page rest ih =>
    rw [Format.scan]
    split
    · simp
    · exact ih (o := { o with raw := o.extend page })

theorem scan_head {pages : List (Page α)} :
    ∀ e ∈ (format.scan pages none).head?, ∃ p ∈ pages, e.base = p.base ∧ e.offset = p.start := by
  induction pages with
  | nil => simp [Format.scan]
  | cons page rest ih =>
    obtain ⟨hfound, hopen⟩ := @scanFrom_first _ format page page.start
    rw [Format.scan]
    cases hlist : (format.scanFrom page page.start).1 with
    | cons e tail =>
      rintro e' ⟨⟩
      exact ⟨page, List.mem_cons_self, hfound e (by rw [hlist]; rfl)⟩
    | nil =>
      rw [List.nil_append]
      cases hlast : (format.scanFrom page page.start).2 with
      | none =>
        intro e he
        obtain ⟨p, hp, h⟩ := ih e he
        exact ⟨p, List.mem_cons_of_mem page hp, h⟩
      | some o =>
        intro e he
        obtain ⟨hbase, hoffset⟩ := scan_some_head e he
        obtain ⟨hobase, hooffset⟩ := hopen hlist o hlast
        exact ⟨page, List.mem_cons_self, hbase.trans hobase, hoffset.trans hooffset⟩

theorem scan_bases {pages : List (Page α)} {record : Option (Open α)} :
    ∀ e ∈ format.scan pages record, (∃ p ∈ pages, e.base = p.base) ∨
      ∃ o ∈ record, e.base = o.base ∧ e.offset = o.offset := by
  have hkept : format.Kept (fun base offset _ => (∃ p ∈ pages, base = p.base) ∨
      ∃ o ∈ record, base = o.base ∧ offset = o.offset) pages :=
    ⟨fun p hp _ _ _ _ => .inl ⟨p, hp, rfl⟩, fun _ _ _ _ h => h⟩
  exact scan_kept hkept fun o ho => .inr ⟨o, ho, rfl, rfl⟩

/-! The stretches of the pages' payloads. -/

def Page.payload (page : Page α) : List α := page.bytes.drop page.header

def payloads (pages : List (Page α)) : List α := pages.flatMap Page.payload

@[simp] theorem payloads_cons (page : Page α) (rest : List (Page α)) :
    payloads (page :: rest) = Page.payload page ++ payloads rest := List.flatMap_cons

variable (format) in
/-- A page of full size, searched for records behind its header only. -/
structure Whole (page : Page α) : Prop where
  full : page.bytes.length = format.pageSize
  start : page.header ≤ page.start

theorem drop_suffix_payload {page : Page α} {offset : Nat} (h : page.header ≤ offset) :
    page.bytes.drop offset <:+ Page.payload page := by
  obtain ⟨k, rfl⟩ := Nat.exists_eq_add_of_le h
  rw [Page.payload, ← List.drop_drop]
  exact List.drop_suffix k _

theorem scanFrom_inside {page : Page α} {offset : Nat} (hoffset : page.header ≤ offset) :
    (∀ e ∈ (format.scanFrom page offset).1, e.raw <:+: Page.payload page) ∧
      ∀ o ∈ (format.scanFrom page offset).2, o.raw <:+ Page.payload page := by
  obtain ⟨hfound, hlast, -⟩ := scanFrom_offsets format page offset
  obtain ⟨hraw, hlastRaw⟩ := scanFrom_raw format page offset
  constructor
  · intro e he
    obtain ⟨n, -, heq⟩ := hraw e he
    have hle := (hfound e he).2.1
    rw [heq]
    exact (List.take_prefix n _).isInfix.trans (drop_suffix_payload (by omega)).isInfix
  · intro o ho
    have hle := (hlast o ho).2.1
    rw [hlastRaw o ho]
    exact drop_suffix_payload (by omega)

theorem Started.extend_eq {o : Open α} (h : Started format o) {page : Page α}
    (hlen : (o.extend page).length ≠ o.need) : o.extend page = o.raw ++ Page.payload page := by
  have hlacks := h.lacks
  simp only [Open.extend, List.length_append, List.length_take] at hlen
  rw [Open.extend, List.take_of_length_le (by omega), Page.payload]

/-- What one page adds: records of its own payload, after the open one where the page
completes it. What it leaves open reaches the end of the page. -/
theorem scanPage_inside {page : Page α} (hpage : Whole format page) {record : Option (Open α)}
    {prior : List α} (hopen : ∀ o ∈ record, Started format o ∧ o.raw <:+ prior) :
    (∀ e ∈ (format.scanPage page record).1, e.raw <:+: prior ++ Page.payload page) ∧
      ∀ o ∈ (format.scanPage page record).2,
        Started format o ∧ o.raw <:+ prior ++ Page.payload page := by
  have hsized := scanPage_sized hpage.full fun o ho => (hopen o ho).1
  have hown (offset : Nat) (hoffset : page.header ≤ offset) :
      (∀ e ∈ (format.scanFrom page offset).1, e.raw <:+: prior ++ Page.payload page) ∧
        ∀ o ∈ (format.scanFrom page offset).2, o.raw <:+ prior ++ Page.payload page :=
    ⟨fun e he => ((scanFrom_inside hoffset).1 e he).trans (List.suffix_append prior _).isInfix,
      fun o ho => ((scanFrom_inside hoffset).2 o ho).trans (List.suffix_append prior _)⟩
  cases record with
  | none =>
    obtain ⟨hfound, hlast⟩ := hown page.start hpage.start
    exact ⟨hfound, fun o ho => ⟨hsized.2 o ho, hlast o ho⟩⟩
  | some o =>
    obtain ⟨ho, before, rfl⟩ := hopen o rfl
    rw [Format.scanPage] at hsized ⊢
    by_cases hlen : (o.extend page).length = o.need
    · obtain ⟨hfound, hlast⟩ := hown (page.header + (o.need - o.raw.length)) (by omega)
      simp only [if_pos hlen] at hsized ⊢
      refine ⟨?_, fun o' ho' => ⟨hsized.2 o' ho', hlast o' ho'⟩⟩
      rintro e (_ | ⟨_, he⟩)
      · refine ⟨before, (Page.payload page).drop (o.need - o.raw.length), ?_⟩
        simp only [Open.extend, Page.payload, List.append_assoc, List.take_append_drop]
      · exact hfound e he
    · simp only [if_neg hlen] at hsized ⊢
      refine ⟨by simp, ?_⟩
      rintro o' ⟨⟩
      refine ⟨ho.extend hlen, before, ?_⟩
      rw [ho.extend_eq hlen, List.append_assoc]

theorem scan_inside {pages : List (Page α)} (hpages : ∀ p ∈ pages, Whole format p)
    {record : Option (Open α)} {prior : List α}
    (hopen : ∀ o ∈ record, Started format o ∧ o.raw <:+ prior) :
    ∀ e ∈ format.scan pages record, e.raw <:+: prior ++ payloads pages := by
  induction pages generalizing record prior with
  | nil => simp [Format.scan]
  | cons page rest ih =>
    obtain ⟨hfound, hlast⟩ := scanPage_inside (hpages page List.mem_cons_self) hopen
    rw [scan_cons, payloads_cons, ← List.append_assoc]
    intro e he
    rcases List.mem_append.mp he with he | he
    · exact (hfound e he).trans (List.prefix_append _ _).isInfix
    · exact ih (fun p hp => hpages p (List.mem_cons_of_mem page hp)) hlast e he

theorem leftOpen_inside {pages : List (Page α)} (hpages : ∀ p ∈ pages, Whole format p)
    {record : Option (Open α)} {prior : List α}
    (hopen : ∀ o ∈ record, Started format o ∧ o.raw <:+ prior) :
    ∀ o ∈ Format.leftOpen format pages record,
      Started format o ∧ o.raw <:+ prior ++ payloads pages := by
  induction pages generalizing record prior with
  | nil => simpa [Format.leftOpen, payloads] using hopen
  | cons page rest ih =>
    rw [payloads_cons, ← List.append_assoc]
    exact ih (fun p hp => hpages p (List.mem_cons_of_mem page hp))
      (scanPage_inside (hpages page List.mem_cons_self) hopen).2

/-- What becomes of an open record: it takes what it lacks from the pages' payloads and
comes first, or the payloads are too short and nothing is found. -/
theorem scan_some {pages : List (Page α)} (hpages : ∀ p ∈ pages, Whole format p) {o : Open α}
    (ho : Started format o) :
    (payloads pages).length < o.need - o.raw.length ∧ format.scan pages (some o) = [] ∨
      o.need - o.raw.length ≤ (payloads pages).length ∧ ∃ rest, format.scan pages (some o) =
          ⟨o.base, o.offset, o.raw ++ (payloads pages).take (o.need - o.raw.length)⟩ :: rest ∧
        ∀ e ∈ rest, e.raw <:+: payloads pages := by
  have hlacks := ho.lacks
  induction pages generalizing o with
  | nil => exact .inl ⟨by simp [payloads]; omega, rfl⟩
  | cons page rest ih =>
    have hpage := hpages page List.mem_cons_self
    have hrest (p : Page α) (hp : p ∈ rest) := hpages p (List.mem_cons_of_mem page hp)
    rw [Format.scan, payloads_cons]
    by_cases hlen : (o.extend page).length = o.need
    · have hfits : o.need - o.raw.length ≤ (Page.payload page).length := by
        simp only [Open.extend, List.length_append, List.length_take] at hlen
        rw [Page.payload]
        omega
      simp only [if_pos hlen]
      refine .inr ⟨by rw [List.length_append]; omega,
        (format.scanFrom page (page.header + (o.need - o.raw.length))).1 ++ format.scan rest
          (format.scanFrom page (page.header + (o.need - o.raw.length))).2, ?_, ?_⟩
      · rw [List.take_append_of_le_length hfits]
        rfl
      · intro e he
        have hstart : page.header ≤ page.header + (o.need - o.raw.length) := Nat.le_add_right _ _
        have hfrom := @scanFrom_inside _ format page _ hstart
        rcases List.mem_append.mp he with he | he
        · exact (hfrom.1 e he).trans (List.prefix_append _ _).isInfix
        · exact scan_inside hrest (fun o' ho' =>
            ⟨(scanFrom_sized hpage.full _).2 o' ho', hfrom.2 o' ho'⟩) e he
    · simp only [if_neg hlen]
      have hextend := ho.extend_eq hlen
      have hgrown : (o.extend page).length = o.raw.length + (Page.payload page).length := by
        rw [hextend, List.length_append]
      have hstarted := ho.extend hlen
      have hmore : (o.extend page).length < o.need := hstarted.lacks
      rcases ih hrest hstarted hmore with ⟨hshort, hnone⟩ | ⟨hroom, tail, hscan, htail⟩
      · refine .inl ⟨?_, hnone⟩
        rw [List.length_append]
        simp only [hgrown] at hshort
        omega
      · simp only [hgrown] at hroom hscan
        refine .inr ⟨by rw [List.length_append]; omega, tail, ?_, fun e he =>
          (htail e he).trans (List.suffix_append _ _).isInfix⟩
        rw [hscan, hextend, List.append_assoc, List.take_append,
          List.take_of_length_le (show (Page.payload page).length ≤ o.need - o.raw.length by omega),
          Nat.sub_sub]

/-! No byte is taken twice. -/

def taken (found : List (Extent α)) (record : Option (Open α)) : List α :=
  found.flatMap Extent.raw ++ (record.map Open.raw).getD []

theorem scanFrom_sublist (page : Page α) (offset : Nat) :
    (taken (format.scanFrom page offset).1 (format.scanFrom page offset).2).Sublist
      (page.bytes.drop offset) := by
  induction offset using Format.scanFrom.induct format page with
  | case1 offset hroom hshort => simp [scanFrom_short hroom hshort, taken]
  | case2 offset hroom hshort hover => simp [scanFrom_over hroom hshort hover, taken]
  | case3 offset hroom hshort hover ih =>
    rw [scanFrom_found hroom hshort hover]
    have hle := format.le_align (format.lenOf (page.bytes.drop offset))
    obtain ⟨gap, hgap⟩ := Nat.exists_eq_add_of_le hle
    have hrest : (page.bytes.drop (offset + format.align (format.lenOf
        (page.bytes.drop offset)))).Sublist
        ((page.bytes.drop offset).drop (format.lenOf (page.bytes.drop offset))) := by
      rw [hgap, ← Nat.add_assoc, ← List.drop_drop, ← List.drop_drop]
      exact List.drop_sublist _ _
    have hsplit := (ih.trans hrest).append_left
      ((page.bytes.drop offset).take (format.lenOf (page.bytes.drop offset)))
    rw [List.take_append_drop] at hsplit
    simpa only [taken, List.flatMap_cons, List.append_assoc] using hsplit
  | case4 offset hroom => simp [scanFrom_past hroom, taken]

theorem scanPage_sublist {page : Page α} (hpage : Whole format page) {record : Option (Open α)}
    (hopen : ∀ o ∈ record, Started format o) :
    (taken (format.scanPage page record).1 (format.scanPage page record).2).Sublist
      ((record.map Open.raw).getD [] ++ Page.payload page) := by
  cases record with
  | none =>
    exact (scanFrom_sublist page page.start).trans (drop_suffix_payload hpage.start).sublist
  | some o =>
    have ho := hopen o rfl
    rw [Format.scanPage]
    by_cases hlen : (o.extend page).length = o.need
    · simp only [if_pos hlen]
      have hfrom := @scanFrom_sublist _ format page
        (page.header + (o.need - o.raw.length))
      rw [← List.drop_drop] at hfrom
      simp only [taken, List.flatMap_cons, List.append_assoc, Open.extend, Option.map_some,
        Option.getD_some] at hfrom ⊢
      refine List.Sublist.append_left ?_ _
      rw [Page.payload]
      conv => rhs; rw [← List.take_append_drop (o.need - o.raw.length)
        (page.bytes.drop page.header)]
      exact hfrom.append_left _
    · simp only [if_neg hlen, taken]
      simp [ho.extend_eq hlen]

/-- Taken together, the records are a sublist of the pages' payloads. -/
theorem scan_sublist {pages : List (Page α)} (hpages : ∀ p ∈ pages, Whole format p)
    {record : Option (Open α)} (hopen : ∀ o ∈ record, Started format o) :
    ((format.scan pages record).flatMap Extent.raw).Sublist
      ((record.map Open.raw).getD [] ++ payloads pages) := by
  induction pages generalizing record with
  | nil => simp [Format.scan]
  | cons page rest ih =>
    have hpage := hpages page List.mem_cons_self
    have hrest := ih (fun p hp => hpages p (List.mem_cons_of_mem page hp))
      (scanPage_sized hpage.full hopen).2
    have hfirst := scanPage_sublist hpage hopen
    rw [scan_cons, List.flatMap_append, payloads_cons, ← List.append_assoc]
    refine (hrest.append_left _).trans ?_
    rw [← List.append_assoc]
    exact hfirst.append_right _

/-! Scanning the images of pages. -/

section
variable {β : Type} (f : β → α)

/-- The format as it reads items through `f`. -/
def Format.comap (format : Format α) : Format β where
  pageSize := format.pageSize
  minLen := format.minLen
  lenOf := fun bytes => format.lenOf (bytes.map f)
  align := format.align
  minLen_pos := format.minLen_pos
  le_align := format.le_align
  align_lt := format.align_lt
  lenOf_take := by
    intro bytes
    rw [List.map_take, format.lenOf_take]

def Page.map (page : Page β) : Page α := ⟨page.base, page.header, page.start, page.bytes.map f⟩
def Extent.map (e : Extent β) : Extent α := ⟨e.base, e.offset, e.raw.map f⟩
def Open.map (o : Open β) : Open α := ⟨o.base, o.offset, o.need, o.raw.map f⟩

theorem scanFrom_map (page : Page β) (offset : Nat) :
    format.scanFrom (Page.map f page) offset =
      (((Format.comap f format).scanFrom page offset).1.map (Extent.map f),
        ((Format.comap f format).scanFrom page offset).2.map (Open.map f)) := by
  have hdrop (offset : Nat) : (Page.map f page).bytes.drop offset =
      (page.bytes.drop offset).map f := by rw [Page.map, List.map_drop]
  induction offset using Format.scanFrom.induct (Format.comap f format) page with
  | case1 offset hroom hshort =>
    have hshort' : format.lenOf ((Page.map f page).bytes.drop offset) < format.minLen := by
      rw [hdrop]
      exact hshort
    have hroom' : offset + format.minLen ≤ format.pageSize := hroom
    rw [scanFrom_short hroom hshort, scanFrom_short hroom' hshort']
    rfl
  | case2 offset hroom hshort hover =>
    have hshort' : ¬ format.lenOf ((Page.map f page).bytes.drop offset) < format.minLen := by
      rw [hdrop]
      exact hshort
    have hover' :
        format.pageSize < offset + format.lenOf ((Page.map f page).bytes.drop offset) := by
      rw [hdrop]
      exact hover
    have hroom' : offset + format.minLen ≤ format.pageSize := hroom
    rw [scanFrom_over hroom hshort hover, scanFrom_over hroom' hshort' hover', hdrop]
    rfl
  | case3 offset hroom hshort hover ih =>
    have hshort' : ¬ format.lenOf ((Page.map f page).bytes.drop offset) < format.minLen := by
      rw [hdrop]
      exact hshort
    have hover' : ¬ format.pageSize <
        offset + format.lenOf ((Page.map f page).bytes.drop offset) := by
      rw [hdrop]
      exact hover
    have hroom' : offset + format.minLen ≤ format.pageSize := hroom
    rw [scanFrom_found hroom hshort hover, scanFrom_found hroom' hshort' hover', hdrop,
      ← List.map_take]
    rw [show format.align (format.lenOf ((page.bytes.drop offset).map f)) =
      (Format.comap f format).align ((Format.comap f format).lenOf (page.bytes.drop offset))
      from rfl, ih]
    rfl
  | case4 offset hroom =>
    have hroom' : ¬ offset + format.minLen ≤ format.pageSize := hroom
    rw [scanFrom_past hroom, scanFrom_past hroom']
    rfl

theorem scanPage_map (page : Page β) (record : Option (Open β)) :
    format.scanPage (Page.map f page) (record.map (Open.map f)) =
      (((Format.comap f format).scanPage page record).1.map (Extent.map f),
        ((Format.comap f format).scanPage page record).2.map (Open.map f)) := by
  cases record with
  | none => exact scanFrom_map f page page.start
  | some o =>
    have hextend : (Open.map f o).extend (Page.map f page) = (o.extend page).map f := by
      simp [Open.extend, Open.map, Page.map]
    rw [Option.map_some, Format.scanPage, Format.scanPage, hextend]
    simp only [List.length_map]
    by_cases hlen : (o.extend page).length = o.need
    · have hlen' : (o.extend page).length = (Open.map f o).need := hlen
      rw [if_pos hlen, if_pos hlen', scanFrom_map]
      simp [Open.map, Page.map, Extent.map]
    · have hlen' : ¬ (o.extend page).length = (Open.map f o).need := hlen
      rw [if_neg hlen, if_neg hlen']
      rfl

/-- Scanning the images finds the images of the records. -/
theorem scan_map (pages : List (Page β)) (record : Option (Open β)) :
    format.scan (pages.map (Page.map f)) (record.map (Open.map f)) =
      ((Format.comap f format).scan pages record).map (Extent.map f) := by
  induction pages generalizing record with
  | nil => rfl
  | cons page rest ih =>
    rw [List.map_cons, scan_cons, scan_cons, scanPage_map, ih, List.map_append]

end

end LearnPg.Basis.RecordSpans
