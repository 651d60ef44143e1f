import Mathlib.Order.Nat

/-! Walking a paged stream of self-delimiting records. Positions count payload
bytes only, page headers left out: a grid says where each page's payload ends,
a length function says how long the record starting at a position claims to
be. The walk is arithmetic; no bytes occur in it. -/
namespace LearnPg.Basis.RecordWalk

/-- Page boundaries, given by the end of the page a position lies in. -/
structure Grid where
  pageEnd : Nat → Nat
  lt_pageEnd : ∀ t, t < pageEnd t
  pageEnd_eq : ∀ t u, t ≤ u → u < pageEnd t → pageEnd u = pageEnd t

def Grid.AtEdge (grid : Grid) (u : Nat) : Prop := ∀ t < u, grid.pageEnd t ≤ u

theorem Grid.atEdge_pageEnd (grid : Grid) (t : Nat) : grid.AtEdge (grid.pageEnd t) := by
  intro u hu
  by_cases h : t ≤ u
  · exact (grid.pageEnd_eq t u h hu).le
  · by_contra hlt
    have := grid.pageEnd_eq u t (by omega) (by have := grid.lt_pageEnd t; omega)
    omega

/-- The rules of a walk: records shorter than `minLen` do not exist, a header of
`minLen` bytes is only looked for inside one page, records are padded by
`align`. -/
structure Rules extends Grid where
  minLen : Nat
  align : Nat → Nat
  minLen_pos : 0 < minLen
  le_align : ∀ n, n ≤ align n
  align_lt : ∀ n, align n < n + minLen

variable (rules : Rules) (len : Nat → Nat) (total : Nat)

/-- Where the walk goes on after a record of `n` bytes at `t`. A record inside
one page is followed by its padding, but never past the page; a record that
crossed a page boundary is followed by nothing. -/
def Rules.resume (t n : Nat) : Nat :=
  if t + n ≤ rules.pageEnd t then min (t + rules.align n) (rules.pageEnd t) else t + n

theorem Rules.add_le_resume (t n : Nat) : t + n ≤ rules.resume t n := by
  unfold Rules.resume
  have := rules.le_align n
  split <;> omega

theorem Rules.resume_le_add (t n : Nat) : rules.resume t n ≤ t + rules.align n := by
  unfold Rules.resume
  have := rules.le_align n
  split <;> omega

/-- The records met from position `t` on, each with its length. -/
def Rules.walk (t : Nat) : List (Nat × Nat) :=
  if _h : t < total then
    if t + rules.minLen ≤ rules.pageEnd t ∧ rules.minLen ≤ len t then
      if t + len t ≤ total then (t, len t) :: Rules.walk (rules.resume t (len t))
      else []
    else Rules.walk (rules.pageEnd t)
  else []
termination_by total - t
decreasing_by
  · have := rules.add_le_resume t (len t)
    have := rules.minLen_pos
    omega
  · have := rules.lt_pageEnd t
    omega

variable {rules len total}

theorem walk_of_le {t : Nat} (h : total ≤ t) : rules.walk len total t = [] := by
  rw [Rules.walk, dif_neg (by omega)]

theorem walk_found {t : Nat} (hroom : t + rules.minLen ≤ rules.pageEnd t)
    (hlen : rules.minLen ≤ len t) (hfit : t + len t ≤ total) :
    rules.walk len total t = (t, len t) :: rules.walk len total (rules.resume t (len t)) := by
  have := rules.minLen_pos
  rw [Rules.walk, dif_pos (by omega), if_pos ⟨hroom, hlen⟩, if_pos hfit]

theorem walk_skip {t : Nat} (ht : t < total)
    (h : ¬ (t + rules.minLen ≤ rules.pageEnd t ∧ rules.minLen ≤ len t)) :
    rules.walk len total t = rules.walk len total (rules.pageEnd t) := by
  rw [Rules.walk, dif_pos ht, if_neg h]

theorem walk_quiet (t : Nat) (h : ∀ u, t ≤ u → len u < rules.minLen) :
    rules.walk len total t = [] := by
  induction t using Rules.walk.induct rules len total with
  | case1 t ht hfound _ _ => exact absurd hfound.2 (by have := h t le_rfl; omega)
  | case2 t ht hfound _ => exact absurd hfound.2 (by have := h t le_rfl; omega)
  | case3 t ht hskip ih =>
    rw [walk_skip ht hskip]
    exact ih fun u hu => h u (by have := rules.lt_pageEnd t; omega)
  | case4 t ht => exact walk_of_le (by omega)

theorem walk_to_edge {t u : Nat} (htu : t ≤ u) (hu : rules.AtEdge u)
    (hgap : u < t + rules.minLen) (htotal : u ≤ total) :
    rules.walk len total t = rules.walk len total u := by
  by_cases heq : t = u
  · rw [heq]
  · have hend := hu t (by omega)
    have hlt := rules.lt_pageEnd t
    rw [walk_skip (by omega) (by omega)]
    exact walk_to_edge hend hu (by omega) htotal
termination_by u - t

theorem walk_head {t u n : Nat} {rest : List (Nat × Nat)}
    (h : rules.walk len total t = (u, n) :: rest) :
    t ≤ u ∧ u + rules.minLen ≤ rules.pageEnd u ∧ n = len u ∧ rules.minLen ≤ n ∧ u + n ≤ total ∧
      (u = t ∨ rules.AtEdge u) ∧ rest = rules.walk len total (rules.resume u n) := by
  induction t using Rules.walk.induct rules len total with
  | case1 t ht hfound hfit _ =>
    rw [walk_found hfound.1 hfound.2 hfit] at h
    simp only [List.cons.injEq, Prod.mk.injEq] at h
    obtain ⟨⟨rfl, rfl⟩, rfl⟩ := h
    exact ⟨le_rfl, hfound.1, rfl, hfound.2, hfit, .inl rfl, rfl⟩
  | case2 t ht hfound hfit =>
    rw [Rules.walk, dif_pos ht, if_pos hfound, if_neg hfit] at h
    contradiction
  | case3 t ht hskip ih =>
    rw [walk_skip ht hskip] at h
    obtain ⟨hle, hroom, hn, hmin, hfit, hat, hrest⟩ := ih h
    have hlt := rules.lt_pageEnd t
    refine ⟨by omega, hroom, hn, hmin, hfit, .inr ?_, hrest⟩
    rcases hat with rfl | hat
    · exact rules.atEdge_pageEnd t
    · exact hat
  | case4 t ht =>
    rw [walk_of_le (by omega)] at h
    contradiction

/-! Records laid out one after another, each padded, and the exact condition
under which the walk meets all of them. -/

variable (rules)

def Rules.placed (s : Nat) : List Nat → List (Nat × Nat)
  | [] => []
  | n :: rest => (s, n) :: Rules.placed (s + rules.align n) rest

/-- The walk, having read `n` bytes at `s`, meets the record that starts after
the padding: that record opens a page, or its header fits on its page and the
record before it lies on the same page or needs no padding. -/
def Rules.Follows (s n : Nat) : Prop :=
  rules.AtEdge (s + rules.align n) ∨
    (s + rules.align n + rules.minLen ≤ rules.pageEnd (s + rules.align n) ∧
      (rules.pageEnd (s + rules.align n) = rules.pageEnd s ∨ rules.align n = n))

/-- Every record but the first is met after the one before it. -/
def Rules.Met (s : Nat) : List Nat → Prop
  | [] => True
  | [_] => True
  | n :: m :: rest => rules.Follows s n ∧ Rules.Met (s + rules.align n) (m :: rest)

variable {rules}

theorem walk_resume {s n : Nat} (h : rules.Follows s n)
    (htotal : s + rules.align n ≤ total) :
    rules.walk len total (rules.resume s n) = rules.walk len total (s + rules.align n) := by
  have hle := rules.le_align n
  have halign := rules.align_lt n
  rcases h with hedge | ⟨hroom, hsame⟩
  · apply walk_to_edge _ hedge _ htotal
    · unfold Rules.resume
      split <;> omega
    · have := rules.add_le_resume s n
      omega
  · congr 1
    have hmin := rules.minLen_pos
    have hlt := rules.lt_pageEnd (s + rules.align n)
    unfold Rules.resume
    split
    · rcases hsame with hsame | hsame
      · omega
      · omega
    · rcases hsame with hsame | hsame
      · omega
      · omega

theorem follows_of_walk {s n u m : Nat} {rest : List (Nat × Nat)}
    (hu : u = s + rules.align n)
    (h : rules.walk len total (rules.resume s n) = (u, m) :: rest) : rules.Follows s n := by
  obtain ⟨hle, hroom, -, -, -, hat, -⟩ := walk_head h
  subst hu
  have hmin := rules.minLen_pos
  rcases hat with hat | hat
  · unfold Rules.resume at hat
    split at hat
    · by_cases hedge : s + rules.align n = rules.pageEnd s
      · exact .inl (hedge ▸ rules.atEdge_pageEnd s)
      · exact .inr ⟨hroom, .inl (rules.pageEnd_eq s _ (by omega) (by omega))⟩
    · exact .inr ⟨hroom, .inr (by omega)⟩
  · exact .inl hat

def Reads (rules : Rules) (len : Nat → Nat) (s : Nat) (lens : List Nat) : Prop :=
  ∀ p ∈ rules.placed s lens, len p.1 = p.2 ∧ rules.minLen ≤ p.2

theorem Reads.head {s n : Nat} {rest : List Nat} (h : Reads rules len s (n :: rest)) :
    len s = n ∧ rules.minLen ≤ n := h (s, n) (by simp [Rules.placed])

theorem Reads.tail {s n : Nat} {rest : List Nat} (h : Reads rules len s (n :: rest)) :
    Reads rules len (s + rules.align n) rest :=
  fun p hp => h p (by simp [Rules.placed, hp])

def Rules.finish (rules : Rules) (s : Nat) : List Nat → Nat
  | [] => s
  | n :: rest => Rules.finish rules (s + rules.align n) rest

theorem le_finish (s : Nat) (lens : List Nat) : s ≤ rules.finish s lens := by
  induction lens generalizing s with
  | nil => exact Nat.le_refl s
  | cons n rest ih => exact Nat.le_trans (Nat.le_add_right s _) (ih _)

def Rules.lastEnd (rules : Rules) (s : Nat) : List Nat → Nat
  | [] => s
  | [n] => s + n
  | n :: m :: rest => Rules.lastEnd rules (s + rules.align n) (m :: rest)

/-- The walk from `s` meets exactly the placed records if and only if every
record follows the one before it. -/
theorem walk_eq_placed_iff {s : Nat} {lens : List Nat}
    (hreads : Reads rules len s lens)
    (hstart : s + rules.minLen ≤ rules.pageEnd s)
    (hedge : ∀ u, rules.AtEdge u → u + rules.minLen ≤ rules.pageEnd u)
    (hquiet : ∀ u, rules.lastEnd s lens ≤ u → len u < rules.minLen)
    (htotal : rules.finish s lens ≤ total) :
    rules.walk len total s = rules.placed s lens ↔ rules.Met s lens := by
  induction lens generalizing s with
  | nil => simpa [Rules.placed, Rules.Met] using walk_quiet s hquiet
  | cons n rest ih =>
    obtain ⟨hlen, hmin⟩ := hreads.head
    have hfinish : s + rules.align n ≤ total := Nat.le_trans (le_finish _ rest) htotal
    have hle := rules.le_align n
    have hwalk : rules.walk len total s =
        (s, n) :: rules.walk len total (rules.resume s n) := by
      rw [walk_found hstart (by omega) (by omega), hlen]
    rw [hwalk, Rules.placed, List.cons_inj_right]
    cases rest with
    | nil =>
      have := rules.add_le_resume s n
      simpa [Rules.placed, Rules.Met] using
        walk_quiet _ fun u hu => hquiet u (by simp only [Rules.lastEnd]; omega)
    | cons m rest =>
      have hnext (h : rules.Follows s n) :
          rules.walk len total (s + rules.align n) =
            rules.placed (s + rules.align n) (m :: rest) ↔
          rules.Met (s + rules.align n) (m :: rest) := by
        apply ih hreads.tail _ hquiet htotal
        rcases h with h | h
        · exact hedge _ h
        · exact h.1
      constructor
      · intro h
        have hfollows := follows_of_walk rfl h
        rw [walk_resume hfollows hfinish] at h
        exact ⟨hfollows, (hnext hfollows).mp h⟩
      · rintro ⟨hfollows, hmet⟩
        rw [walk_resume hfollows hfinish]
        exact (hnext hfollows).mpr hmet

end LearnPg.Basis.RecordWalk
