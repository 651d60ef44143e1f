import Mathlib.Data.List.Infix
import Mathlib.Data.List.TakeWhile

/-! Pieces of text with runs of blanks between them, and where a word stands in the text that
has to have one certain blank on either side: within a piece, or between two runs of that blank. -/
namespace LearnPg.Basis.Blanks

/-- The white space of Unicode. -/
def isSpace (c : Char) : Bool :=
  0x0009 ≤ c.toNat ∧ c.toNat ≤ 0x000D ∨ c.toNat = 0x0020 ∨ c.toNat = 0x0085 ∨
    c.toNat = 0x00A0 ∨ c.toNat = 0x1680 ∨ 0x2000 ≤ c.toNat ∧ c.toNat ≤ 0x200A ∨
    0x2028 ≤ c.toNat ∧ c.toNat ≤ 0x2029 ∨ c.toNat = 0x202F ∨ c.toNat = 0x205F ∨
    c.toNat = 0x3000

section

variable {α : Type}

/-- It is not empty and neither begins nor ends with a blank. -/
structure Piece (blank : α → Bool) (u : List α) : Prop where
  nonempty : u ≠ []
  head : ∀ c, u.head? = some c → blank c = false
  last : ∀ c, u.getLast? = some c → blank c = false

theorem piece_iff {blank : α → Bool} {u : List α} : Piece blank u ↔
    u.isEmpty = false ∧ (u.head?.all fun c => !blank c) = true ∧
      (u.getLast?.all fun c => !blank c) = true := by
  rw [List.isEmpty_eq_false_iff, Option.all_eq_true, Option.all_eq_true]
  constructor
  · intro h
    exact ⟨h.nonempty, fun c hc => by simp [h.head c hc], fun c hc => by simp [h.last c hc]⟩
  · rintro ⟨hne, hhead, hlast⟩
    exact ⟨hne, fun c hc => by simpa using hhead c hc, fun c hc => by simpa using hlast c hc⟩

instance (blank : α → Bool) (u : List α) : Decidable (Piece blank u) :=
  decidable_of_iff _ piece_iff.symm

/-- A text in which these pieces are separated by blanks. -/
inductive Spread (blank : α → Bool) : List (List α) → List α → Prop where
  | nil : Spread blank [] []
  | one (u : List α) : Spread blank [u] u
  | more {u v g text : List α} {us : List (List α)} (hne : g ≠ [])
      (hg : ∀ c ∈ g, blank c = true) (h : Spread blank (v :: us) text) :
      Spread blank (u :: v :: us) (u ++ g ++ text)

def LaidOut (blank : α → Bool) (us : List (List α)) (text : List α) : Prop :=
  ∃ lead mid trail, text = lead ++ mid ++ trail ∧ (∀ c ∈ lead, blank c = true) ∧
    (∀ c ∈ trail, blank c = true) ∧ Spread blank us mid

def spaced (separator : α) : List (List α) → List α
  | [] => []
  | [u] => u
  | u :: v :: us => u ++ separator :: spaced separator (v :: us)

def trim (blank : α → Bool) (text : List α) : List α :=
  ((text.dropWhile blank).reverse.dropWhile blank).reverse

def surrounded (space : α) (word : List α) : List α := space :: (word ++ [space])

variable {blank : α → Bool} {a c d space : α} {w A B text u g : List α} {us : List (List α)}

theorem spread_spaced (hblank : blank c = true) (us : List (List α)) :
    Spread blank us (spaced c us) := by
  induction us with
  | nil => exact .nil
  | cons u us ih =>
    cases us with
    | nil => exact .one u
    | cons v us =>
      have hmore := Spread.more (u := u) (g := [c]) (by simp) (by simpa using hblank) ih
      simpa [spaced] using hmore

theorem surrounded_split {x y : List α} (hw : ∀ d ∈ w, blank d = false) (hc : blank c = true)
    (h : surrounded space w = x ++ c :: y) : x = [] ∨ y = [] := by
  by_contra hboth
  rw [not_or] at hboth
  obtain ⟨b, x, rfl⟩ := List.exists_cons_of_ne_nil hboth.1
  obtain ⟨y, z, rfl⟩ := (List.eq_nil_or_concat' y).resolve_left hboth.2
  unfold surrounded at h
  rw [List.cons_append, List.cons.injEq, ← List.cons_append, ← List.append_assoc] at h
  have hword := (List.append_inj' h.2 rfl).1
  have hmem : c ∈ w := by
    simp [hword]
  rw [hw c hmem] at hc
  cases hc

theorem infix_cut (hw : ∀ d ∈ w, blank d = false) (hc : blank c = true)
    (h : surrounded space w <:+: A ++ c :: B) :
    surrounded space w <:+: A ++ [c] ∨ surrounded space w <:+: c :: B := by
  obtain ⟨p, q, hpq⟩ := h
  rw [List.append_assoc, List.append_eq_append_iff] at hpq
  rcases hpq with ⟨x, rfl, hrest⟩ | ⟨y, -, hrest⟩
  · rw [List.append_eq_append_iff] at hrest
    rcases hrest with ⟨y, rfl, -⟩ | ⟨y, hpat, hrest⟩
    · exact .inl ⟨p, y ++ [c], by simp⟩
    · cases y with
      | nil =>
        rw [List.append_nil] at hpat
        exact .inl ⟨p, [c], by rw [hpat, List.append_assoc]⟩
      | cons d y =>
        rw [List.cons_append, List.cons.injEq] at hrest
        obtain ⟨rfl, rfl⟩ := hrest
        rcases surrounded_split hw hc hpat with rfl | rfl
        · exact .inr ⟨[], q, by simp [hpat]⟩
        · exact .inl ⟨p, [], by simp [hpat]⟩
  · exact .inr ⟨y, q, by rw [hrest, List.append_assoc]⟩

theorem infix_head (h : surrounded space w <:+: c :: A) :
    c = space ∨ surrounded space w <:+: A := by
  rcases List.infix_cons_iff.mp h with hle | hwithin
  · exact .inl (List.cons_prefix_cons.mp hle).1.symm
  · exact .inr hwithin

theorem infix_last (h : surrounded space w <:+: A ++ [c]) :
    c = space ∨ surrounded space w <:+: A := by
  rcases List.infix_concat_iff.mp h with ⟨p, hsuffix⟩ | hwithin
  · left
    unfold surrounded at hsuffix
    rw [← List.cons_append, ← List.append_assoc] at hsuffix
    have hlast := (List.append_inj' hsuffix rfl).2
    simpa using hlast.symm
  · exact .inr hwithin

theorem infix_gap (hne : w ≠ []) (hw : ∀ d ∈ w, blank d = false) (hg : ∀ d ∈ c :: g, blank d = true)
    (h : surrounded space w <:+: c :: (g ++ B)) :
    ∃ d, blank d = true ∧ surrounded space w <:+: d :: B := by
  induction g generalizing c with
  | nil => exact ⟨c, hg c (by simp), h⟩
  | cons d g ih =>
    obtain ⟨-, hg⟩ := List.forall_mem_cons.mp hg
    have hd := hg d (by simp)
    have hcut : surrounded space w <:+: [c] ++ d :: (g ++ B) := h
    rcases infix_cut hw hd hcut with hshort | hrest
    · have hlength := hshort.length_le
      have hpos := List.length_pos_of_ne_nil hne
      simp only [surrounded, List.length_cons, List.length_append, List.length_nil] at hlength
      omega
    · exact ih hg hrest

theorem infix_across (hne : w ≠ []) (hw : ∀ d ∈ w, blank d = false) (hg : g ≠ [])
    (hblank : ∀ d ∈ g, blank d = true) (h : surrounded space w <:+: A ++ g ++ B) :
    surrounded space w <:+: A ++ [space] ∨ ∃ d, surrounded space w <:+: d :: B := by
  obtain ⟨c, g, rfl⟩ := List.exists_cons_of_ne_nil hg
  rw [List.append_assoc, List.cons_append] at h
  rcases infix_cut hw (hblank c (by simp)) h with hleft | hright
  · left
    rcases infix_last hleft with rfl | hA
    · exact hleft
    · exact hA.trans (List.prefix_append _ _).isInfix
  · obtain ⟨d, -, hd⟩ := infix_gap hne hw hblank hright
    exact .inr ⟨d, hd⟩

theorem infix_spaced (hne : w ≠ []) (hw : ∀ d ∈ w, blank d = false)
    (hspread : Spread blank us text) :
    (surrounded space w <:+: text → surrounded space w <:+: spaced space us) ∧
      ∀ c, surrounded space w <:+: c :: text →
        surrounded space w <:+: space :: spaced space us := by
  have hhead {c : α} {A : List α} (h : surrounded space w <:+: c :: A) :
      surrounded space w <:+: space :: A := by
    rcases infix_head h with rfl | hA
    · exact h
    · exact hA.trans (List.suffix_cons _ _).isInfix
  induction hspread with
  | nil => exact ⟨id, fun c => hhead⟩
  | one u => exact ⟨id, fun c => hhead⟩
  | @more u v g text us hg hblank hspread ih =>
    have hgap {A : List α} (h : surrounded space w <:+: A ++ g ++ text) :
        surrounded space w <:+: A ++ space :: spaced space (v :: us) := by
      rcases infix_across hne hw hg hblank h with hleft | ⟨d, hright⟩
      · exact hleft.trans ⟨[], spaced space (v :: us), by simp⟩
      · exact (ih.2 d hright).trans (List.suffix_append _ _).isInfix
    exact ⟨hgap, fun c h => hhead (hgap (A := c :: u) h)⟩

theorem infix_within (hw : ∀ d ∈ w, blank d = false) (hd : blank d = true) (hother : d ≠ space) :
    (surrounded space w <:+: spaced d us → us ≠ [] → ∃ u ∈ us, surrounded space w <:+: u) := by
  have hhead {A : List α} (h : surrounded space w <:+: d :: A) : surrounded space w <:+: A :=
    (infix_head h).resolve_left hother
  induction us with
  | nil => exact fun _ h => absurd rfl h
  | cons u us ih =>
    cases us with
    | nil => exact fun h _ => ⟨u, by simp, h⟩
    | cons v us =>
      intro h _
      rcases infix_cut hw hd h with hleft | hright
      · exact ⟨u, by simp, (infix_last hleft).resolve_left hother⟩
      · obtain ⟨x, hx, hwithin⟩ := ih (hhead hright) (by simp)
        exact ⟨x, List.mem_cons_of_mem u hx, hwithin⟩

theorem piece_of_spread (hspread : Spread blank us text) (hu : u ∈ us) : u <:+: text := by
  induction hspread with
  | nil => cases hu
  | one v =>
    rw [List.mem_singleton.mp hu]
  | @more v v' g text us _ _ _ ih =>
    rcases List.mem_cons.mp hu with rfl | hu
    · exact ⟨[], g ++ text, by simp⟩
    · exact (ih hu).trans (List.suffix_append _ _).isInfix

theorem prefix_head {v : List α} (hw : ∀ d ∈ w, blank d = false)
    (hspread : Spread blank (v :: us) text) : w <+: text ↔ w <+: v := by
  cases hspread with
  | one => rfl
  | @more _ v' g text us hg hblank =>
    constructor
    · intro h
      rw [List.append_assoc] at h
      have hv : v <+: v ++ (g ++ text) := List.prefix_append v (g ++ text)
      rcases List.prefix_or_prefix_of_prefix h hv with hle | ⟨x, rfl⟩
      · exact hle
      · obtain ⟨c, g, rfl⟩ := List.exists_cons_of_ne_nil hg
        cases x with
        | nil => simp
        | cons d x =>
          rw [List.prefix_append_right_inj, List.cons_append, List.cons_prefix_cons] at h
          have hc := hblank c (by simp)
          rw [← h.1, hw d (by simp)] at hc
          cases hc
    · intro h
      exact h.trans ⟨g ++ text, by simp⟩

/-! What a map that keeps blanks and what is not blank does. -/

theorem Spread.map {f : α → α} (hf : ∀ c, blank (f c) = blank c) (hspread : Spread blank us text) :
    Spread blank (us.map (List.map f)) (text.map f) := by
  induction hspread with
  | nil => exact .nil
  | one u => exact .one _
  | more hne hg _ ih =>
    rw [List.map_append, List.map_append]
    refine .more (by simpa using hne) ?_ ih
    simpa [hf] using hg

theorem spaced_map (f : α → α) (us : List (List α)) :
    (spaced c us).map f = spaced (f c) (us.map (List.map f)) := by
  induction us with
  | nil => rfl
  | cons u us ih =>
    cases us with
    | nil => rfl
    | cons v us => simpa [spaced] using ih

theorem piece_map {f : α → α} (hf : ∀ c, blank (f c) = blank c) :
    Piece blank (u.map f) ↔ Piece blank u := by
  have hblank (o : Option α) : (∀ c, o.map f = some c → blank c = false) ↔
      ∀ c, o = some c → blank c = false := by
    cases o <;> simp [hf]
  constructor
  · rintro ⟨hne, hhead, hlast⟩
    rw [List.head?_map, hblank] at hhead
    rw [List.getLast?_map, hblank] at hlast
    exact ⟨by simpa using hne, hhead, hlast⟩
  · rintro ⟨hne, hhead, hlast⟩
    rw [← hblank, ← List.head?_map] at hhead
    rw [← hblank, ← List.getLast?_map] at hlast
    exact ⟨by simpa using hne, hhead, hlast⟩

theorem Spread.piece (hspread : Spread blank us text) (hus : ∀ u ∈ us, Piece blank u)
    (hne : us ≠ []) : Piece blank text := by
  induction hspread with
  | nil => exact absurd rfl hne
  | one u => exact hus u (by simp)
  | @more u v g text us hg hblank hspread ih =>
    have hu := hus u (by simp)
    have hrest := ih (fun x hx => hus x (List.mem_cons_of_mem u hx)) (by simp)
    constructor
    · simp [hrest.nonempty]
    · intro c hc
      rw [List.append_assoc, List.head?_append_of_ne_nil _ hu.nonempty] at hc
      exact hu.head c hc
    · intro c hc
      rw [List.getLast?_append_of_ne_nil _ hrest.nonempty] at hc
      exact hrest.last c hc

theorem dropWhile_blanks (hg : ∀ d ∈ g, blank d = true)
    (hA : ∀ c, A.head? = some c → blank c = false) :
    (g ++ A).dropWhile blank = A := by
  rw [List.dropWhile_append_of_pos hg]
  cases A with
  | nil => rfl
  | cons c A => exact List.dropWhile_cons_of_neg (by simp [hA c rfl])

theorem trim_blanks {lead mid trail : List α} (hlead : ∀ c ∈ lead, blank c = true)
    (htrail : ∀ c ∈ trail, blank c = true) (hmid : mid = [] ∨ Piece blank mid) :
    trim blank (lead ++ mid ++ trail) = mid := by
  unfold trim
  rcases hmid with rfl | hmid
  · have hall : ∀ c ∈ lead ++ trail, blank c = true := by
      intro c hc
      exact (List.mem_append.mp hc).elim (hlead c) (htrail c)
    rw [List.append_nil, List.dropWhile_eq_nil_iff.mpr hall]
    rfl
  · have hhead : ∀ c, (mid ++ trail).head? = some c → blank c = false := by
      rw [List.head?_append_of_ne_nil _ hmid.nonempty]
      exact hmid.head
    have hlast : ∀ c, mid.reverse.head? = some c → blank c = false := by
      rw [List.head?_reverse]
      exact hmid.last
    rw [List.append_assoc, dropWhile_blanks hlead hhead, List.reverse_append,
      dropWhile_blanks (by simpa using htrail) hlast, List.reverse_reverse]

end

end LearnPg.Basis.Blanks
