import Mathlib.Data.Fintype.Card

/-! Tickets with consecutive numbers. A party draws one and holds it until it hands it in, so
what is handed in is out of order by no more than the other parties hold at a time. -/
namespace LearnPg.Basis.Tickets

structure Ticket (π α : Type) where
  party : π
  number : Nat
  value : α

/-- `next` is the number of the next ticket, `out` what was handed in. -/
structure State (π α : Type) where
  next : Nat
  held : π → Option (Nat × α)
  out : List (Ticket π α)

def initial {π α : Type} : State π α := ⟨0, fun _ => none, []⟩

/-! Lists that are nearly in order. -/

/-- After each number there are at most `k` smaller ones. -/
def LateBy (k : Nat) (ns : List Nat) : Prop :=
  ∀ pre n post, ns = pre ++ n :: post → post.countP (· < n) ≤ k

theorem LateBy.sublist {k : Nat} {ms ns : List Nat} (h : LateBy k ns) (hsub : ms.Sublist ns) :
    LateBy k ms := by
  rintro pre n post rfl
  obtain ⟨before, rest, rfl, -, hrest⟩ := List.append_sublist_iff.mp hsub
  obtain ⟨start, last, rfl, hn, hlast⟩ := List.cons_sublist_iff.mp hrest
  obtain ⟨left, right, rfl⟩ := List.append_of_mem hn
  have hall := h (before ++ left) n (right ++ last) (by simp)
  have hpost : post.Sublist (right ++ last) := hlast.trans (List.sublist_append_right _ _)
  exact Nat.le_trans (hpost.countP_le) hall

section

variable {π α : Type} [DecidableEq π] {s t : State π α} {p : π} {x : Nat × α}

def State.draw (s : State π α) (p : π) (a : α) : State π α :=
  { s with next := s.next + 1, held := Function.update s.held p (some (s.next, a)) }

def State.hand (s : State π α) (p : π) (x : Nat × α) : State π α :=
  { s with held := Function.update s.held p none, out := s.out ++ [⟨p, x.1, x.2⟩] }

inductive Step (s : State π α) : State π α → Prop where
  | draw (p : π) (a : α) (hfree : s.held p = none) : Step s (s.draw p a)
  | hand (p : π) (x : Nat × α) (hheld : s.held p = some x) : Step s (s.hand p x)

def State.numbers (s : State π α) : List Nat := s.out.map (·.number)

omit [DecidableEq π] in
noncomputable def State.behind [Fintype π] (s : State π α) (n : Nat) : Finset π :=
  open Classical in Finset.univ.filter fun p => ∃ x, s.held p = some x ∧ x.1 < n

omit [DecidableEq π] in
theorem mem_behind [Fintype π] {n : Nat} :
    p ∈ s.behind n ↔ ∃ x, s.held p = some x ∧ x.1 < n := by
  classical
  simp [State.behind]

/-- No number is drawn twice or lost, and none is late by more than those held beside it. -/
structure Fair [Fintype π] (s : State π α) : Prop where
  nodup : s.numbers.Nodup
  below : ∀ n ∈ s.numbers, n < s.next
  held : ∀ p x, s.held p = some x → x.1 < s.next ∧ x.1 ∉ s.numbers
  apart : ∀ p q x y, s.held p = some x → s.held q = some y → x.1 = y.1 → p = q
  drawn : ∀ n < s.next, n ∈ s.numbers ∨ ∃ p x, s.held p = some x ∧ x.1 = n
  late : ∀ pre n post, s.numbers = pre ++ n :: post →
    post.countP (· < n) + (s.behind n).card ≤ Fintype.card π - 1

variable [Fintype π]

omit [DecidableEq π] in
theorem fair_initial : Fair (initial : State π α) where
  nodup := List.nodup_nil
  below := List.forall_mem_nil _
  held := fun _ _ h => nomatch h
  apart := fun _ _ _ _ h => nomatch h
  drawn := fun n h => absurd h (Nat.not_lt_zero n)
  late := fun pre n post h => by simp [State.numbers, initial] at h

theorem Fair.draw (h : Fair s) (hfree : s.held p = none) (a : α) : Fair (s.draw p a) := by
  have hheld : ∀ q x, (s.draw p a).held q = some x →
      q = p ∧ x = (s.next, a) ∨ q ≠ p ∧ s.held q = some x := by
    intro q x hq
    by_cases hqp : q = p
    · subst hqp
      exact .inl ⟨rfl, by simpa [State.draw] using hq.symm⟩
    · exact .inr ⟨hqp, by simpa [State.draw, hqp] using hq⟩
  refine ⟨h.nodup, fun n hn => Nat.lt_succ_of_lt (h.below n hn), ?_, ?_, ?_, ?_⟩
  · intro q x hq
    rcases hheld q x hq with ⟨-, rfl⟩ | ⟨-, hq⟩
    · exact ⟨Nat.lt_succ_self _, fun hmem => Nat.lt_irrefl _ (h.below _ hmem)⟩
    · exact ⟨Nat.lt_succ_of_lt (h.held q x hq).1, (h.held q x hq).2⟩
  · intro q r x y hq hr hxy
    rcases hheld q x hq with ⟨rfl, rfl⟩ | ⟨-, hq⟩
    · rcases hheld r y hr with ⟨rfl, -⟩ | ⟨-, hr⟩
      · rfl
      · exact absurd hxy.symm (Nat.ne_of_lt (h.held r y hr).1)
    · rcases hheld r y hr with ⟨-, rfl⟩ | ⟨-, hr⟩
      · exact absurd hxy (Nat.ne_of_lt (h.held q x hq).1)
      · exact h.apart q r x y hq hr hxy
  · intro n hn
    rcases Nat.lt_succ_iff_lt_or_eq.mp hn with hn | rfl
    · rcases h.drawn n hn with hout | ⟨q, x, hq, hx⟩
      · exact .inl hout
      · have hqp : q ≠ p := fun heq => by rw [heq, hfree] at hq; cases hq
        exact .inr ⟨q, x, by simpa [State.draw, hqp] using hq, hx⟩
    · exact .inr ⟨p, (s.next, a), by simp [State.draw], rfl⟩
  · intro pre n post hsplit
    have hn : n < s.next := h.below n (by
      change (s.draw p a).numbers = _ at hsplit
      change n ∈ (s.draw p a).numbers
      rw [hsplit]
      simp)
    -- the new number is greater than all that are out
    have hsame : (s.draw p a).behind n = s.behind n := by
      ext q
      rw [mem_behind, mem_behind]
      constructor
      · rintro ⟨x, hq, hx⟩
        rcases hheld q x hq with ⟨-, rfl⟩ | ⟨-, hq⟩
        · exact absurd (Nat.lt_trans hn hx) (Nat.lt_irrefl _)
        · exact ⟨x, hq, hx⟩
      · rintro ⟨x, hq, hx⟩
        have hqp : q ≠ p := fun heq => by rw [heq, hfree] at hq; cases hq
        exact ⟨x, by simpa [State.draw, hqp] using hq, hx⟩
    rw [hsame]
    exact h.late pre n post hsplit

omit [Fintype π] in
theorem numbers_hand (s : State π α) (p : π) (x : Nat × α) :
    (s.hand p x).numbers = s.numbers ++ [x.1] := by
  simp [State.numbers, State.hand]

theorem Fair.hand (h : Fair s) (hheld : s.held p = some x) : Fair (s.hand p x) := by
  obtain ⟨hlt, hnew⟩ := h.held p x hheld
  have hkept : ∀ q y, (s.hand p x).held q = some y ↔ q ≠ p ∧ s.held q = some y := by
    intro q y
    by_cases hqp : q = p
    · subst hqp
      simp [State.hand]
    · simp [State.hand, hqp]
  refine ⟨?_, ?_, ?_, ?_, ?_, ?_⟩
  · rw [numbers_hand]
    exact h.nodup.append (List.nodup_singleton _) (by simpa using hnew)
  · rw [numbers_hand]
    exact List.forall_mem_append.mpr ⟨h.below, List.forall_mem_singleton.mpr hlt⟩
  · intro q y hq
    obtain ⟨hqp, hq⟩ := (hkept q y).mp hq
    refine ⟨(h.held q y hq).1, ?_⟩
    rw [numbers_hand, List.mem_append, List.mem_singleton, not_or]
    exact ⟨(h.held q y hq).2, fun heq => hqp (h.apart q p y x hq hheld heq)⟩
  · intro q r y z hq hr
    exact h.apart q r y z ((hkept q y).mp hq).2 ((hkept r z).mp hr).2
  · intro n hn
    rw [numbers_hand, List.mem_append, List.mem_singleton]
    rcases h.drawn n hn with hout | ⟨q, y, hq, rfl⟩
    · exact .inl (.inl hout)
    · by_cases hqp : q = p
      · subst hqp
        rw [hheld] at hq
        cases hq
        exact .inl (.inr rfl)
      · exact .inr ⟨q, y, (hkept q y).mpr ⟨hqp, hq⟩, rfl⟩
  · intro pre n post hsplit
    have hsub : (s.hand p x).behind n ⊆ (s.behind n).erase p := by
      intro q hq
      obtain ⟨y, hq, hy⟩ := mem_behind.mp hq
      obtain ⟨hqp, hq⟩ := (hkept q y).mp hq
      exact Finset.mem_erase.mpr ⟨hqp, mem_behind.mpr ⟨y, hq, hy⟩⟩
    have hcard := Finset.card_le_card hsub
    rw [numbers_hand] at hsplit
    rcases List.eq_nil_or_concat post with rfl | ⟨rest, last, rfl⟩
    · -- the number handed in now, which nothing follows
      have hothers : (s.behind n).erase p ⊆ Finset.univ.erase p :=
        Finset.erase_subset_erase p (Finset.subset_univ _)
      have hall := Finset.card_le_card hothers
      rw [Finset.card_erase_of_mem (Finset.mem_univ p), Finset.card_univ] at hall
      rw [List.countP_nil, Nat.zero_add]
      exact Nat.le_trans hcard hall
    · have hbefore : s.numbers ++ [x.1] = (pre ++ n :: rest) ++ [last] := by simpa using hsplit
      obtain ⟨hnumbers, hlast⟩ := List.append_inj' hbefore rfl
      cases hlast
      have hlate := h.late pre n rest hnumbers
      rw [List.concat_eq_append, List.countP_append, List.countP_singleton]
      by_cases hx : x.1 < n
      · have hp : p ∈ s.behind n := mem_behind.mpr ⟨x, hheld, hx⟩
        rw [Finset.card_erase_of_mem hp] at hcard
        have hpos : 0 < (s.behind n).card := Finset.card_pos.mpr ⟨p, hp⟩
        simp only [hx, decide_true, if_true]
        omega
      · have hmono := Nat.le_trans hcard (Finset.card_le_card (Finset.erase_subset p (s.behind n)))
        simp only [hx, decide_false, Bool.false_eq_true, if_false]
        omega

theorem Fair.step (h : Fair s) (hstep : Step s t) : Fair t := by
  cases hstep with
  | draw p a hfree => exact h.draw hfree a
  | hand p x hheld => exact h.hand hheld

omit [DecidableEq π] in
theorem Fair.lateBy (h : Fair s) : LateBy (Fintype.card π - 1) s.numbers :=
  fun pre n post hsplit => Nat.le_trans (Nat.le_add_right _ _) (h.late pre n post hsplit)

end

end LearnPg.Basis.Tickets
