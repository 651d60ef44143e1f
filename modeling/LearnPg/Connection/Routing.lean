import LearnPg.Basis.Blanks
import LearnPg.Connection.Client
import Mathlib.Tactic.IntervalCases

/-! Whether `Execute` asks for the rows of a statement. It looks for the word `returning`
between two spaces, and a statement may have other blanks there. -/
namespace LearnPg.Connection

open Basis.Blanks Workspace.Data

/-- `unicode.ToLower`, as far as blanks go. -/
structure Lowers (lower : Char → Char) : Prop where
  blank : ∀ c, isSpace c = true → lower c = c
  other : ∀ c, isSpace c = false → isSpace (lower c) = false

/-- `Execute` returns the rows of the statement, unless an error. -/
def ReturnsRows (lower : Char → Char) (sql : String) : Prop :=
  ∀ conn, (execute lower (some conn) sql).2 = [.query sql]

/-- The tokens, grouped where no blanks are between them, in small letters. -/
def lowered (lower : Char → Char) (us : List (List Char)) : List (List Char) :=
  us.map (List.map lower)

/-- Neither the blanks between the tokens nor the case of their letters matter, and a
statement is sent once. -/
structure IgnoresLayout (lower : Char → Char) (us : List (List Char)) : Prop where
  same : ∀ vs text text', lowered lower vs = lowered lower us → LaidOut isSpace us text.toList →
    LaidOut isSpace vs text'.toList → (ReturnsRows lower text ↔ ReturnsRows lower text')
  once : ∀ conn sql, (execute lower (some conn) sql).2.length = 1

def BeginsQuery (us : List (List Char)) : Prop :=
  ∃ u, us.head? = some u ∧ ∃ word ∈ queryWords, word.toList <+: u

section

variable {lower : Char → Char} {us vs : List (List Char)} {sql text : String}

theorem Lowers.isSpace (hlower : Lowers lower) (c : Char) :
    Basis.Blanks.isSpace (lower c) = Basis.Blanks.isSpace c := by
  cases hc : Basis.Blanks.isSpace c with
  | true => rw [hlower.blank c hc, hc]
  | false => exact hlower.other c hc

theorem lowers_toLower : Lowers Char.toLower := by
  have hupper (c : Char) (hc : Char.toLower c ≠ c) :
      isSpace c = false ∧ isSpace (Char.toLower c) = false := by
    have hrange : 65 ≤ c.toNat ∧ c.toNat ≤ 90 := by
      by_contra hout
      apply hc
      unfold Char.toLower
      rw [dif_neg]
      exact hout
    have hnat : Char.ofNat c.toNat = c := Char.ofNat_toNat c
    obtain ⟨hlow, hhigh⟩ := hrange
    interval_cases c.toNat <;> rw [← hnat] <;> decide
  constructor
  · intro c hc
    by_contra hne
    rw [(hupper c hne).1] at hc
    cases hc
  · intro c hc
    by_cases hsame : Char.toLower c = c
    · rw [hsame, hc]
    · exact (hupper c hsame).2

theorem shouldUseQuery_iff : shouldUseQuery sql = true ↔
    (∃ word ∈ queryWords, word.toList <+: sql.toList) ∨ returning <:+: sql.toList := by
  have hany : (queryWords.any fun word => word.toList.isPrefixOf sql.toList) = true ↔
      ∃ word ∈ queryWords, word.toList <+: sql.toList := by
    simp only [List.any_eq_true, List.isPrefixOf_iff_prefix]
  unfold shouldUseQuery
  split
  next hwords => exact iff_of_true rfl (.inl (hany.mp hwords))
  next hwords =>
    rw [hany] at hwords
    simp [hwords]

theorem returnsRows_iff : ReturnsRows lower sql ↔
    shouldUseQuery (Api.trimSpace (toLower lower sql)) = true := by
  unfold ReturnsRows
  simp only [sent_once]
  constructor
  · intro h
    have hsent := h ⟨fun _ => .error "", fun _ => .error ""⟩
    by_contra hexec
    simp [hexec] at hsent
  · intro h _
    rw [if_pos h]

theorem returning_eq : returning = surrounded ' ' "returning".toList := by decide

theorem returning_plain : ∀ c ∈ "returning".toList, isSpace c = false := by
  have hall : ("returning".toList.all fun c => !isSpace c) = true := by decide
  simpa only [List.all_eq_true, Bool.not_eq_true'] using hall

theorem queryWords_plain : ∀ word ∈ queryWords, ∀ c ∈ word.toList, isSpace c = false := by
  have hall : ∀ word ∈ queryWords, (word.toList.all fun c => !isSpace c) = true := by decide
  simpa only [List.all_eq_true, Bool.not_eq_true'] using hall

/-- Only the first token tells whether a statement begins with one of the words. -/
theorem beginsQuery_iff {t : List Char} (hspread : Spread isSpace us t) :
    (∃ word ∈ queryWords, word.toList <+: t) ↔ BeginsQuery us := by
  unfold BeginsQuery
  cases us with
  | nil =>
    cases hspread
    simp [queryWords]
  | cons u us =>
    simp only [List.head?_cons, Option.some.injEq, exists_eq_left']
    refine exists_congr fun word => and_congr_right fun hword => ?_
    exact prefix_head (queryWords_plain word hword) hspread

theorem normalized_eq (hlower : Lowers lower) (hus : ∀ u ∈ us, Piece isSpace u)
    {lead mid trail : List Char} (htext : text.toList = lead ++ mid ++ trail)
    (hlead : ∀ c ∈ lead, isSpace c = true) (htrail : ∀ c ∈ trail, isSpace c = true)
    (hspread : Spread isSpace us mid) :
    (Api.trimSpace (toLower lower text)).toList = mid.map lower := by
  have hblank {g : List Char} (hg : ∀ c ∈ g, isSpace c = true) :
      ∀ c ∈ g.map lower, isSpace c = true := by
    simpa [hlower.isSpace] using hg
  have hmid : mid.map lower = [] ∨ Piece isSpace (mid.map lower) := by
    by_cases hne : us = []
    · subst hne
      cases hspread
      exact .inl rfl
    · exact .inr ((piece_map hlower.isSpace).mpr (hspread.piece hus hne))
  have htrim := trim_blanks (hblank hlead) (hblank htrail) hmid
  unfold Api.trimSpace toLower
  rw [String.toList_ofList, String.toList_ofList, htext, List.map_append, List.map_append]
  exact htrim

theorem returnsRows_laidOut (hlower : Lowers lower) (hus : ∀ u ∈ us, Piece isSpace u)
    (htext : LaidOut isSpace us text.toList) : ∃ mid, Spread isSpace (lowered lower us) mid ∧
      (ReturnsRows lower text ↔ BeginsQuery (lowered lower us) ∨ returning <:+: mid) := by
  obtain ⟨lead, mid, trail, htext, hlead, htrail, hspread⟩ := htext
  have hmap := hspread.map hlower.isSpace
  refine ⟨mid.map lower, hmap, ?_⟩
  rw [returnsRows_iff, shouldUseQuery_iff,
    normalized_eq hlower hus htext hlead htrail hspread, beginsQuery_iff hmap]
  rfl

theorem returnsRows_spaced (hlower : Lowers lower) (hus : ∀ u ∈ us, Piece isSpace u) {c : Char}
    (hc : isSpace c = true) : ReturnsRows lower (.ofList (spaced c us)) ↔
      BeginsQuery (lowered lower us) ∨ returning <:+: spaced c (lowered lower us) := by
  have hspread := spread_spaced hc us
  have htext : (String.ofList (spaced c us)).toList = [] ++ spaced c us ++ [] := by simp
  have hmap := hspread.map hlower.isSpace
  rw [returnsRows_iff, shouldUseQuery_iff,
    normalized_eq hlower hus htext nofun nofun hspread, beginsQuery_iff hmap, spaced_map,
    hlower.blank c hc]
  rfl

theorem laidOut_spaced {c : Char} (hc : isSpace c = true) (us : List (List Char)) :
    LaidOut isSpace us (String.ofList (spaced c us)).toList :=
  ⟨[], spaced c us, [], by simp, nofun, nofun, spread_spaced hc us⟩

theorem pieces_of_lowered (hlower : Lowers lower) (hus : ∀ u ∈ us, Piece isSpace u)
    (hsame : lowered lower vs = lowered lower us) : ∀ v ∈ vs, Piece isSpace v := by
  intro v hv
  have hmem : v.map lower ∈ lowered lower us := hsame ▸ List.mem_map_of_mem hv
  obtain ⟨u, hu, huv⟩ := List.mem_map.mp hmem
  rw [← piece_map hlower.isSpace, ← huv, piece_map hlower.isSpace]
  exact hus u hu

end

/-- For every SQL text, given by its tokens: neither blanks nor letters matter if it begins
with a word that tells that it returns rows, if the word `returning` stands between
spaces in one of its tokens, or if it does not even stand between tokens when these are
separated by spaces. Whatever the text, it is sent once. -/
theorem routing_ignores_layout_iff {lower : Char → Char} (hlower : Lowers lower)
    (us : List (List Char)) (hus : ∀ u ∈ us, Piece isSpace u) :
    IgnoresLayout lower us ↔ BeginsQuery (lowered lower us) ∨
      (∃ u ∈ lowered lower us, returning <:+: u) ∨
        ¬ returning <:+: spaced ' ' (lowered lower us) := by
  constructor
  · intro h
    by_contra hnot
    simp only [not_or, not_not] at hnot
    obtain ⟨hbegins, hwithin, hspaced⟩ := hnot
    have hsame := h.same us _ _ rfl (laidOut_spaced (by decide : isSpace ' ' = true) us)
      (laidOut_spaced (by decide : isSpace '\n' = true) us)
    rw [returnsRows_spaced hlower hus (by decide),
      returnsRows_spaced hlower hus (by decide)] at hsame
    have hlines := (hsame.mp (.inr hspaced)).resolve_left hbegins
    have hne : lowered lower us ≠ [] := by
      intro hnil
      rw [hnil] at hspaced
      revert hspaced
      decide
    rw [returning_eq] at hlines hwithin
    exact hwithin (infix_within returning_plain (by decide) (by decide) hlines hne)
  · intro h
    refine ⟨fun vs text text' hsame htext htext' => ?_, fun conn sql => ?_⟩
    · obtain ⟨mid, hspread, hrows⟩ := returnsRows_laidOut hlower hus htext
      obtain ⟨mid', hspread', hrows'⟩ :=
        returnsRows_laidOut hlower (pieces_of_lowered hlower hus hsame) htext'
      rw [hsame] at hspread' hrows'
      rw [hrows, hrows']
      rcases h with hbegins | ⟨u, hu, hwithin⟩ | hspaced
      · exact iff_of_true (.inl hbegins) (.inl hbegins)
      · exact iff_of_true (.inr (hwithin.trans (piece_of_spread hspread hu)))
          (.inr (hwithin.trans (piece_of_spread hspread' hu)))
      · rw [returning_eq] at hspaced ⊢
        have hne : "returning".toList ≠ [] := by decide
        have hnot {t : List Char} (ht : Spread isSpace (lowered lower us) t) :
            ¬ surrounded ' ' "returning".toList <:+: t :=
          fun hwithin => hspaced ((infix_spaced hne returning_plain ht).1 hwithin)
        simp only [hnot hspread, hnot hspread']
    · rw [sent_once]
      split <;> rfl

/-- `INSERT INTO t VALUES (1) RETURNING id`. -/
def insertReturning : List (List Char) :=
  ["INSERT", "INTO", "t", "VALUES", "(1)", "RETURNING", "id"].map String.toList

theorem insertReturning_pieces : ∀ u ∈ insertReturning, Piece isSpace u := by decide

theorem routing_ignores_layout_insert :
    IgnoresLayout Char.toLower insertReturning ↔
      BeginsQuery (lowered Char.toLower insertReturning) ∨
        (∃ u ∈ lowered Char.toLower insertReturning, returning <:+: u) ∨
          ¬ returning <:+: spaced ' ' (lowered Char.toLower insertReturning) :=
  routing_ignores_layout_iff lowers_toLower insertReturning insertReturning_pieces

/-- With a line break before `RETURNING` the rows are dropped. -/
theorem returning_on_new_line : ¬ ∀ us : List (List Char), (∀ u ∈ us, Piece isSpace u) →
    IgnoresLayout Char.toLower us := by
  intro h
  have hspace : isSpace ' ' = true := by decide
  have hline : isSpace '\n' = true := by decide
  have hsame := (h insertReturning insertReturning_pieces).same _ _ _ rfl
    (laidOut_spaced hspace insertReturning) (laidOut_spaced hline insertReturning)
  rw [returnsRows_spaced lowers_toLower insertReturning_pieces hspace,
    returnsRows_spaced lowers_toLower insertReturning_pieces hline] at hsame
  have hbegins : ∀ word ∈ queryWords, ¬ word.toList <+: "insert".toList := by decide
  rcases hsame.mp (.inr (by decide)) with ⟨u, hu, word, hword, hle⟩ | hlines
  · cases hu
    exact hbegins word hword hle
  · revert hlines
    decide

end LearnPg.Connection
