import Mathlib.Data.Finset.Card
import Mathlib.Data.Finset.Dedup
import Mathlib.Data.List.Infix
import Mathlib.Data.List.Nodup

/-! Handing out a growing log by polling. Each poll sees a stretch of the log whose
ends only move forward. The poller hands out what it has not seen, the newest
`limit` records only, and when it remembers more than `capacity` keys it forgets
all but those just handed out. -/
namespace LearnPg.Basis.Polling

section
variable {α κ : Type} [DecidableEq κ] (key : α → κ)

def takeNew (seen : Finset κ) : List α → List α × Finset κ
  | [] => ([], seen)
  | x :: rest =>
      if key x ∈ seen then takeNew seen rest
      else
        let found := takeNew (insert (key x) seen) rest
        (x :: found.1, found.2)

def newest (limit : Nat) (found : List α) : List α :=
  if 0 < limit ∧ limit < found.length then found.drop (found.length - limit) else found

variable (limit capacity : Nat)

def poll (seen : Finset κ) (window : List α) : List α × Finset κ :=
  let found := takeNew key seen window
  let batch := newest limit found.1
  (batch, if capacity < found.2.card then (batch.map key).toFinset else found.2)

/-- Everything the polls hand out. -/
def deliver (seen : Finset κ) : List (List α) → List α
  | [] => []
  | window :: rest =>
      (poll key limit capacity seen window).1 ++
        deliver (poll key limit capacity seen window).2 rest

variable [DecidableEq α]

/-- At this poll the records not present earlier fill the limit, or they stay
within it and every older record of the window is remembered. -/
def Ready (seen : Finset κ) (earlier window : List α) : Prop :=
  ((∀ x ∈ window, x ∈ earlier → key x ∈ seen) ∧
      (limit = 0 ∨ (window.filter (· ∉ earlier)).length ≤ limit)) ∨
    (0 < limit ∧ (window.filter (· ∉ earlier)).length = limit)

/-- The same at every poll, each in the state it finds. -/
def AllReady (seen : Finset κ) (earlier : List α) : List (List α) → Prop
  | [] => True
  | window :: rest =>
      Ready key limit seen earlier window ∧
        AllReady (poll key limit capacity seen window).2 (earlier ++ window) rest

/-- Every record of a window is delivered once, in the order of the log. -/
structure ExactlyOnce (log : List α) (windows : List (List α)) (delivered : List α) : Prop where
  inOrder : delivered.Sublist log
  once : ∀ window ∈ windows, ∀ x ∈ window, delivered.count x = 1

end

/-! Stretches of the log. -/

section
variable {α : Type} {log : List α} {a b c d : Nat}

def stretch (log : List α) (p : Nat × Nat) : List α := (log.drop p.1).take (p.2 - p.1)

def Forward (polls : List (Nat × Nat)) : Prop :=
  polls.Pairwise fun p q => p.1 ≤ q.1 ∧ p.2 ≤ q.2

theorem stretch_split (h : b ≤ d) :
    stretch log (c, d) = stretch log (c, b) ++ stretch log (max c b, d) := by
  have hlength : d - c = (b - c) + (d - max c b) := by omega
  have hdrop : c + (b - c) = max c b := by omega
  simp only [stretch, hlength, List.take_add, List.drop_drop, hdrop]

theorem stretch_suffix (h : a ≤ c) : stretch log (c, b) <:+ stretch log (a, b) := by
  have hdrop : stretch log (c, b) = (stretch log (a, b)).drop (c - a) := by
    simp only [stretch, List.drop_take, List.drop_drop]
    congr 1
    · omega
    · congr 1
      omega
  rw [hdrop]
  exact List.drop_suffix _ _

theorem stretch_sublist (log : List α) (p : Nat × Nat) : (stretch log p).Sublist log :=
  (List.take_sublist _ _).trans (List.drop_sublist _ _)

theorem mem_take_of_mem_stretch {x : α} (h : x ∈ stretch log (c, b)) : x ∈ log.take b := by
  have : stretch log (c, b) = (log.take b).drop c := by
    rw [List.drop_take]
    rfl
  exact List.mem_of_mem_drop (this ▸ h)

theorem mem_drop_of_mem_stretch {x : α} (h : x ∈ stretch log (c, b)) : x ∈ log.drop c :=
  List.mem_of_mem_take h

theorem stretch_append_sublist (hc : b ≤ c) (hd : b ≤ d) :
    (stretch log (c, d) ++ log.drop d).Sublist (log.drop b) := by
  by_cases h : c ≤ d
  · have hdrop : log.drop d = (log.drop c).drop (d - c) := by
      rw [List.drop_drop]
      congr 1
      omega
    rw [stretch, hdrop, List.take_append_drop]
    exact List.drop_sublist_drop_left log hc
  · have hempty : stretch log (c, d) = [] := by
      rw [stretch, Nat.sub_eq_zero_of_le (by simp only; omega), List.take_zero]
    rw [hempty, List.nil_append]
    exact List.drop_sublist_drop_left log hd

theorem not_mem_drop_of_mem_take {x : α} (hnodup : log.Nodup) (hx : x ∈ log.take b) (h : b ≤ c) :
    x ∉ log.drop c :=
  fun hdrop => List.disjoint_take_drop hnodup h hx hdrop

theorem mem_stretch_of_mem_drop {x : α} (hnodup : log.Nodup) (hx : x ∈ stretch log (b, d))
    (hdrop : x ∈ log.drop c) : x ∈ stretch log (max c b, d) := by
  by_cases hcd : c ≤ d
  · rw [stretch_split hcd] at hx
    rcases List.mem_append.mp hx with hx | hx
    · exact absurd hdrop (not_mem_drop_of_mem_take hnodup (mem_take_of_mem_stretch hx) le_rfl)
    · rwa [Nat.max_comm]
  · exact absurd hdrop
      (not_mem_drop_of_mem_take hnodup (mem_take_of_mem_stretch hx) (Nat.le_of_not_le hcd))

theorem order_of_nodup [DecidableEq α] {x y : α} (hnodup : log.Nodup) (hxy : [x, y].Sublist log)
    (hyx : [y, x].Sublist log) : False := by
  have hsorted : log.Pairwise fun u v => log.idxOf u < log.idxOf v := by
    rw [List.pairwise_iff_getElem]
    intro i j hi hj hij
    rwa [hnodup.idxOf_getElem, hnodup.idxOf_getElem]
  have hlt := (List.pairwise_pair.mp (hsorted.sublist hxy))
  have hgt := (List.pairwise_pair.mp (hsorted.sublist hyx))
  omega

theorem sublist_of_avoids {xs ys l : List α} (h : l.Sublist (xs ++ ys)) (havoid : ∀ x ∈ l, x ∉ xs) :
    l.Sublist ys := by
  obtain ⟨front, back, rfl, hfront, hback⟩ := List.sublist_append_iff.mp h
  cases front with
  | nil => exact hback
  | cons x front =>
    exact absurd (hfront.subset List.mem_cons_self) (havoid x (by simp))

end

/-! One poll. -/

section
variable {α κ : Type} [DecidableEq κ] {key : α → κ} {limit : Nat}

theorem takeNew_fst (seen : Finset κ) {window : List α} (h : (window.map key).Nodup) :
    (takeNew key seen window).1 = window.filter (key · ∉ seen) := by
  induction window generalizing seen with
  | nil => rfl
  | cons x rest ih =>
    obtain ⟨hx, hrest⟩ := List.nodup_cons.mp h
    rw [takeNew]
    split
    next hseen => rw [ih seen hrest, List.filter_cons_of_neg (by simpa using hseen)]
    next hseen =>
      have hother : rest.filter (key · ∉ insert (key x) seen) = rest.filter (key · ∉ seen) := by
        refine List.filter_congr fun y hy => ?_
        have hne : key y ≠ key x := fun heq => hx (List.mem_map.mpr ⟨y, hy, heq⟩)
        simp [hne]
      rw [List.filter_cons_of_pos (by simpa using hseen)]
      simp only [ih _ hrest, hother]

theorem takeNew_snd (seen : Finset κ) (window : List α) :
    (takeNew key seen window).2 = seen ∪ (window.map key).toFinset := by
  induction window generalizing seen with
  | nil => simp [takeNew]
  | cons x rest ih =>
    rw [takeNew]
    split
    next hseen =>
      rw [ih seen]
      ext k
      simp only [List.map_cons, List.toFinset_cons, Finset.mem_union, Finset.mem_insert]
      grind
    next hseen =>
      rw [ih]
      ext k
      simp only [List.map_cons, List.toFinset_cons, Finset.mem_union, Finset.mem_insert]
      grind

theorem takeNew_subset {seen : Finset κ} {window : List α} {x : α}
    (h : x ∈ (takeNew key seen window).1) : x ∈ window := by
  induction window generalizing seen with
  | nil => exact h
  | cons y rest ih =>
    rw [takeNew] at h
    split at h
    · exact List.mem_cons_of_mem y (ih h)
    · rcases List.mem_cons.mp h with rfl | h
      · exact List.mem_cons_self
      · exact List.mem_cons_of_mem y (ih h)

theorem newest_suffix (limit : Nat) (found : List α) : newest limit found <:+ found := by
  unfold newest
  split
  · exact List.drop_suffix _ _
  · exact List.suffix_rfl

theorem newest_ne_nil {found : List α} (h : found ≠ []) : newest limit found ≠ [] := by
  unfold newest
  split
  next hlimit =>
    rw [ne_eq, List.drop_eq_nil_iff]
    omega
  next => exact h

/-- The limit leaves just the fresh records, with the forgotten ones in front. -/
theorem newest_eq_iff (forgotten fresh : List α) :
    newest limit (forgotten ++ fresh) = fresh ↔
      (forgotten = [] ∧ (limit = 0 ∨ fresh.length ≤ limit)) ∨
        (0 < limit ∧ fresh.length = limit) := by
  unfold newest
  have hlength : (forgotten ++ fresh).length = forgotten.length + fresh.length :=
    List.length_append
  split
  next hlimit =>
    constructor
    · intro h
      have := congrArg List.length h
      rw [List.length_drop] at this
      right
      omega
    · rintro (⟨rfl, hle⟩ | ⟨_, heq⟩)
      · simp at hlimit
        omega
      · rw [show (forgotten ++ fresh).length - limit = forgotten.length by omega, List.drop_left]
  next hlimit =>
    constructor
    · intro h
      have hnil : forgotten = [] := List.append_left_eq_self.mp h
      subst hnil
      simp at hlimit
      left
      exact ⟨rfl, by omega⟩
    · rintro (⟨rfl, -⟩ | ⟨hpos, heq⟩)
      · rfl
      · have hnil : forgotten = [] := by
          rw [← List.length_eq_zero_iff]
          omega
        rw [hnil, List.nil_append]

end

/-! All polls. -/

section
variable {α κ : Type} {key : α → κ} {limit capacity : Nat} {log : List α} {a b c d : Nat}
  {seen : Finset κ} {earlier : List α}

variable (key log a b seen earlier) in
/-- The state between two polls, the last of which ended at `(a, b)`. -/
structure Known : Prop where
  window : ∀ x ∈ stretch log (a, b), x ∈ earlier
  before : ∀ x ∈ earlier, x ∈ log.take b
  keys : ∀ k ∈ seen, ∃ x ∈ earlier, key x = k

theorem Known.init : Known key log 0 0 ∅ [] := by
  constructor <;> simp [stretch]

theorem stretch_nodup (hkeys : (log.map key).Nodup) (p : Nat × Nat) :
    ((stretch log p).map key).Nodup :=
  hkeys.sublist ((stretch_sublist log p).map key)

theorem Known.not_seen (h : Known key log a b seen earlier) (hkeys : (log.map key).Nodup)
    {x : α} (hx : x ∈ log.drop b) : x ∉ earlier ∧ key x ∉ seen := by
  have hdisjoint : ∀ y ∈ log.take b, key y ≠ key x := by
    intro y hy heq
    have hsplit := hkeys
    rw [← List.take_append_drop b log, List.map_append, List.nodup_append] at hsplit
    exact hsplit.2.2 _ (List.mem_map_of_mem hy) _ (List.mem_map_of_mem hx) heq
  refine ⟨fun hmem => hdisjoint x (h.before x hmem) rfl, fun hmem => ?_⟩
  obtain ⟨y, hy, heq⟩ := h.keys _ hmem
  exact hdisjoint y (h.before y hy) heq

theorem mem_drop_of_mem_fresh {x : α} (hx : x ∈ stretch log (max c b, d)) : x ∈ log.drop b :=
  (List.drop_sublist_drop_left log (Nat.le_max_right c b)).subset (mem_drop_of_mem_stretch hx)

theorem Known.mem_window (h : Known key log a b seen earlier) (hc : a ≤ c) (hd : b ≤ d) {x : α}
    (hx : x ∈ stretch log (c, d)) : x ∈ earlier ∨ x ∈ stretch log (max c b, d) := by
  rw [stretch_split hd] at hx
  rcases List.mem_append.mp hx with hx | hx
  · exact .inl (h.window x ((stretch_suffix hc).subset hx))
  · exact .inr hx

section
variable [DecidableEq α]

theorem Known.fresh (h : Known key log a b seen earlier) (hkeys : (log.map key).Nodup)
    (hc : a ≤ c) (hd : b ≤ d) :
    (stretch log (c, d)).filter (· ∉ earlier) = stretch log (max c b, d) := by
  have hold : (stretch log (c, b)).filter (· ∉ earlier) = [] := by
    rw [List.filter_eq_nil_iff]
    intro x hx
    simpa using h.window x ((stretch_suffix hc).subset hx)
  have hfresh : (stretch log (max c b, d)).filter (· ∉ earlier) = stretch log (max c b, d) := by
    rw [List.filter_eq_self]
    intro x hx
    simpa using (h.not_seen hkeys (mem_drop_of_mem_fresh hx)).1
  rw [stretch_split hd, List.filter_append, hold, hfresh, List.nil_append]

end

variable [DecidableEq κ]

/-- A poll finds the forgotten records of its window and the fresh ones. -/
theorem Known.found (h : Known key log a b seen earlier) (hkeys : (log.map key).Nodup)
    (hd : b ≤ d) :
    (takeNew key seen (stretch log (c, d))).1 =
      (stretch log (c, b)).filter (key · ∉ seen) ++ stretch log (max c b, d) := by
  have hfresh : (stretch log (max c b, d)).filter (key · ∉ seen) = stretch log (max c b, d) := by
    rw [List.filter_eq_self]
    intro x hx
    simpa using (h.not_seen hkeys (mem_drop_of_mem_fresh hx)).2
  rw [takeNew_fst seen (stretch_nodup hkeys _), stretch_split hd, List.filter_append, hfresh]

variable (limit capacity) in
theorem Known.poll_fst (h : Known key log a b seen earlier) (hkeys : (log.map key).Nodup)
    (hd : b ≤ d) :
    (poll key limit capacity seen (stretch log (c, d))).1 =
      newest limit ((stretch log (c, b)).filter (key · ∉ seen) ++ stretch log (max c b, d)) := by
  rw [← h.found hkeys hd]
  rfl

theorem Known.next (h : Known key log a b seen earlier) (hd : b ≤ d) :
    Known key log c d (poll key limit capacity seen (stretch log (c, d))).2
      (earlier ++ stretch log (c, d)) := by
  constructor
  · exact fun x hx => List.mem_append_right _ hx
  · intro x hx
    rcases List.mem_append.mp hx with hx | hx
    · exact (List.take_sublist_take_left hd).subset (h.before x hx)
    · exact mem_take_of_mem_stretch hx
  · have hseen : ∀ k ∈ (takeNew key seen (stretch log (c, d))).2,
        ∃ x ∈ earlier ++ stretch log (c, d), key x = k := by
      intro k hk
      rw [takeNew_snd, Finset.mem_union, List.mem_toFinset, List.mem_map] at hk
      rcases hk with hk | ⟨x, hx, rfl⟩
      · obtain ⟨x, hx, rfl⟩ := h.keys k hk
        exact ⟨x, List.mem_append_left _ hx, rfl⟩
      · exact ⟨x, List.mem_append_right _ hx, rfl⟩
    have hbatch : ∀ x ∈ (poll key limit capacity seen (stretch log (c, d))).1,
        x ∈ stretch log (c, d) := fun x hx => takeNew_subset ((newest_suffix limit _).subset hx)
    intro k hk
    rw [poll] at hk
    dsimp only at hk
    split at hk
    · obtain ⟨x, hx, rfl⟩ := List.mem_map.mp (List.mem_toFinset.mp hk)
      exact ⟨x, List.mem_append_right _ (hbatch x hx), rfl⟩
    · exact hseen k hk

theorem deliver_subset {windows : List (List α)} {x : α}
    (h : x ∈ deliver key limit capacity seen windows) : ∃ window ∈ windows, x ∈ window := by
  induction windows generalizing seen with
  | nil => cases h
  | cons window rest ih =>
    rw [deliver] at h
    rcases List.mem_append.mp h with h | h
    · exact ⟨window, List.mem_cons_self, takeNew_subset ((newest_suffix limit _).subset h)⟩
    · obtain ⟨w, hw, hx⟩ := ih h
      exact ⟨w, List.mem_cons_of_mem window hw, hx⟩

variable [DecidableEq α]

variable (limit capacity) in
/-- A poll is ready exactly if it hands out just the fresh records. -/
theorem Known.ready_iff (h : Known key log a b seen earlier) (hkeys : (log.map key).Nodup)
    (hc : a ≤ c) (hd : b ≤ d) :
    Ready key limit seen earlier (stretch log (c, d)) ↔
      (poll key limit capacity seen (stretch log (c, d))).1 = stretch log (max c b, d) := by
  have hremembered : (∀ x ∈ stretch log (c, d), x ∈ earlier → key x ∈ seen) ↔
      (stretch log (c, b)).filter (key · ∉ seen) = [] := by
    rw [List.filter_eq_nil_iff]
    constructor
    · intro hall x hx
      have hwindow : x ∈ stretch log (c, d) := by
        rw [stretch_split hd]
        exact List.mem_append_left _ hx
      simpa using hall x hwindow (h.window x ((stretch_suffix hc).subset hx))
    · intro hall x hx hearlier
      rw [stretch_split hd] at hx
      rcases List.mem_append.mp hx with hx | hx
      · simpa using hall x hx
      · exact absurd hearlier (h.not_seen hkeys (mem_drop_of_mem_fresh hx)).1
  rw [Ready, hremembered, h.fresh hkeys hc hd, h.poll_fst limit capacity hkeys hd, newest_eq_iff]

/-- If every poll is ready, what they hand out is in order and complete. -/
theorem deliver_of_allReady (hkeys : (log.map key).Nodup) (polls : List (Nat × Nat))
    (h : Known key log a b seen earlier) (hforward : Forward ((a, b) :: polls))
    (hready : AllReady key limit capacity seen earlier (polls.map (stretch log))) :
    (deliver key limit capacity seen (polls.map (stretch log))).Sublist (log.drop b) ∧
      ∀ p ∈ polls, ∀ x ∈ stretch log p,
        x ∈ earlier ∨ x ∈ deliver key limit capacity seen (polls.map (stretch log)) := by
  induction polls generalizing a b seen earlier with
  | nil => simp [deliver]
  | cons p polls ih =>
    obtain ⟨hfirst, hrest⟩ := List.pairwise_cons.mp hforward
    obtain ⟨c, d⟩ := p
    obtain ⟨hc, hd⟩ : a ≤ c ∧ b ≤ d := hfirst (c, d) List.mem_cons_self
    obtain ⟨hpoll, hnext⟩ := hready
    replace hpoll := (h.ready_iff limit capacity hkeys hc hd).mp hpoll
    obtain ⟨hsub, hall⟩ := ih (h.next hd) hrest hnext
    rw [List.map_cons, deliver, hpoll]
    refine ⟨?_, ?_⟩
    · have hfresh : (stretch log (max c b, d) ++ log.drop d).Sublist (log.drop b) :=
        stretch_append_sublist (Nat.le_max_right c b) hd
      exact ((List.Sublist.refl _).append hsub).trans hfresh
    · intro q hq x hx
      rw [List.mem_append]
      rcases List.mem_cons.mp hq with rfl | hq
      · exact (h.mem_window hc hd hx).imp_right .inl
      · rcases hall q hq x hx with hx | hx
        · rcases List.mem_append.mp hx with hx | hx
          · exact .inl hx
          · exact (h.mem_window hc hd hx).imp_right .inl
        · exact .inr (.inr hx)

theorem newest_eq_of_sublist {forgotten fresh later : List α} (hnodup : log.Nodup)
    (hfresh : fresh.Sublist log) (hforgotten : ∀ x ∈ forgotten, x ∉ log.drop b)
    (hsub : (newest limit (forgotten ++ fresh) ++ later).Sublist (log.drop b))
    (hall : ∀ x ∈ fresh, x ∈ newest limit (forgotten ++ fresh) ++ later) :
    newest limit (forgotten ++ fresh) = fresh := by
  have hsuffix : newest limit (forgotten ++ fresh) <:+ fresh := by
    rcases List.suffix_or_suffix_of_suffix (newest_suffix limit (forgotten ++ fresh))
      (List.suffix_append forgotten fresh) with hsuffix | ⟨old, hold⟩
    · exact hsuffix
    · obtain ⟨front, hfront⟩ := newest_suffix limit (forgotten ++ fresh)
      rw [← hold, ← List.append_assoc, List.append_cancel_right_eq] at hfront
      cases old with
      | nil => exact hold ▸ List.suffix_rfl
      | cons x old =>
        have hx : x ∈ log.drop b := hsub.subset (List.mem_append_left _ (by simp [← hold]))
        exact absurd hx (hforgotten x (hfront ▸ List.mem_append_right _ List.mem_cons_self))
  obtain ⟨missed, hmissed⟩ := hsuffix
  cases missed with
  | nil => exact hmissed
  | cons x missed =>
    have hx : x ∈ fresh := by
      rw [← hmissed]
      exact List.mem_append_left _ List.mem_cons_self
    have hfirst : x ∉ newest limit (forgotten ++ fresh) := by
      have := hnodup.sublist hfresh
      rw [← hmissed, List.cons_append, List.nodup_cons] at this
      exact fun hmem => this.1 (List.mem_append_right _ hmem)
    have hlater : x ∈ later := (List.mem_append.mp (hall x hx)).resolve_left hfirst
    have hsome : newest limit (forgotten ++ fresh) ≠ [] := by
      apply newest_ne_nil
      intro hnil
      simp [(List.append_eq_nil_iff.mp hnil).2] at hx
    obtain ⟨y, hy⟩ := List.exists_mem_of_ne_nil _ hsome
    have hyx : [y, x].Sublist log :=
      (((List.singleton_sublist.mpr hy).append (List.singleton_sublist.mpr hlater)).trans
        hsub).trans (List.drop_sublist _ _)
    have hxy : [x, y].Sublist fresh := by
      rw [← hmissed]
      exact (List.singleton_sublist.mpr List.mem_cons_self).append (List.singleton_sublist.mpr hy)
    exact (order_of_nodup hnodup (hxy.trans hfresh) hyx).elim

theorem allReady_of_deliver (hkeys : (log.map key).Nodup) (polls : List (Nat × Nat))
    (h : Known key log a b seen earlier) (hforward : Forward ((a, b) :: polls))
    (hsub : (deliver key limit capacity seen (polls.map (stretch log))).Sublist (log.drop b))
    (hall : ∀ p ∈ polls, ∀ x ∈ stretch log p,
      x ∈ earlier ∨ x ∈ deliver key limit capacity seen (polls.map (stretch log))) :
    AllReady key limit capacity seen earlier (polls.map (stretch log)) := by
  induction polls generalizing a b seen earlier with
  | nil => trivial
  | cons p polls ih =>
    obtain ⟨hfirst, hrest⟩ := List.pairwise_cons.mp hforward
    obtain ⟨c, d⟩ := p
    obtain ⟨hc, hd⟩ : a ≤ c ∧ b ≤ d := hfirst (c, d) List.mem_cons_self
    have hnodup := hkeys.of_map
    rw [List.map_cons, deliver] at hsub hall
    have hpoll := h.poll_fst (c := c) limit capacity hkeys hd
    rw [hpoll] at hsub hall
    have hfresh : newest limit ((stretch log (c, b)).filter (key · ∉ seen) ++
        stretch log (max c b, d)) = stretch log (max c b, d) := by
      refine newest_eq_of_sublist hnodup (stretch_sublist log _) ?_ hsub ?_
      · intro x hx hbehind
        have hold : x ∈ stretch log (a, b) :=
          (stretch_suffix hc).subset (List.mem_of_mem_filter hx)
        exact (h.not_seen hkeys hbehind).1 (h.window x hold)
      · intro x hx
        have hwindow : x ∈ stretch log (c, d) := by
          rw [stretch_split hd]
          exact List.mem_append_right _ hx
        exact (hall (c, d) List.mem_cons_self x hwindow).resolve_left
          (h.not_seen hkeys (mem_drop_of_mem_fresh hx)).1
    refine ⟨(h.ready_iff limit capacity hkeys hc hd).mpr (hpoll.trans hfresh), ?_⟩
    rw [hfresh] at hsub hall
    refine ih (h.next hd) hrest ?_ ?_
    · have hsplit : stretch log (b, d) ++ log.drop d = log.drop b := by
        rw [stretch, show log.drop d = (log.drop b).drop (d - b) by
          rw [List.drop_drop, Nat.add_sub_cancel' hd], List.take_append_drop]
      refine sublist_of_avoids (hsplit ▸ (List.sublist_append_right _ _).trans hsub) ?_
      intro x hx hbetween
      obtain ⟨window, hwindow, hmem⟩ := deliver_subset hx
      obtain ⟨q, hq, rfl⟩ := List.mem_map.mp hwindow
      have hcq : c ≤ q.1 := ((List.pairwise_cons.mp hrest).1 q hq).1
      have hbehind : x ∈ log.drop c :=
        (List.drop_sublist_drop_left log hcq).subset (mem_drop_of_mem_stretch hmem)
      have hthis := mem_stretch_of_mem_drop hnodup hbetween hbehind
      have := hnodup.sublist (hsub.trans (List.drop_sublist _ _))
      exact (List.nodup_append.mp this).2.2 x hthis x hx rfl
    · intro q hq x hx
      rcases hall q (List.mem_cons_of_mem _ hq) x hx with hx | hx
      · exact .inl (List.mem_append_left _ hx)
      · rcases List.mem_append.mp hx with hx | hx
        · left
          rw [stretch_split hd]
          simp [hx]
        · exact .inr hx

/-- Over a log with distinct keys the polls deliver every record they see exactly
once and in order if and only if every poll is ready. -/
theorem exactlyOnce_iff (hkeys : (log.map key).Nodup) (polls : List (Nat × Nat))
    (hforward : Forward polls) :
    ExactlyOnce log (polls.map (stretch log))
        (deliver key limit capacity ∅ (polls.map (stretch log))) ↔
      AllReady key limit capacity ∅ [] (polls.map (stretch log)) := by
  have hstart : Forward ((0, 0) :: polls) :=
    List.pairwise_cons.mpr ⟨fun p _ => ⟨Nat.zero_le _, Nat.zero_le _⟩, hforward⟩
  constructor
  · rintro ⟨horder, honce⟩
    refine allReady_of_deliver hkeys polls Known.init hstart horder fun p hp x hx => .inr ?_
    have := honce _ (List.mem_map_of_mem hp) x hx
    exact List.count_pos_iff.mp (by omega)
  · intro hready
    obtain ⟨horder, hall⟩ := deliver_of_allReady hkeys polls Known.init hstart hready
    refine ⟨horder, fun window hwindow x hx => ?_⟩
    obtain ⟨p, hp, rfl⟩ := List.mem_map.mp hwindow
    have hmem := (hall p hp x hx).resolve_left List.not_mem_nil
    exact List.count_eq_one_of_mem (hkeys.of_map.sublist horder) hmem

end
end LearnPg.Basis.Polling
