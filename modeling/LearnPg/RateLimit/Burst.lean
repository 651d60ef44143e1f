import LearnPg.RateLimit.Limiter
import Mathlib.Algebra.Order.BigOperators.Group.List
import Mathlib.Algebra.Order.Floor.Semiring
import Mathlib.Data.Rat.Floor

/-! The burst that a client is promised: as many requests as its bucket holds tokens. The
time at which the bucket is made is read after the time of the first request, so what
is refilled first may be negative. -/
namespace LearnPg.RateLimit

def refills (rate : ℚ) (last : Time) : List Time → List ℚ
  | [] => []
  | now :: times => rationals.seconds (sub now last) * rate :: refills rate now times

/-- The tokens and the refills suffice for the first takes, however many of them, and from any
take on, which leaves one token less than the capacity at most, for those that follow it. -/
structure Suffices (capacity tokens : ℚ) (refills : List ℚ) : Prop where
  first : ∀ p, p <+: refills → p ≠ [] → (p.length : ℚ) ≤ tokens + p.sum
  later : ∀ p, p <:+: refills.tail → (p.length : ℚ) + 1 ≤ capacity + p.sum

/-- The first requests under a key are admitted, as many as the capacity allows. -/
def Limiter.HonoursBurst (l : Limiter ℚ) (k : BucketKey) (es : List Timed) : Prop :=
  ∀ d ∈ (l.answers rationals k es).take ⌊l.capacity⌋₊, d = .admitted

def Limiter.refills (l : Limiter ℚ) (k : BucketKey) (es : List Timed) : List ℚ :=
  RateLimit.refills l.refillRate (l.bucket k (es.filter (l.counts k))).last
    (((es.filter (l.counts k)).map (·.now)).take ⌊l.capacity⌋₊)

section

variable {b : Bucket ℚ} {C T R r : ℚ} {rs : List ℚ} {times : List Time}

theorem infix_iff_tail {α : Type} {p l : List α} : p <:+: l ↔ p <+: l ∨ p <:+: l.tail := by
  cases l with
  | nil => simp
  | cons a l => exact List.infix_cons_iff

theorem suffices_cons (hC : 1 ≤ C) : Suffices C T (r :: rs) ↔
    1 ≤ min C (T + r) ∧ Suffices C (min C (T + r) - 1) rs := by
  constructor
  · rintro ⟨hfirst, hlater⟩
    have hone := hfirst [r] (by simp) (by simp)
    simp only [List.length_singleton, Nat.cast_one, List.sum_singleton] at hone
    refine ⟨le_min hC hone, fun p hp _ => ?_, fun p hp => hlater p (infix_iff_tail.mpr (.inr hp))⟩
    have hall := hfirst (r :: p) (List.cons_prefix_cons.mpr ⟨rfl, hp⟩) (by simp)
    have hcapped := hlater p hp.isInfix
    rw [List.length_cons, Nat.cast_succ, List.sum_cons] at hall
    rw [sub_add, le_sub_comm]
    rcases min_choice C (T + r) with hmin | hmin <;> rw [hmin] <;> linarith
  · rintro ⟨hone, hfirst, hlater⟩
    obtain ⟨-, hone⟩ := le_min_iff.mp hone
    have hnext (p : List ℚ) (hp : p <+: rs) : (p.length : ℚ) + 1 ≤ C + p.sum ∧
        (p.length : ℚ) + 1 ≤ T + r + p.sum := by
      by_cases hnil : p = []
      · rw [hnil]
        constructor <;> simp <;> linarith
      · have hp' := hfirst p hp hnil
        have hleft := min_le_left C (T + r)
        have hright := min_le_right C (T + r)
        constructor <;> linarith
    constructor
    · intro p hp hne
      obtain rfl | ⟨q, rfl, hq⟩ := List.prefix_cons_iff.mp hp
      · exact absurd rfl hne
      · rw [List.length_cons, Nat.cast_succ, List.sum_cons]
        linarith [(hnext q hq).2]
    · intro p hp
      obtain hp | hp := infix_iff_tail.mp hp
      · exact (hnext p hp).1
      · exact hlater p hp

theorem takes_admitted_iff (hC : 1 ≤ b.capacity) (times : List Time) :
    (∀ x ∈ b.takes rationals times, x.admitted = true) ↔
      Suffices b.capacity b.tokens (refills b.refillRate b.last times) := by
  induction times generalizing b with
  | nil =>
    refine iff_of_true nofun ⟨fun p hp hne => absurd (List.prefix_nil.mp hp) hne, fun p hp => ?_⟩
    rw [List.infix_nil.mp hp]
    simpa using hC
  | cons now times ih =>
    obtain ⟨hcapacity, hrate, hlast⟩ := take_capacity b now
    have hrest := @ih (b.take rationals now).1 (by rw [hcapacity]; exact hC)
    rw [hcapacity, hrate, hlast] at hrest
    rw [refills, suffices_cons hC]
    simp only [Bucket.takes, List.forall_mem_cons, hrest]
    change (b.take rationals now).2.1 = true ∧ _ ↔ 1 ≤ b.refilled now ∧ _
    by_cases hone : 1 ≤ b.refilled now
    · have hadmitted : (b.take rationals now).2.1 = true := by
        rw [(take_eq b now).2, decide_eq_true hone]
      have htokens : (b.take rationals now).1.tokens = b.refilled now - 1 := by
        linarith [(take_admitted hadmitted).2]
      rw [htokens]
      exact and_congr_left' (iff_of_true hadmitted hone)
    · refine iff_of_false (fun h => hone ?_) (fun h => hone h.1)
      have hadmitted := h.1
      rw [(take_eq b now).2, decide_eq_true_iff] at hadmitted
      exact hadmitted

theorem length_refills (R : ℚ) (last : Time) (times : List Time) :
    (refills R last times).length = times.length := by
  induction times generalizing last with
  | nil => rfl
  | cons now times ih => rw [refills, List.length_cons, List.length_cons, ih]

theorem sub_eq {t u : Time} (hlow : -2 ^ 63 ≤ t - u) (hhigh : t - u ≤ 2 ^ 63 - 1) :
    sub t u = t - u := by
  rw [sub, min_eq_right hhigh, max_eq_right hlow]

theorem le_sub {t u d : Time} (hd : d ≤ t - u) (hhigh : d ≤ 2 ^ 63 - 1) : d ≤ sub t u :=
  le_max_of_le_right (le_min hhigh hd)

theorem sub_nonneg_of_le {t u : Time} (h : u ≤ t) : 0 ≤ sub t u :=
  le_sub (Int.sub_nonneg_of_le h) (by norm_num)

theorem seconds_mono {t u : Time} (h : t ≤ u) : rationals.seconds t ≤ rationals.seconds u := by
  unfold rationals
  dsimp only
  gcongr

theorem refills_nonneg (hR : 0 ≤ R) {last : Time} (h : (last :: times).Pairwise (· ≤ ·)) :
    ∀ r ∈ refills R last times, 0 ≤ r := by
  induction times generalizing last with
  | nil => exact nofun
  | cons now times ih =>
    obtain ⟨hlast, hrest⟩ := List.pairwise_cons.mp h
    have hnow := hlast now List.mem_cons_self
    intro r hr
    obtain rfl | hr := List.mem_cons.mp hr
    · have hseconds := seconds_mono (sub_nonneg_of_le hnow)
      refine mul_nonneg (le_trans ?_ hseconds) hR
      simp [rationals]
    · exact ih hrest r hr

section

variable {first created : Time}

theorem gap_le_sum (hR : 0 ≤ R) (hclock : (first :: created :: times).Pairwise (· ≤ ·))
    (hgap : created - first < 2 ^ 63) {p : List ℚ} (hp : p <+: refills R first times)
    (hne : p ≠ []) : R * ((created - first) / 1000000000) ≤ p.sum := by
  cases times with
  | nil => exact absurd (List.prefix_nil.mp hp) hne
  | cons second times =>
    obtain ⟨hfirst, hrest⟩ := List.pairwise_cons.mp hclock
    obtain ⟨hcreated, hlater⟩ := List.pairwise_cons.mp hrest
    obtain rfl | ⟨q, rfl, hq⟩ := List.prefix_cons_iff.mp hp
    · exact absurd rfl hne
    · have hsecond : created - first ≤ sub second first :=
        le_sub (Int.sub_le_sub_right (hcreated second List.mem_cons_self) first)
          (Int.le_sub_one_of_lt hgap)
      have hseconds := mul_le_mul_of_nonneg_right (seconds_mono hsecond) hR
      have hsum : 0 ≤ q.sum :=
        List.sum_nonneg fun r hr => refills_nonneg hR hlater r (hq.subset hr)
      have hcast : rationals.seconds (created - first) = (created - first) / 1000000000 := by
        simp [rationals]
      rw [hcast] at hseconds
      rw [List.sum_cons]
      linarith

theorem suffices_ordered_iff (hR : 0 ≤ R) (hclock : (first :: created :: times).Pairwise (· ≤ ·))
    (hgap : created - first < 2 ^ 63) (hcount : ((first :: times).length : ℚ) ≤ C) :
    Suffices C C (refills R created (first :: times)) ↔
      R * ((created - first) / 1000000000) ≤ C - 1 := by
  obtain ⟨hfirst, hrest⟩ := List.pairwise_cons.mp hclock
  have hcreated := hfirst created List.mem_cons_self
  have hordered : (first :: times).Pairwise (· ≤ ·) :=
    hclock.sublist (.cons_cons first (.cons created (.refl times)))
  have hsub : sub first created = first - created := by
    apply sub_eq <;> linarith
  have hloss : rationals.seconds (sub first created) * R =
      -(R * ((created - first) / 1000000000)) := by
    rw [hsub]
    simp only [rationals, Int.cast_sub]
    ring
  rw [List.length_cons, Nat.cast_succ] at hcount
  rw [refills, hloss]
  constructor
  · rintro ⟨hstart, -⟩
    have hone := hstart [-(R * ((created - first) / 1000000000))] (by simp) (by simp)
    simp only [List.length_singleton, Nat.cast_one, List.sum_singleton] at hone
    linarith
  · intro hsmall
    constructor
    · intro p hp hne
      obtain rfl | ⟨q, rfl, hq⟩ := List.prefix_cons_iff.mp hp
      · exact absurd rfl hne
      · rw [List.length_cons, Nat.cast_succ, List.sum_cons]
        by_cases hnil : q = []
        · rw [hnil]
          simp only [List.length_nil, Nat.cast_zero, List.sum_nil]
          linarith
        · have hsum := gap_le_sum hR hclock hgap hq hnil
          have hlength := hq.length_le
          rw [length_refills] at hlength
          have hcast : (q.length : ℚ) ≤ times.length := by exact_mod_cast hlength
          linarith
    · intro p hp
      have hsum : 0 ≤ p.sum :=
        List.sum_nonneg fun r hr => refills_nonneg hR hordered r (hp.subset hr)
      have hlength := hp.length_le
      rw [List.tail_cons, length_refills] at hlength
      have hcast : (p.length : ℚ) ≤ times.length := by exact_mod_cast hlength
      linarith

end

theorem takes_take (f : Floats ℚ) (b : Bucket ℚ) (n : Nat) (times : List Time) :
    (b.takes f times).take n = b.takes f (times.take n) := by
  induction times generalizing b n with
  | nil => simp [Bucket.takes]
  | cons now times ih =>
    cases n with
    | zero => simp [Bucket.takes]
    | succ n => simp [Bucket.takes, ih]

theorem decision_admitted (x : Take ℚ) : x.decision rationals = .admitted ↔ x.admitted = true := by
  unfold Take.decision Decision.of
  cases x.admitted <;> simp

theorem honoursBurst_iff (opts : Options ℚ) (hC : 1 ≤ (new opts).capacity) (k : BucketKey)
    (es : List Timed) : (new opts).HonoursBurst k es ↔
      Suffices (new opts).capacity (new opts).capacity ((new opts).refills k es) := by
  unfold Limiter.HonoursBurst Limiter.refills
  rw [answers_takes, ← List.map_take, takes_take]
  simp only [List.forall_mem_map, decision_admitted]
  exact takes_admitted_iff (b := (new opts).bucket k (es.filter ((new opts).counts k))) hC _

theorem new_rate_pos (opts : Options ℚ) : 0 < (new opts).refillRate := by
  unfold new
  dsimp only
  split
  · norm_num
  next h => exact not_le.mp h

theorem suffices_new_iff (opts : Options ℚ) (hC : 1 ≤ (new opts).capacity) (k : BucketKey)
    {es rest : List Timed} {e : Timed} (hes : es.filter ((new opts).counts k) = e :: rest)
    (hclock : (e.now :: e.created :: rest.map (·.now)).Pairwise (· ≤ ·))
    (hgap : e.created - e.now < 2 ^ 63) :
    Suffices (new opts).capacity (new opts).capacity ((new opts).refills k es) ↔
      (new opts).refillRate * ((e.created - e.now) / 1000000000) ≤ (new opts).capacity - 1 := by
  obtain ⟨n, hn⟩ : ∃ n, ⌊(new opts).capacity⌋₊ = n + 1 :=
    Nat.exists_eq_add_one.mpr (Nat.floor_pos.mpr hC)
  have hclock' : (e.now :: e.created :: (rest.map (·.now)).take n).Pairwise (· ≤ ·) :=
    hclock.sublist (.cons_cons _ (.cons_cons _ (List.take_sublist _ _)))
  have hcount : ((e.now :: (rest.map (·.now)).take n).length : ℚ) ≤ (new opts).capacity := by
    rw [List.length_cons]
    apply (Nat.le_floor_iff (by linarith)).mp
    rw [hn]
    exact Nat.succ_le_succ (List.length_take_le _ _)
  unfold Limiter.refills
  rw [hes, hn]
  exact suffices_ordered_iff (new_rate_pos opts).le hclock' hgap hcount

/-- In exact arithmetic, and however the requests and their readings of the clock are ordered,
the burst is honoured exactly if what is refilled suffices. For requests one after the other
it does exactly if the bucket would be refilled with no more than its capacity less one token
between the reading of the first request and its own creation. -/
theorem burst_honoured_iff (opts : Options ℚ) (hC : 1 ≤ (new opts).capacity) (k : BucketKey)
    (es : List Timed) :
    ((new opts).HonoursBurst k es ↔
      Suffices (new opts).capacity (new opts).capacity ((new opts).refills k es)) ∧
    ∀ e rest, es.filter ((new opts).counts k) = e :: rest →
      (e.now :: e.created :: rest.map (·.now)).Pairwise (· ≤ ·) → e.created - e.now < 2 ^ 63 →
      ((new opts).HonoursBurst k es ↔
        (new opts).refillRate * ((e.created - e.now) / 1000000000) ≤ (new opts).capacity - 1) := by
  have hiff := honoursBurst_iff opts hC k es
  refine ⟨hiff, fun e rest hes hclock hgap => ?_⟩
  rw [hiff]
  exact suffices_new_iff opts hC k hes hclock hgap

end

def late : List Timed := [⟨apiRequest "1.1.1.1:80", 0, 1⟩, ⟨apiRequest "1.1.1.1:80", 1, 1⟩]

theorem burst_honoured_two :
    ((new ⟨2, 1, none, none⟩).HonoursBurst ⟨"1.1.1.1", "api"⟩ late ↔
      Suffices 2 2 ((new ⟨2, 1, none, none⟩).refills ⟨"1.1.1.1", "api"⟩ late)) ∧
    ∀ e rest, late.filter ((new (F := ℚ) ⟨2, 1, none, none⟩).counts ⟨"1.1.1.1", "api"⟩) =
        e :: rest →
      (e.now :: e.created :: rest.map (·.now)).Pairwise (· ≤ ·) → e.created - e.now < 2 ^ 63 →
      ((new ⟨2, 1, none, none⟩).HonoursBurst ⟨"1.1.1.1", "api"⟩ late ↔
        1 * (((e.created : ℚ) - e.now) / 1000000000) ≤ 2 - 1) :=
  burst_honoured_iff ⟨2, 1, none, none⟩ (by decide) ⟨"1.1.1.1", "api"⟩ late

/-- A bucket of one token, made a nanosecond after the first request came, denies it. -/
theorem first_request_denied :
    ¬ ∀ (opts : Options ℚ) (k : BucketKey) (es : List Timed), 1 ≤ (new opts).capacity →
      (es.flatMap fun e => [e.now, e.created]).Pairwise (· ≤ ·) → (new opts).HonoursBurst k es := by
  intro h
  have hburst := h ⟨1, 1, none, none⟩ ⟨"1.1.1.1", "api"⟩ late (by decide) (by decide)
  have hiff := suffices_new_iff ⟨1, 1, none, none⟩ (by decide) ⟨"1.1.1.1", "api"⟩
    (show late.filter _ = ⟨apiRequest "1.1.1.1:80", 0, 1⟩ :: _ from rfl) (by decide) (by decide)
  rw [honoursBurst_iff _ (by decide), hiff] at hburst
  norm_num [new] at hburst

end LearnPg.RateLimit
