import Mathlib.Algebra.Order.Field.Rat
import Mathlib.Data.List.Basic
import Mathlib.Tactic.GCongr
import Mathlib.Tactic.Linarith
import Mathlib.Tactic.Ring

/-! A token bucket, over any numbers. With rational ones it admits no more takes than
it holds and is refilled with, in every window of time. -/
namespace LearnPg.RateLimit

/-- `time.Time` and `time.Duration`, in nanoseconds. -/
abbrev Time := Int

/-- `t.Sub(u)`, which saturates. -/
def sub (t u : Time) : Time := max (-2 ^ 63) (min (2 ^ 63 - 1) (t - u))

/-- What the code does with its `float64` beside arithmetic: `seconds` is
`Duration.Seconds`, `second` is `float64(time.Second)`, and `toInt` is a conversion to an
integer type. -/
structure Floats (F : Type) where
  seconds : Time → F
  second : F
  toInt : F → Int

structure Bucket (F : Type) where
  tokens : F
  capacity : F
  refillRate : F
  last : Time
  deriving DecidableEq

section

variable {F : Type} [Add F] [Sub F] [Mul F] [Div F] [LT F] [DecidableLT F] [LE F] [DecidableLE F]
  [OfNat F 0] [OfNat F 1]

/-- The bucket afterwards, and what is returned. -/
def Bucket.take (floats : Floats F) (b : Bucket F) (now : Time) : Bucket F × Bool × Time :=
  let elapsed := floats.seconds (sub now b.last)
  let tokens := b.tokens + elapsed * b.refillRate
  let tokens := if b.capacity < tokens then b.capacity else tokens
  let b := { b with tokens, last := now }
  if 1 ≤ b.tokens then ({ b with tokens := b.tokens - 1 }, true, 0)
  else
    let deficit := 1 - b.tokens
    if b.refillRate ≤ 0 then (b, false, 1000000000)
    else (b, false, floats.toInt (deficit / b.refillRate * floats.second))

structure Take (F : Type) where
  time : Time
  admitted : Bool
  retryAfter : Time
  after : Bucket F

def Bucket.takes (floats : Floats F) (b : Bucket F) : List Time → List (Take F)
  | [] => []
  | now :: times =>
    let result := b.take floats now
    ⟨now, result.2.1, result.2.2, result.1⟩ :: result.1.takes floats times

end

/-- Exact arithmetic. -/
def rationals : Floats ℚ := ⟨fun d => d / 1000000000, 1000000000, fun q => q.num.tdiv q.den⟩

def Take.within (start length : ℚ) (x : Take ℚ) : Bool :=
  x.admitted && (start ≤ x.time / 1000000000 && x.time / 1000000000 ≤ start + length)

section

variable {b : Bucket ℚ} {now : Time} {times : List Time}

theorem seconds_sub_le {t u : Time} (h : u ≤ t) :
    rationals.seconds (sub t u) ≤ (t - u) / 1000000000 := by
  have hle : sub t u ≤ t - u := by
    have hnonneg : 0 ≤ t - u := Int.sub_nonneg_of_le h
    exact max_le (le_trans (by norm_num) hnonneg) (min_le_right _ _)
  unfold rationals
  dsimp only
  gcongr
  exact_mod_cast hle

/-- The refill, before a token is taken. -/
def Bucket.refilled (b : Bucket ℚ) (now : Time) : ℚ :=
  min b.capacity (b.tokens + rationals.seconds (sub now b.last) * b.refillRate)

theorem refilled_eq (b : Bucket ℚ) (now : Time) :
    (if b.capacity < b.tokens + rationals.seconds (sub now b.last) * b.refillRate then
      b.capacity else b.tokens + rationals.seconds (sub now b.last) * b.refillRate) =
      b.refilled now := by
  unfold Bucket.refilled
  rw [min_def]
  split <;> split <;> linarith

theorem take_eq (b : Bucket ℚ) (now : Time) :
    (b.take rationals now).1 = { b with
      tokens := if 1 ≤ b.refilled now then b.refilled now - 1 else b.refilled now
      last := now } ∧
    (b.take rationals now).2.1 = decide (1 ≤ b.refilled now) := by
  unfold Bucket.take
  simp only [refilled_eq]
  by_cases hone : 1 ≤ b.refilled now
  · simp [hone]
  · simp only [hone, if_false]
    split <;> simp

theorem refilled_le_capacity (b : Bucket ℚ) (now : Time) : b.refilled now ≤ b.capacity :=
  min_le_left _ _

theorem refilled_le (hR : 0 ≤ b.refillRate) (hlast : b.last ≤ now) :
    b.refilled now ≤ b.tokens + b.refillRate * ((now - b.last) / 1000000000) := by
  have hseconds := mul_le_mul_of_nonneg_right (seconds_sub_le hlast) hR
  have hmin : b.refilled now ≤ b.tokens + _ := min_le_right _ _
  linarith

theorem take_capacity (b : Bucket ℚ) (now : Time) :
    (b.take rationals now).1.capacity = b.capacity ∧
      (b.take rationals now).1.refillRate = b.refillRate ∧ (b.take rationals now).1.last = now := by
  rw [(take_eq b now).1]
  exact ⟨rfl, rfl, rfl⟩

theorem take_tokens_le (b : Bucket ℚ) (now : Time) :
    (b.take rationals now).1.tokens ≤ b.refilled now := by
  rw [(take_eq b now).1]
  dsimp only
  split <;> linarith

theorem take_admitted (h : (b.take rationals now).2.1 = true) :
    0 ≤ (b.take rationals now).1.tokens ∧
      (b.take rationals now).1.tokens + 1 = b.refilled now := by
  rw [(take_eq b now).2, decide_eq_true_iff] at h
  rw [(take_eq b now).1]
  dsimp only
  rw [if_pos h]
  constructor <;> linarith

theorem takes_tokens (b : Bucket ℚ) (times : List Time) : ∀ x ∈ b.takes rationals times,
    x.after.tokens ≤ b.capacity ∧ (x.admitted = true → 0 ≤ x.after.tokens) := by
  induction times generalizing b with
  | nil => exact nofun
  | cons now times ih =>
    intro x hx
    obtain rfl | hx := List.mem_cons.mp hx
    · have htokens := (take_tokens_le b now).trans (refilled_le_capacity b now)
      exact ⟨htokens, fun h => (take_admitted h).1⟩
    · have hrest := ih _ x hx
      rw [(take_capacity b now).1] at hrest
      exact hrest

theorem within_iff {start length : ℚ} {x : Take ℚ} : x.within start length = true ↔
    x.admitted = true ∧ start ≤ x.time / 1000000000 ∧ x.time / 1000000000 ≤ start + length := by
  simp [Take.within]

theorem count_until (hR : 0 ≤ b.refillRate) (htimes : (b.last :: times).Pairwise (· ≤ ·))
    (start length : ℚ) :
    ((b.takes rationals times).countP (Take.within start length) : ℚ) ≤
      max 0 (b.tokens + b.refillRate * (start + length - b.last / 1000000000)) := by
  induction times generalizing b with
  | nil => simp [Bucket.takes]
  | cons now times ih =>
    obtain ⟨hlast, hrest⟩ := List.pairwise_cons.mp htimes
    have hnow := hlast now List.mem_cons_self
    obtain ⟨-, hrate, hafter⟩ := take_capacity b now
    have hcount := @ih (b.take rationals now).1 (by rw [hrate]; exact hR)
      (by rw [hafter]; exact hrest)
    rw [hrate, hafter] at hcount
    have hrefill := refilled_le hR hnow
    have hsplit : b.refillRate * (start + length - b.last / 1000000000) =
        b.refillRate * ((now - b.last) / 1000000000) +
          b.refillRate * (start + length - now / 1000000000) := by ring
    simp only [Bucket.takes, List.countP_cons, Nat.cast_add]
    by_cases hin : Take.within start length
        ⟨now, (b.take rationals now).2.1, (b.take rationals now).2.2, (b.take rationals now).1⟩
    · obtain ⟨hadmitted, -, hend⟩ := within_iff.mp hin
      obtain ⟨hnonneg, hone⟩ := take_admitted hadmitted
      have hleft : 0 ≤ b.refillRate * (start + length - now / 1000000000) :=
        mul_nonneg hR (sub_nonneg.mpr hend)
      rw [max_eq_right (by linarith)] at hcount
      rw [if_pos hin, Nat.cast_one, le_max_iff]
      right
      linarith
    · rw [if_neg hin, Nat.cast_zero, add_zero]
      apply hcount.trans (max_le_max le_rfl _)
      have htokens := take_tokens_le b now
      linarith

/-- A window starts with a full bucket at most. -/
theorem count_within (hC : 0 ≤ b.capacity) (hR : 0 ≤ b.refillRate)
    (htimes : times.Pairwise (· ≤ ·)) {length : ℚ} (hlength : 0 ≤ length) (start : ℚ) :
    ((b.takes rationals times).countP (Take.within start length) : ℚ) ≤
      b.capacity + b.refillRate * length := by
  have hwindow : 0 ≤ b.refillRate * length := mul_nonneg hR hlength
  induction times generalizing b with
  | nil =>
    simp only [Bucket.takes, List.countP_nil, Nat.cast_zero]
    linarith
  | cons now times ih =>
    obtain ⟨-, hrest⟩ := List.pairwise_cons.mp htimes
    obtain ⟨hcapacity, hrate, hafter⟩ := take_capacity b now
    simp only [Bucket.takes, List.countP_cons, Nat.cast_add]
    by_cases hbefore : (now : ℚ) / 1000000000 < start
    · have hcount := @ih (b.take rationals now).1 (hcapacity ▸ hC) (hrate ▸ hR) hrest
        (hrate ▸ hwindow)
      rw [hcapacity, hrate] at hcount
      have hout : ¬ Take.within start length
          ⟨now, (b.take rationals now).2.1, (b.take rationals now).2.2,
            (b.take rationals now).1⟩ := by
        rw [within_iff]
        exact fun hin => absurd hbefore (not_lt.mpr hin.2.1)
      rw [if_neg hout, Nat.cast_zero, add_zero]
      exact hcount
    · have hcount := count_until (b := (b.take rationals now).1) (hrate ▸ hR) (hafter ▸ htimes)
        start length
      rw [hrate, hafter] at hcount
      have hleft : b.refillRate * (start + length - now / 1000000000) ≤ b.refillRate * length :=
        mul_le_mul_of_nonneg_left (by linarith) hR
      have hfull := refilled_le_capacity b now
      split
      next hin =>
        obtain ⟨hadmitted, -, hend⟩ := within_iff.mp hin
        obtain ⟨hnonneg, hone⟩ := take_admitted hadmitted
        have hmore : 0 ≤ b.refillRate * (start + length - now / 1000000000) :=
          mul_nonneg hR (sub_nonneg.mpr hend)
        rw [max_eq_right (by linarith)] at hcount
        rw [Nat.cast_one]
        linarith
      next =>
        rw [Nat.cast_zero, add_zero]
        apply hcount.trans (max_le (by linarith) _)
        have htokens := take_tokens_le b now
        linarith

/-- A bucket that starts full never has more tokens than its capacity, is left with none
too few by a take that it admits, and admits in any window no more takes than its capacity
and what is refilled in a time of that length. -/
theorem bucket_bound {C R : ℚ} (hC : 0 < C) (hR : 0 < R) (last : Time) {times : List Time}
    (htimes : times.Pairwise (· ≤ ·)) :
    (∀ x ∈ Bucket.takes rationals ⟨C, C, R, last⟩ times,
      x.after.tokens ≤ C ∧ (x.admitted = true → 0 ≤ x.after.tokens)) ∧
    ∀ start T : ℚ, 0 ≤ T →
      ((Bucket.takes rationals ⟨C, C, R, last⟩ times).countP (Take.within start T) : ℚ) ≤
        C + R * T :=
  ⟨takes_tokens _ times, fun start _ hT => count_within hC.le hR.le htimes hT start⟩

theorem bucket_bound_burst :
    (∀ x ∈ Bucket.takes rationals ⟨2, 2, 1 / 2, 0⟩ [0, 0, 0, 2000000000],
      x.after.tokens ≤ 2 ∧ (x.admitted = true → 0 ≤ x.after.tokens)) ∧
    ∀ start T : ℚ, 0 ≤ T →
      ((Bucket.takes rationals ⟨2, 2, 1 / 2, 0⟩ [0, 0, 0, 2000000000]).countP
        (Take.within start T) : ℚ) ≤ 2 + 1 / 2 * T :=
  bucket_bound (by norm_num) (by norm_num) 0 (by decide)

end

end LearnPg.RateLimit
