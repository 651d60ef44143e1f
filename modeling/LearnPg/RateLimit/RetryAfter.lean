import LearnPg.RateLimit.Burst

/-! The wait that a denied request is told. It is rounded down to whole seconds, so that a
client that waits as long as it was told may come too early. -/
namespace LearnPg.RateLimit

open LearnPg.Http

def Bucket.wait (b : Bucket ℚ) (now : Time) : ℚ := (1 - b.refilled now) / b.refillRate

def RetryEnough (wait : ℚ) : Prop := wait ≤ 1 ∨ (⌊wait⌋ : ℚ) = wait ∧ wait ≤ 9223372036

section

variable {b : Bucket ℚ} {now : Time} {w : ℚ}

theorem toInt_rationals (h : 0 ≤ w) : rationals.toInt w = ⌊w⌋ := by
  rw [Rat.floor_def']
  exact Int.tdiv_eq_ediv_of_nonneg (Rat.num_nonneg.mpr h)

theorem floor_nanoseconds (w : ℚ) : ⌊(⌊w * 1000000000⌋ : ℚ) / 1000000000⌋ = ⌊w⌋ := by
  have hfloor := Int.floor_div_natCast (w * 1000000000) 1000000000
  have hcast := Int.floor_div_natCast (⌊w * 1000000000⌋ : ℚ) 1000000000
  rw [Int.floor_intCast, ← hfloor] at hcast
  norm_num at hcast
  exact hcast

theorem take_denied (hR : 0 < b.refillRate) (hdenied : b.refilled now < 1) :
    (b.take rationals now).2 = (false, ⌊b.wait now * 1000000000⌋) := by
  have hwait : 0 ≤ b.wait now * 1000000000 := by
    have hdeficit : 0 ≤ 1 - b.refilled now := by linarith
    unfold Bucket.wait
    positivity
  unfold Bucket.take
  simp only [refilled_eq, if_neg (not_le.mpr hdenied), if_neg (not_le.mpr hR)]
  rw [← toInt_rationals hwait]
  rfl

theorem decision_denied (hR : 0 < b.refillRate) (hdenied : b.refilled now < 1) :
    Decision.of rationals (b.take rationals now).2.1 (b.take rationals now).2.2 =
      .denied (max 1 ⌊b.wait now⌋) := by
  have hwait : 0 ≤ b.wait now := div_nonneg (by linarith) hR.le
  have hseconds : 0 ≤ rationals.seconds ⌊b.wait now * 1000000000⌋ := by
    unfold rationals
    positivity
  rw [take_denied hR hdenied]
  unfold Decision.of
  simp only [Bool.false_eq_true, if_false, toInt_rationals hseconds]
  rw [show rationals.seconds ⌊b.wait now * 1000000000⌋ =
    (⌊b.wait now * 1000000000⌋ : ℚ) / 1000000000 from rfl, floor_nanoseconds, max_def]
  congr 1
  split <;> split <;> omega

theorem sub_later {s : Int} (hs : 0 ≤ s) :
    sub (now + s * 1000000000) now = min (2 ^ 63 - 1) (s * 1000000000) := by
  rw [sub, add_sub_cancel_left]
  exact max_eq_right (le_min (by norm_num) (le_trans (by norm_num) (Int.mul_nonneg hs
    (by norm_num))))

theorem seconds_later (s : Int) : rationals.seconds (min (2 ^ 63 - 1) (s * 1000000000)) =
    min ((2 ^ 63 - 1) / 1000000000) (s : ℚ) := by
  unfold rationals
  dsimp only
  rw [Int.cast_min, ← min_div_div_right (by norm_num)]
  norm_num

theorem refilled_later (hC : 1 ≤ b.capacity) (hR : 0 < b.refillRate)
    (hdenied : b.refilled now < 1) {s : Int} (hs : 0 ≤ s) :
    1 ≤ (b.take rationals now).1.refilled (now + s * 1000000000) ↔
      b.wait now ≤ min ((2 ^ 63 - 1) / 1000000000) (s : ℚ) := by
  have htokens : (b.take rationals now).1.tokens = b.refilled now := by
    rw [(take_eq b now).1]
    exact if_neg (not_le.mpr hdenied)
  obtain ⟨hcapacity, hrate, hlast⟩ := take_capacity b now
  rw [Bucket.refilled, hcapacity, hrate, hlast, htokens, sub_later hs, seconds_later, le_min_iff,
    and_iff_right hC, Bucket.wait, div_le_iff₀ hR, sub_le_iff_le_add']

theorem retryEnough_iff :
    RetryEnough w ↔ w ≤ min ((2 ^ 63 - 1) / 1000000000) ((max 1 ⌊w⌋ : Int) : ℚ) := by
  rw [le_min_iff, Int.cast_max, le_max_iff, Int.cast_one]
  constructor
  · rintro (hone | ⟨hwhole, hmost⟩)
    · exact ⟨hone.trans (by norm_num), .inl hone⟩
    · exact ⟨hmost.trans (by norm_num), .inr hwhole.ge⟩
  · rintro ⟨hmost, hone | hfloor⟩
    · exact .inl hone
    · have hwhole := le_antisymm (Int.floor_le w) hfloor
      have hlt : ⌊w⌋ < 9223372037 := by
        rw [Int.floor_lt]
        exact hmost.trans_lt (by norm_num)
      have hle : (⌊w⌋ : ℚ) ≤ (9223372036 : Int) := Int.cast_le.mpr (Int.le_of_lt_add_one hlt)
      rw [hwhole] at hle
      exact .inr ⟨hwhole, hle⟩

/-- The takes of a bucket at a denied time and as much later as is told. -/
theorem takes_retry (hC : 1 ≤ b.capacity) (hR : 0 < b.refillRate) (hdenied : b.refilled now < 1) :
    (b.takes rationals [now, now + max 1 ⌊b.wait now⌋ * 1000000000]).map
        (Take.decision rationals) = [.denied (max 1 ⌊b.wait now⌋), .admitted] ↔
      RetryEnough (b.wait now) := by
  have hs : 0 ≤ max 1 ⌊b.wait now⌋ := le_max_of_le_left (by norm_num)
  have hlater : ((b.take rationals now).1.take rationals
      (now + max 1 ⌊b.wait now⌋ * 1000000000)).2.1 = true ↔ RetryEnough (b.wait now) := by
    rw [(take_eq _ _).2, decide_eq_true_iff, refilled_later hC hR hdenied hs, retryEnough_iff]
  simp only [Bucket.takes, List.map_cons, List.map_nil, List.cons.injEq, and_true]
  rw [decision_admitted, ← hlater]
  exact and_iff_right (decision_denied hR hdenied)

end

section

variable {l : Limiter ℚ} {k : BucketKey} {e e' : Timed} {es : List Timed} {s : Int}

theorem filter_retry (he : l.counts k e = true) (hes : ∀ x ∈ es, l.counts k x = false)
    (he' : l.counts k e' = true) : (e :: es ++ [e']).filter (l.counts k) = [e, e'] := by
  have hnone : es.filter (l.counts k) = [] := by
    simpa using hes
  simp [he, he', hnone]

theorem limit_bucket (he : l.counts k e = true) : (l.limit rationals e).2 =
    .of rationals ((l.bucket k [e]).take rationals e.now).2.1
      ((l.bucket k [e]).take rationals e.now).2.2 := by
  have hanswers : l.answers rationals k [e] = _ := answers_takes k [e]
  simpa [Limiter.answers, Limiter.run, he, Bucket.takes, Take.decision] using hanswers

theorem denied_iff (he : l.counts k e = true) (hR : 0 < (l.bucket k [e]).refillRate) :
    (l.limit rationals e).2 = .denied s ↔ (l.bucket k [e]).refilled e.now < 1 ∧
      max 1 ⌊(l.bucket k [e]).wait e.now⌋ = s := by
  rw [limit_bucket he]
  by_cases hdenied : (l.bucket k [e]).refilled e.now < 1
  · rw [decision_denied hR hdenied]
    simp [hdenied]
  · have hok := (take_eq (l.bucket k [e]) e.now).2
    rw [decide_eq_true (not_lt.mp hdenied)] at hok
    rw [hok]
    simp [Decision.of, hdenied]

theorem retry_answers (he : l.counts k e = true) (hes : ∀ x ∈ es, l.counts k x = false)
    (he' : l.counts k e' = true) (hC : 1 ≤ (l.bucket k [e]).capacity)
    (hR : 0 < (l.bucket k [e]).refillRate) (hdenied : (l.limit rationals e).2 = .denied s)
    (hlater : e'.now = e.now + s * 1000000000) :
    l.answers rationals k (e :: es ++ [e']) = [.denied s, .admitted] ↔
      RetryEnough ((l.bucket k [e]).wait e.now) := by
  obtain ⟨hrefilled, rfl⟩ := (denied_iff he hR).mp hdenied
  rw [answers_takes, filter_retry he hes he']
  simp only [List.map_cons, List.map_nil, hlater]
  exact takes_retry hC hR hrefilled

/-- Whatever tokens a client's bucket has left, the next request it makes as many seconds later
as it was told to wait is admitted if no wait was needed beyond the shortest that is told, or if
the seconds to wait were whole ones. -/
theorem retry_enough_iff (l : Limiter ℚ) (k : BucketKey) {e e' : Timed} {es : List Timed} {s : Int}
    (he : l.counts k e = true) (hes : ∀ x ∈ es, l.counts k x = false)
    (he' : l.counts k e' = true) (hC : 1 ≤ (l.bucket k [e]).capacity)
    (hR : 0 < (l.bucket k [e]).refillRate) (hdenied : (l.limit rationals e).2 = .denied s)
    (hlater : e'.now = e.now + s * 1000000000) :
    l.answers rationals k (e :: es ++ [e']) = [.denied s, .admitted] ↔
      (l.bucket k [e]).wait e.now ≤ 1 ∨
        (⌊(l.bucket k [e]).wait e.now⌋ : ℚ) = (l.bucket k [e]).wait e.now ∧
          (l.bucket k [e]).wait e.now ≤ 9223372036 :=
  retry_answers he hes he' hC hR hdenied hlater

end

def client : Request := apiRequest "1.1.1.1:80"

def slow : Limiter ℚ := new ⟨1, 2 / 3, none, none⟩

def used : Limiter ℚ := (slow.limit rationals ⟨client, 0, 0⟩).1

theorem retry_enough_slow :
    used.answers rationals ⟨"1.1.1.1", "api"⟩
        [⟨client, 500000000, 0⟩, ⟨apiRequest "2.2.2.2:80", 700000000, 0⟩,
          ⟨client, 1500000000, 0⟩] = [.denied 1, .admitted] ↔
      (used.bucket ⟨"1.1.1.1", "api"⟩ [⟨client, 500000000, 0⟩]).wait 500000000 ≤ 1 ∨
        (⌊(used.bucket ⟨"1.1.1.1", "api"⟩ [⟨client, 500000000, 0⟩]).wait 500000000⌋ : ℚ) =
            (used.bucket ⟨"1.1.1.1", "api"⟩ [⟨client, 500000000, 0⟩]).wait 500000000 ∧
          (used.bucket ⟨"1.1.1.1", "api"⟩ [⟨client, 500000000, 0⟩]).wait 500000000 ≤
            9223372036 :=
  @retry_enough_iff used ⟨"1.1.1.1", "api"⟩ ⟨client, 500000000, 0⟩ ⟨client, 1500000000, 0⟩
    [⟨apiRequest "2.2.2.2:80", 700000000, 0⟩] 1 (by decide) (by decide) (by decide)
    (by decide +kernel) (by decide +kernel) (by decide +kernel) (by decide)

/-- A client told to wait one second would have to wait one and a half. -/
theorem retry_denied :
    ¬ ∀ (l : Limiter ℚ) (k : BucketKey) (e e' : Timed) (es : List Timed) (s : Int),
      l.counts k e = true → (∀ x ∈ es, l.counts k x = false) → l.counts k e' = true →
      1 ≤ (l.bucket k [e]).capacity → 0 < (l.bucket k [e]).refillRate →
      (l.limit rationals e).2 = .denied s → e'.now = e.now + s * 1000000000 →
      l.answers rationals k (e :: es ++ [e']) = [.denied s, .admitted] := by
  intro h
  have hretry := h used ⟨"1.1.1.1", "api"⟩ ⟨client, 0, 0⟩ ⟨client, 1000000000, 0⟩ [] 1
    (by decide) (by decide) (by decide) (by decide +kernel) (by decide +kernel)
    (by decide +kernel) (by decide)
  revert hretry
  decide +kernel

end LearnPg.RateLimit
