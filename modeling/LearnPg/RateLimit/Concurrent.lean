import LearnPg.Basis.Runs
import LearnPg.RateLimit.Limiter

/-! The limiter among requests that are handled at the same time. A request reads the clock, then
finds or makes its bucket and then takes from it, and others may come between; what it has read is
old by then. -/
namespace LearnPg.RateLimit

open LearnPg.Basis.Maps LearnPg.Basis.Runs LearnPg.Http

inductive Handler where
  | idle
  | timed (k : BucketKey) (now : Time)
  | found (k : BucketKey) (now : Time)
  | answered (decision : Decision)

/-- `admitted` records how many requests were let through under each key. -/
structure Serving (κ : Type) where
  clock : Time
  limiter : Limiter ℚ
  handlers : κ → Handler
  admitted : BucketKey → Nat

inductive Label (κ : Type) where
  | passes (now : Time)
  | arrives (c : κ) (r : Request)
  | getsOrCreates (c : κ)
  | takes (c : κ)

section

variable {κ : Type} [DecidableEq κ]

def Serving.set (s : Serving κ) (c : κ) (h : Handler) : Serving κ :=
  { s with handlers := Function.update s.handlers c h }

def Serving.take (s : Serving κ) (c : κ) (k : BucketKey) (now : Time) (b : Bucket ℚ) : Serving κ :=
  let (b, ok, retry) := b.take rationals now
  { s with
    limiter := { s.limiter with buckets := s.limiter.buckets.insert k b }
    handlers := Function.update s.handlers c (.answered (.of rationals ok retry))
    admitted := if ok then Function.update s.admitted k (s.admitted k + 1) else s.admitted }

def Serving.step (s : Serving κ) : Label κ → Option (Serving κ)
  | .passes now => if s.clock ≤ now then some { s with clock := now } else none
  | .arrives c r =>
    match s.handlers c with
    | .idle => some (s.set c
        (if s.limiter.exempt r then .answered .exempt else .timed (s.limiter.keyOf r) s.clock))
    | _ => none
  | .getsOrCreates c =>
    match s.handlers c with
    | .timed k now =>
      some { s.set c (.found k now) with limiter := (s.limiter.getOrCreate k s.clock).1 }
    | _ => none
  | .takes c =>
    match s.handlers c with
    | .found k now => (s.limiter.buckets.lookup k).map (s.take c k now)
    | _ => none

def server (opts : Options ℚ) (start : Time) : Machine (Serving κ) (Label κ) where
  init := ⟨start, new opts, fun _ => .idle, fun _ => 0⟩
  step := Serving.step

/-- What the handler has read of the clock and will take with. -/
def Handler.reading : Handler → Option (BucketKey × Time)
  | .timed k now | .found k now => some (k, now)
  | .idle | .answered _ => none

/-! What a step can do. -/

inductive Step (s : Serving κ) : Label κ → Serving κ → Prop where
  | passes (now : Time) (hnow : s.clock ≤ now) : Step s (.passes now) { s with clock := now }
  | arrives (c : κ) (r : Request) (h : Handler)
      (hreading : ∀ k now, h.reading = some (k, now) → now = s.clock) :
      Step s (.arrives c r) (s.set c h)
  | gets (c : κ) (k : BucketKey) (now : Time) (hhandler : s.handlers c = .timed k now) :
      Step s (.getsOrCreates c)
        { s.set c (.found k now) with limiter := (s.limiter.getOrCreate k s.clock).1 }
  | takes (c : κ) (k : BucketKey) (now : Time) (b : Bucket ℚ)
      (hhandler : s.handlers c = .found k now) (hb : s.limiter.buckets.lookup k = some b) :
      Step s (.takes c) (s.take c k now b)

variable {s t : Serving κ} {l : Label κ} {c d : κ} {k : BucketKey} {now start since : Time}
  {opts : Options ℚ}

theorem step_cases (h : s.step l = some t) : Step s l t := by
  cases l with
  | passes now =>
    obtain ⟨hnow, heq⟩ := Option.ite_none_right_eq_some.mp h
    cases heq
    exact .passes now hnow
  | arrives c r =>
    simp only [Serving.step] at h
    split at h
    · cases h
      refine .arrives c r _ fun k now hreading => ?_
      split at hreading
      · cases hreading
      · cases hreading
        rfl
    · cases h
  | getsOrCreates c =>
    simp only [Serving.step] at h
    split at h
    next k now hhandler =>
      cases h
      exact .gets c k now hhandler
    next => cases h
  | takes c =>
    simp only [Serving.step] at h
    split at h
    next k now hhandler =>
      obtain ⟨b, hb, rfl⟩ := Option.map_eq_some_iff.mp h
      exact .takes c k now b hhandler hb
    next => cases h

theorem reading_update {h : Handler} {P : BucketKey → Time → Prop}
    (hall : ∀ d k now, (s.handlers d).reading = some (k, now) → P k now)
    (hnew : ∀ k now, h.reading = some (k, now) → P k now) :
    ∀ d k now, (Function.update s.handlers c h d).reading = some (k, now) → P k now := by
  intro d k now hd
  by_cases hdc : d = c
  · subst hdc
    rw [Function.update_self] at hd
    exact hnew k now hd
  · rw [Function.update_of_ne hdc] at hd
    exact hall d k now hd

theorem lookup_getOrCreate (l : Limiter ℚ) (k k' : BucketKey) (created : Time) :
    (l.getOrCreate k created).1.buckets.lookup k' =
      (l.buckets.lookup k').or (if k' = k then some (l.newBucket created) else none) := by
  unfold Limiter.getOrCreate
  cases hk : l.buckets.lookup k with
  | some b =>
    by_cases hkk : k' = k
    · subst hkk
      simp [hk]
    · simp [hkk]
  | none =>
    by_cases hkk : k' = k
    · subst hkk
      simp [hk]
    · simp [hkk, Finmap.lookup_insert_of_ne]

theorem limits_getOrCreate (l : Limiter ℚ) (k : BucketKey) (created : Time) :
    (l.getOrCreate k created).1.capacity = l.capacity ∧
      (l.getOrCreate k created).1.refillRate = l.refillRate := by
  unfold Limiter.getOrCreate
  cases l.buckets.lookup k <;> exact ⟨rfl, rfl⟩

/-! One take, in whatever order the readings come. -/

def Bucket.level (b : Bucket ℚ) : ℚ := b.tokens - b.refillRate * (b.last / 1000000000)

theorem seconds_sub_le_of {t u : Time} (h : -2 ^ 63 ≤ t - u) :
    rationals.seconds (sub t u) ≤ (t - u) / 1000000000 := by
  have hle : sub t u ≤ t - u := max_le h (min_le_right _ _)
  unfold rationals
  dsimp only
  gcongr
  exact_mod_cast hle

/-- A take adds nothing to the level, and leaves no more than a full bucket has at that time; what
it admits it pays for. -/
theorem take_level {b : Bucket ℚ} (hR : 0 ≤ b.refillRate) (hlate : -2 ^ 63 ≤ now - b.last) :
    let result := b.take rationals now
    result.1.level + (if result.2.1 then 1 else 0) ≤ b.level ∧
      result.1.level + (if result.2.1 then 1 else 0) ≤
        b.capacity - b.refillRate * (now / 1000000000) := by
  have hpaid : (b.take rationals now).1.tokens + (if (b.take rationals now).2.1 then 1 else 0) =
      b.refilled now := by
    obtain ⟨hafter, hok⟩ := take_eq b now
    rw [hafter, hok]
    by_cases hone : 1 ≤ b.refilled now
    · simp [hone]
    · simp [hone]
  obtain ⟨-, hrate, hlast⟩ := take_capacity b now
  have hseconds := mul_le_mul_of_nonneg_right (seconds_sub_le_of hlate) hR
  have hrefill : b.refilled now ≤
      b.tokens + (now - b.last) / 1000000000 * b.refillRate :=
    (min_le_right _ _).trans (by linarith)
  have hfull := refilled_le_capacity b now
  unfold Bucket.level
  dsimp only
  rw [hrate, hlast]
  constructor
  · linarith
  · linarith

end

/-! All that ever holds. -/

section

variable {κ : Type} [DecidableEq κ] {s t u : Serving κ} {l : Label κ} {labels : List (Label κ)}
  {k : BucketKey} {start since : Time} {opts : Options ℚ}

/-- Every time that is kept is one that the clock has shown. -/
structure Timely (opts : Options ℚ) (start : Time) (s : Serving κ) : Prop where
  limits : s.limiter.capacity = (new opts).capacity ∧ s.limiter.refillRate = (new opts).refillRate
  started : start ≤ s.clock
  readings : ∀ c k now, (s.handlers c).reading = some (k, now) → start ≤ now ∧ now ≤ s.clock
  buckets : ∀ k b, s.limiter.buckets.lookup k = some b → b.capacity = (new opts).capacity ∧
    b.refillRate = (new opts).refillRate ∧ b.tokens ≤ b.capacity ∧ start ≤ b.last ∧ b.last ≤ s.clock

theorem Timely.step (h : Timely opts start s) (hstep : Step s l t) : Timely opts start t := by
  obtain ⟨hlimits, hstarted, hreadings, hbuckets⟩ := h
  cases hstep with
  | passes now hnow =>
    refine ⟨hlimits, hstarted.trans hnow, fun c k r hr => ?_, fun k b hb => ?_⟩
    · obtain ⟨hlow, hhigh⟩ := hreadings c k r hr
      exact ⟨hlow, hhigh.trans hnow⟩
    · obtain ⟨hC, hR, htokens, hlow, hhigh⟩ := hbuckets k b hb
      exact ⟨hC, hR, htokens, hlow, hhigh.trans hnow⟩
  | arrives c r handler hreading =>
    refine ⟨hlimits, hstarted, reading_update hreadings fun k now hnow => ?_, hbuckets⟩
    rw [hreading k now hnow]
    exact ⟨hstarted, le_refl _⟩
  | gets c k now hhandler =>
    obtain ⟨hC, hR⟩ := limits_getOrCreate s.limiter k s.clock
    refine ⟨⟨hC.trans hlimits.1, hR.trans hlimits.2⟩, hstarted,
      reading_update hreadings fun k' now' hnow => ?_, fun k' b hb => ?_⟩
    · cases hnow
      exact hreadings c k now (by rw [hhandler]; rfl)
    · rw [lookup_getOrCreate, Option.or_eq_some_iff] at hb
      rcases hb with hb | ⟨-, hnew⟩
      · exact hbuckets k' b hb
      · obtain ⟨-, hnew⟩ := Option.ite_none_right_eq_some.mp hnew
        cases hnew
        exact ⟨hlimits.1, hlimits.2, le_refl _, hstarted, le_refl _⟩
  | takes c k now b hhandler hb =>
    obtain ⟨hlow, hhigh⟩ := hreadings c k now (by rw [hhandler]; rfl)
    obtain ⟨hC, hR, -⟩ := hbuckets k b hb
    obtain ⟨hcapacity, hrate, hlast⟩ := take_capacity b now
    refine ⟨hlimits, hstarted, reading_update hreadings fun k' now' hnow => (nomatch hnow),
      fun k' b' hb' => ?_⟩
    unfold Serving.take at hb'
    dsimp only at hb'
    by_cases hk : k' = k
    · subst hk
      rw [Finmap.lookup_insert, Option.some_inj] at hb'
      subst hb'
      refine ⟨hcapacity.trans hC, hrate.trans hR, ?_, ?_⟩
      · rw [hcapacity]
        exact (take_tokens_le b now).trans (refilled_le_capacity b now)
      · rw [hlast]
        exact ⟨hlow, hhigh⟩
    · rw [Finmap.lookup_insert_of_ne _ hk] at hb'
      exact hbuckets k' b' hb'

theorem timely_init (opts : Options ℚ) (start : Time) :
    Timely opts start (server opts start : Machine (Serving κ) _).init :=
  ⟨⟨rfl, rfl⟩, le_refl _, fun _ _ _ h => (nomatch h), fun _ _ h => (nomatch h)⟩

theorem timely_run (hrun : (server opts start).run labels = some s) : Timely opts start s :=
  run_keeps (timely_init opts start) (fun _ _ _ h hstep => h.step (step_cases hstep)) hrun

/-! What is admitted under one key. -/

def Paid (opts : Options ℚ) (since : Time) (count : ℚ) (b : Bucket ℚ) : Prop :=
  count = 0 ∨ count + b.level ≤ (new opts).capacity - (new opts).refillRate * (since / 1000000000)

structure Spends (opts : Options ℚ) (k : BucketKey) (since : Time) (before : ℚ) (s : Serving κ) :
    Prop where
  started : since ≤ s.clock
  readings : ∀ c now, (s.handlers c).reading = some (k, now) → since ≤ now
  absent : s.limiter.buckets.lookup k = none → (s.admitted k : ℚ) = before
  paid : ∀ b, s.limiter.buckets.lookup k = some b → Paid opts since (s.admitted k - before) b
  bound : (s.admitted k : ℚ) ≤ before + (new opts).capacity +
    (new opts).refillRate * ((s.clock - since) / 1000000000)

theorem limits_pos (opts : Options ℚ) : 0 < (new opts).capacity ∧ 0 < (new opts).refillRate := by
  unfold new
  dsimp only
  constructor
  · split
    · norm_num
    next h => exact not_le.mp h
  · split
    · norm_num
    next h => exact not_le.mp h

/-- After a take what was admitted is paid for, and by what has been refilled until then. -/
theorem Paid.take {count : ℚ} {b : Bucket ℚ} {now : Time} (h : Paid opts since count b)
    (hcapacity : b.capacity = (new opts).capacity) (hrate : b.refillRate = (new opts).refillRate)
    (hsince : since ≤ now) (hlate : -2 ^ 63 ≤ now - b.last) :
    let result := b.take rationals now
    Paid opts since (count + if result.2.1 then 1 else 0) result.1 ∧
      (result.2.1 = true → count + 1 ≤
        (new opts).capacity + (new opts).refillRate * ((now - since) / 1000000000)) := by
  have hR := (limits_pos opts).2.le
  obtain ⟨hlevel, hfull⟩ := take_level (hrate ▸ hR) hlate
  have hlater : (since : ℚ) ≤ now := by exact_mod_cast hsince
  have hgrows : (new opts).refillRate * ((since : ℚ) / 1000000000) ≤
      (new opts).refillRate * (now / 1000000000) := by gcongr
  have hpaid : count + (if (b.take rationals now).2.1 then 1 else 0) +
      (b.take rationals now).1.level ≤
        (new opts).capacity - (new opts).refillRate * (since / 1000000000) := by
    rcases h with hnone | hpaid
    · rw [hcapacity, hrate] at hfull
      linarith
    · linarith
  refine ⟨.inr hpaid, fun hok => ?_⟩
  obtain ⟨-, hafterRate, hafterLast⟩ := take_capacity b now
  have hleft := (take_admitted hok).1
  rw [if_pos hok, Bucket.level, hafterRate, hafterLast, hrate] at hpaid
  have hsplit : (new opts).refillRate * ((now - since : ℚ) / 1000000000) =
      (new opts).refillRate * (now / 1000000000) -
        (new opts).refillRate * (since / 1000000000) := by ring
  linarith

theorem Spends.step {before : ℚ} (h : Spends opts k since before s) (htimely : Timely opts start s)
    (hstep : Step s l t) (hspan : s.clock ≤ start + 2 ^ 63) : Spends opts k since before t := by
  obtain ⟨hstarted, hreadings, habsent, hpaid, hbound⟩ := h
  obtain ⟨hC, hR⟩ := limits_pos opts
  cases hstep with
  | passes now hnow =>
    refine ⟨hstarted.trans hnow, hreadings, habsent, hpaid, hbound.trans ?_⟩
    have hlater : ((s.clock : Time) : ℚ) ≤ now := by exact_mod_cast hnow
    dsimp only
    gcongr
  | arrives c r handler hreading =>
    refine ⟨hstarted, ?_, habsent, hpaid, hbound⟩
    intro d now hd
    refine reading_update (P := fun k' now => k' = k → since ≤ now)
      (fun d k' now hd hk => hreadings d now (hk ▸ hd)) (fun k' now hnow _ => ?_) d k now hd rfl
    rw [hreading k' now hnow]
    exact hstarted
  | gets c k' now hhandler =>
    refine ⟨hstarted, ?_, fun hnone => ?_, fun b hb => ?_, hbound⟩
    · intro d now' hd
      refine reading_update (P := fun k' now => k' = k → since ≤ now)
        (fun d k' now hd hk => hreadings d now (hk ▸ hd)) (fun k'' now'' hnow hk => ?_) d k now' hd
        rfl
      cases hnow
      exact hreadings c now (by rw [hhandler, ← hk]; rfl)
    · rw [lookup_getOrCreate, Option.or_eq_none_iff] at hnone
      exact habsent hnone.1
    · rw [lookup_getOrCreate, Option.or_eq_some_iff] at hb
      rcases hb with hb | ⟨hnone, -⟩
      · exact hpaid b hb
      · left
        rw [sub_eq_zero]
        exact habsent hnone
  | takes c k' now b hhandler hb =>
    have hread : (s.handlers c).reading = some (k', now) := by
      rw [hhandler]
      rfl
    have hothers : ∀ d now', ((s.take c k' now b).handlers d).reading = some (k, now') →
        since ≤ now' := by
      intro d now' hd
      exact reading_update (P := fun k' now => k' = k → since ≤ now)
        (fun d k' now hd hk => hreadings d now (hk ▸ hd)) (fun _ _ hnow => by cases hnow) d k now'
        hd rfl
    by_cases hk : k' = k
    · subst hk
      obtain ⟨hcapacity, hrate, -, -, hlast⟩ := htimely.buckets k' b hb
      obtain ⟨hlow, hhigh⟩ := htimely.readings c k' now hread
      have hlate : -2 ^ 63 ≤ now - b.last := by linarith
      obtain ⟨hnext, hadmits⟩ := (hpaid b hb).take hcapacity hrate (hreadings c now hread) hlate
      have hlookup : (s.take c k' now b).limiter.buckets.lookup k' =
          some (b.take rationals now).1 := Finmap.lookup_insert _
      have hcount : ((s.take c k' now b).admitted k' : ℚ) =
          s.admitted k' + if (b.take rationals now).2.1 then 1 else 0 := by
        unfold Serving.take
        dsimp only
        split
        · rw [Function.update_self, Nat.cast_add, Nat.cast_one]
        · rw [add_zero]
      refine ⟨hstarted, hothers, fun hnone => ?_, fun b' hb' => ?_, ?_⟩
      · rw [hlookup] at hnone
        cases hnone
      · rw [hlookup] at hb'
        cases hb'
        rw [hcount, add_sub_right_comm]
        exact hnext
      · rw [hcount]
        split
        next hok =>
          have hlater : (now : ℚ) ≤ s.clock := by exact_mod_cast hhigh
          have hgrows : (new opts).refillRate * ((now - since : ℚ) / 1000000000) ≤
              (new opts).refillRate * ((s.clock - since) / 1000000000) := by gcongr
          have hone := hadmits hok
          dsimp only [Serving.take]
          linarith
        next =>
          rw [add_zero]
          exact hbound
    · have hlookup : (s.take c k' now b).limiter.buckets.lookup k = s.limiter.buckets.lookup k :=
        Finmap.lookup_insert_of_ne _ (Ne.symm hk)
      have hcount : (s.take c k' now b).admitted k = s.admitted k := by
        unfold Serving.take
        dsimp only
        split
        · exact Function.update_of_ne (Ne.symm hk) ..
        · rfl
      refine ⟨hstarted, hothers, ?_, ?_, ?_⟩
      · rw [hlookup, hcount]
        exact habsent
      · rw [hlookup, hcount]
        exact hpaid
      · rw [hcount]
        exact hbound

theorem clock_step (hstep : Step s l t) : s.clock ≤ t.clock := by
  cases hstep with
  | passes now hnow => exact hnow
  | arrives | gets | takes => exact le_refl _

theorem clock_run (hrun : (server opts start).runFrom s labels = some t) : s.clock ≤ t.clock := by
  have hstep (u v : Serving κ) (l : Label κ) (h : s.clock ≤ u.clock) (hstep : u.step l = some v) :
      s.clock ≤ v.clock := h.trans (clock_step (step_cases hstep))
  exact runFrom_keeps (fun u l v h hs => hstep u v l h hs) (le_refl s.clock) hrun

theorem Spends.run {before : ℚ} (h : Spends opts k since before s) (htimely : Timely opts start s)
    (hrun : (server opts start).runFrom s labels = some t) (hspan : t.clock ≤ start + 2 ^ 63) :
    Spends opts k since before t := by
  induction labels generalizing s with
  | nil =>
    cases hrun
    exact h
  | cons l labels ih =>
    obtain ⟨u, hstep, hrest⟩ := runFrom_cons.mp hrun
    have hcases := step_cases hstep
    have hlater := (clock_step hcases).trans (clock_run hrest)
    exact ih (h.step htimely hcases (hlater.trans hspan)) (htimely.step hcases) hrest

/-- However the requests come between one another, from some state on no more requests of one
client on one kind of route are let through than its bucket holds and what is refilled since the
oldest reading of the clock with which one of these is still on its way. -/
theorem admitted_bound {before after : List (Label κ)}
    (hbefore : (server opts start).run before = some s)
    (hafter : (server opts start).runFrom s after = some t) (hsince : since ≤ s.clock)
    (hreadings : ∀ c now, (s.handlers c).reading = some (k, now) → since ≤ now)
    (hspan : t.clock ≤ start + 2 ^ 63) :
    (t.admitted k : ℚ) ≤ s.admitted k + (new opts).capacity +
      (new opts).refillRate * ((t.clock - since) / 1000000000) := by
  have htimely := timely_run hbefore
  obtain ⟨hC, hR⟩ := limits_pos opts
  have hlater : (since : ℚ) ≤ s.clock := by exact_mod_cast hsince
  have hrefill : 0 ≤ (new opts).refillRate * ((s.clock - since : ℚ) / 1000000000) :=
    mul_nonneg hR.le (div_nonneg (sub_nonneg.mpr hlater) (by norm_num))
  have hspends : Spends opts k since (s.admitted k) s :=
    ⟨hsince, hreadings, fun _ => rfl, fun _ _ => .inl (sub_self _), by linarith⟩
  exact (hspends.run htimely hafter hspan).bound

end

/-- One request waits for a second with its bucket, and then another comes: both are let through
at one moment, where the bucket holds one token. -/
def oneWaits : List (Label (Fin 2)) :=
  [.arrives 0 (apiRequest "1.1.1.1:80"), .getsOrCreates 0, .passes 1000000000]

def bothTake : List (Label (Fin 2)) :=
  [.takes 0, .arrives 1 (apiRequest "1.1.1.1:80"), .getsOrCreates 1, .takes 1]

theorem admitted_bound_waits : ∃ s t : Serving (Fin 2),
    (server ⟨1, 1, none, none⟩ 0).run oneWaits = some s ∧
      (server ⟨1, 1, none, none⟩ 0).runFrom s bothTake = some t ∧ s.clock = t.clock ∧
      t.admitted ⟨"1.1.1.1", "api"⟩ = 2 ∧
      (t.admitted ⟨"1.1.1.1", "api"⟩ : ℚ) ≤ 0 + 1 + 1 * ((1000000000 - 0) / 1000000000) := by
  have hends : ((server ⟨1, 1, none, none⟩ 0).run oneWaits).bind (fun s =>
      ((server ⟨1, 1, none, none⟩ 0).runFrom s bothTake).map fun t =>
        (s.clock, t.clock, s.admitted ⟨"1.1.1.1", "api"⟩, t.admitted ⟨"1.1.1.1", "api"⟩)) =
      some (1000000000, 1000000000, 0, 2) := by
    decide +kernel
  obtain ⟨s, hbefore, hs⟩ := Option.bind_eq_some_iff.mp hends
  obtain ⟨t, hafter, hvalues⟩ := Option.map_eq_some_iff.mp hs
  simp only [Prod.mk.injEq] at hvalues
  obtain ⟨hsclock, htclock, hnone, htwo⟩ := hvalues
  have htimely := timely_run hbefore
  have hbound := admitted_bound hbefore hafter htimely.started
    (fun c now h => (htimely.readings c ⟨"1.1.1.1", "api"⟩ now h).1) (by rw [htclock]; decide)
  rw [htclock, hnone] at hbound
  have hlimits : (new ⟨1, 1, none, none⟩ : Limiter ℚ).capacity = 1 ∧
      (new ⟨1, 1, none, none⟩ : Limiter ℚ).refillRate = 1 := by
    norm_num [new]
  rw [hlimits.1, hlimits.2] at hbound
  exact ⟨s, t, hbefore, hafter, hsclock.trans htclock.symm, htwo, by exact_mod_cast hbound⟩

end LearnPg.RateLimit
