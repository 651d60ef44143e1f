import LearnPg.Telemetry.Files

/-! Whether a report that has just been recorded is still there. The cap is enforced after
it is put in, and does not tell it from others that were last seen at the same time. -/
namespace LearnPg.Telemetry

open LearnPg.Basis.Maps

/-- The event that a report leaves. -/
def Store.recorded (sha256 : List UInt8 → List UInt8) (input : RecordInput) (now now' : Time)
    (s : Store) : Event :=
  match s.events.lookup (input.hash sha256) with
  | some (some e) => e.merge input now
  | _ => newEvent (input.hash sha256) input now now'

/-- However equal times are ordered, the report is in the store afterwards. -/
def Store.Keeps (sha256 : List UInt8 → List UInt8) (input : RecordInput) (now now' : Time)
    (s : Store) : Prop :=
  ∀ σ, ∃ t, s.record sha256 input now now' σ = some t ∧
    t.events.lookup (input.hash sha256) = some (some (s.recorded sha256 input now now'))

/-- Before each event with this hash, at least `n` were last seen. -/
def SeenAfter (n : Nat) (h : String) (events : Events) : Prop :=
  ∀ e ∈ live events, e.hash = h → n ≤ (live events).countP (·.lastSeen < e.lastSeen)

section

variable {sha256 : List UInt8 → List UInt8} {input : RecordInput} {now now' : Time} {s : Store}
  {events : Events} {cap : Int} {h : String} {e : Event}

theorem enforceCapLocked_keeps_iff (hnil : none ∉ values events) (hcap : 0 < cap)
    {p : Option Event} (hp : events.lookup h = some p) :
    (∀ σ, ∃ after, enforceCapLocked cap σ events = some after ∧ after.lookup h = some p) ↔
      (len events : Int) ≤ cap ∨ SeenAfter (len events - cap.toNat) h events := by
  by_cases hfits : (len events : Int) ≤ cap
  · refine iff_of_true (fun σ => ⟨events, if_pos (.inr hfits), hp⟩) (.inl hfits)
  · have heval (σ : Oldest) : enforceCapLocked cap σ events =
        some (eraseAll (oldestHashes σ (len events - cap.toNat) events) events) := by
      unfold enforceCapLocked
      rw [if_neg (by omega), dereferenced, if_neg hnil, Option.map_some]
      dsimp only
      rw [length_sort_live hnil]
      rfl
    have hkept (σ : Oldest) : (∃ after, enforceCapLocked cap σ events = some after ∧
        after.lookup h = some p) ↔ h ∉ oldestHashes σ (len events - cap.toNat) events := by
      rw [heval]
      simp only [Option.some.injEq, exists_eq_left', lookup_eraseAll, hp]
      split
      next hin => simp [hin]
      next hout => simp [hout]
    simp only [hkept, hfits, false_or, oldestHashes, List.mem_map, not_exists, not_and]
    constructor
    · intro hall e he hhash
      by_contra hfew
      obtain ⟨σ, hσ⟩ := exists_mem_take_iff.mpr
        ⟨he, Nat.lt_of_not_le hfew⟩
      exact hall σ e hσ hhash
    · intro hseen σ e he hhash
      have hmem := σ.mem_sort.mp (List.mem_of_mem_take he)
      have hfew := (exists_mem_take_iff.mp ⟨σ, he⟩).2
      exact absurd (hseen e hmem hhash) (Nat.not_le_of_lt hfew)

/-- A report is kept exactly if its hash was there, or there was room, or enough events
were last seen before every one with its hash. -/
theorem record_keeps_iff (sha256 : List UInt8 → List UInt8) (input : RecordInput)
    (now now' : Time) {s : Store} (hnil : none ∉ values s.events) (hcap : 0 < s.maxEvents) :
    s.Keeps sha256 input now now' ↔
      input.hash sha256 ∈ s.events ∨ (len s.events : Int) < s.maxEvents ∨
        SeenAfter (len s.events + 1 - s.maxEvents.toNat) (input.hash sha256)
          (s.events.insert (input.hash sha256)
            (some (newEvent (input.hash sha256) input now now'))) := by
  unfold Store.Keeps Store.recorded
  cases hold : s.events.lookup (input.hash sha256) with
  | some p =>
    cases p with
    | none => exact absurd (mem_values.mpr ⟨_, hold⟩) hnil
    | some e =>
      refine iff_of_true (fun σ => ?_) (.inl (Finmap.mem_of_lookup_eq_some hold))
      exact ⟨_, record_merge hold now now' σ, Finmap.lookup_insert _⟩
  | none =>
    have habsent := Finmap.lookup_eq_none.mp hold
    have hiff := enforceCapLocked_keeps_iff
      (no_nil_insert hnil (input.hash sha256) (newEvent (input.hash sha256) input now now')) hcap
      (Finmap.lookup_insert _)
    have hroom : ((len s.events + 1 : Nat) : Int) ≤ s.maxEvents ↔
        (len s.events : Int) < s.maxEvents := by omega
    rw [len_insert habsent, hroom] at hiff
    rw [or_iff_right habsent, ← hiff]
    refine forall_congr' fun σ => ?_
    rw [record_new hold]
    simp only [Option.map_eq_some_iff]
    constructor
    · rintro ⟨t, ⟨after, hafter, rfl⟩, hlookup⟩
      exact ⟨after, hafter, hlookup⟩
    · rintro ⟨after, hafter, hlookup⟩
      exact ⟨_, ⟨after, hafter, rfl⟩, hlookup⟩

theorem live_insert (habsent : h ∉ events) (e : Event) :
    live (events.insert h (some e)) = e ::ₘ live events := by
  unfold live
  rw [values_insert habsent]
  exact Multiset.filterMap_cons_some _ _ _ rfl

theorem Keyed.seenAfter_insert_iff (hk : Keyed events) (habsent : h ∉ events) (hhash : e.hash = h)
    (n : Nat) : SeenAfter n h (events.insert h (some e)) ↔
      n ≤ (live events).countP (·.lastSeen < e.lastSeen) := by
  have hcount : (e ::ₘ live events).countP (·.lastSeen < e.lastSeen) =
      (live events).countP (·.lastSeen < e.lastSeen) :=
    Multiset.countP_cons_of_neg _ (by simp)
  unfold SeenAfter
  rw [live_insert habsent]
  constructor
  · intro hseen
    rw [← hcount]
    exact hseen e (Multiset.mem_cons_self e _) hhash
  · intro hn d hd hdhash
    obtain rfl | hd := Multiset.mem_cons.mp hd
    · rw [hcount]
      exact hn
    · have hlookup := hk.lookup_live hd
      rw [hdhash] at hlookup
      exact absurd (Finmap.mem_of_lookup_eq_some hlookup) habsent

/-- A report is kept, however equal times are ordered, exactly if its hash was there, or
there was room, or enough events were last seen strictly before it. No pointer of a store is
nil, as `newWithOptions_runs` and `use_runs` say. -/
theorem new_report_kept_iff (sha256 : List UInt8 → List UInt8) (input : RecordInput)
    (now now' : Time) {s : Store} (hnil : none ∉ values s.events) (hcap : 0 < s.maxEvents) :
    (s.Keeps sha256 input now now' ↔
      input.hash sha256 ∈ s.events ∨ (len s.events : Int) < s.maxEvents ∨
        SeenAfter (len s.events + 1 - s.maxEvents.toNat) (input.hash sha256)
          (s.events.insert (input.hash sha256)
            (some (newEvent (input.hash sha256) input now now')))) ∧
    (Keyed s.events → (s.Keeps sha256 input now now' ↔
      input.hash sha256 ∈ s.events ∨ (len s.events : Int) < s.maxEvents ∨
        len s.events + 1 - s.maxEvents.toNat ≤
          (live s.events).countP (·.lastSeen < now'))) := by
  have hiff := record_keeps_iff sha256 input now now' hnil hcap
  refine ⟨hiff, fun hk => ?_⟩
  rw [hiff]
  by_cases hmem : input.hash sha256 ∈ s.events
  · simp only [hmem, true_or]
  · rw [hk.seenAfter_insert_iff hmem (e := newEvent (input.hash sha256) input now now') rfl]
    rfl

end

def oldEvent : Event :=
  ⟨"0123456789abcdef", "old", "error", "u", "ua/1", "s", 1, 0, 5, "e0", 0⟩

def singleEvent : Store :=
  ⟨"", Finmap.insert "0123456789abcdef" (some oldEvent) ∅, 0, 1, 30000000000, false⟩

theorem singleEvent_keyed : Keyed singleEvent.events :=
  Keyed.insert (e := oldEvent) (fun h p hp => by simp at hp) rfl

theorem singleEvent_live : live singleEvent.events = {oldEvent} :=
  live_insert Finmap.notMem_empty oldEvent

theorem new_report_kept_later :
    (singleEvent.Keeps boomDigest boom 5 6 ↔
      boom.hash boomDigest ∈ singleEvent.events ∨ (len singleEvent.events : Int) < 1 ∨
        SeenAfter (len singleEvent.events + 1 - 1) (boom.hash boomDigest)
          (singleEvent.events.insert (boom.hash boomDigest)
            (some (newEvent (boom.hash boomDigest) boom 5 6)))) ∧
    (Keyed singleEvent.events → (singleEvent.Keeps boomDigest boom 5 6 ↔
      boom.hash boomDigest ∈ singleEvent.events ∨ (len singleEvent.events : Int) < 1 ∨
        len singleEvent.events + 1 - 1 ≤
          (live singleEvent.events).countP (·.lastSeen < 6))) :=
  new_report_kept_iff boomDigest boom 5 6 singleEvent_keyed.not_nil (by decide)

/-- Recorded at the time at which the only other event was seen, a report may be the one
that is dropped. -/
theorem new_report_dropped : ¬ ∀ (sha256 : List UInt8 → List UInt8) (input : RecordInput)
    (now now' : Time) (s : Store), Keyed s.events → 0 < s.maxEvents →
    (∀ e ∈ live s.events, e.lastSeen ≤ now) → now ≤ now' → s.Keeps sha256 input now now' := by
  intro h
  have hclock : ∀ e ∈ live singleEvent.events, e.lastSeen ≤ 5 := by
    rw [singleEvent_live]
    intro e he
    rw [Multiset.mem_singleton.mp he]
    decide
  have hkeeps := h boomDigest boom 5 5 singleEvent singleEvent_keyed (by decide) hclock le_rfl
  have habsent : boom.hash boomDigest ∉ singleEvent.events := by decide
  have hsize : len singleEvent.events = 1 := by decide
  rw [record_keeps_iff _ _ _ _ singleEvent_keyed.not_nil (by decide), or_iff_right habsent,
    singleEvent_keyed.seenAfter_insert_iff habsent rfl, singleEvent_live, hsize] at hkeeps
  exact absurd hkeeps (by decide)

end LearnPg.Telemetry
