import LearnPg.Basis.Channel
import LearnPg.Basis.Runs
import Mathlib.Data.List.Range

/-! The error reporter: captures, flushes and the shutdown from any goroutines and the sender,
with their steps in any order. Events are numbered in the order in which the queue takes them. -/
namespace LearnPg.Background.Reporter
open LearnPg.Basis.Channel LearnPg.Basis.Runs

/-- Where `run` is: at the outer `select`, behind the case of `stop`, or returned. -/
inductive Mode where
  | running
  | draining
  | returned
deriving DecidableEq

/-- Where the first call of `Shutdown` is in `once.Do`. -/
inductive Once where
  | unused
  | waiting
  | done
deriving DecidableEq

/-- An enabled reporter (`queue`, `stopped`, `sent`, `dropped`, `once`, the sender with the
event it sends) and the calls of its methods: captures in front of their `enqueue` (with
whether they come from `CapturePanic`), calls of `CapturePanic` in front of `Flush`, calls of
`Flush` by the number of events taken before them, calls of `Shutdown` in front of `Do` and
returned. `captured` counts the captures made, `taken` those the queue took, `counted` lists
the events sent or dropped by the sender, and `flushed` each `Flush` that returned nil, with
the events counted by then. -/
structure State (E : Type) where
  queue : Chan (Nat × E)
  stopped : Bool
  sent : Nat
  dropped : Nat
  once : Once
  mode : Mode
  hands : Option (Nat × E)
  capturing : List (E × Bool)
  panicked : Nat
  flushing : List Nat
  shutting : Nat
  returned : Nat
  captured : Nat
  taken : Nat
  counted : List Nat
  flushed : List (Nat × List Nat)
deriving DecidableEq

inductive Label (E : Type) where
  | captureError (err : Option E) (now : Nat)
  | capturePanic (e : E)
  | enqueue (i : Nat)
  | flushPanic
  | flush
  | look (i : Nat)
  | timeout (i : Nat)
  | shutdown
  | shutdownStop
  | shutdownDone
  | shutdownAgain
  | stop
  | take
  | send (accepted : Bool)
  | leave

variable {E : Type}

/-- The `select` of `enqueue`. -/
def State.offer (s : State E) (e : E) : State E :=
  match s.queue.offer (s.taken, e) with
  | .sent queue => { s with queue := queue, taken := s.taken + 1, captured := s.captured + 1 }
  | .full => { s with dropped := s.dropped + 1, captured := s.captured + 1 }
  -- the queue is never closed
  | .panicked => s

/-- `rejects` tells from the clock whether sampling leaves an error out. -/
def step (rejects : Nat → Bool) (s : State E) : Label E → Option (State E)
  | .captureError none _ => some s
  | .captureError (some e) now =>
    if rejects now then
      some { s with dropped := s.dropped + 1, captured := s.captured + 1 }
    else some { s with capturing := s.capturing ++ [(e, false)] }
  | .capturePanic e => some { s with capturing := s.capturing ++ [(e, true)] }
  | .enqueue i =>
    s.capturing[i]?.map fun (e, panicked) =>
      { s with
        capturing := s.capturing.eraseIdx i
        panicked := s.panicked + if panicked then 1 else 0 }.offer e
  | .flushPanic =>
    if 0 < s.panicked then
      some { s with panicked := s.panicked - 1, flushing := s.flushing ++ [s.taken] }
    else none
  | .flush => some { s with flushing := s.flushing ++ [s.taken] }
  | .look i =>
    s.flushing[i]?.map fun before =>
      if s.queue.queue = [] then
        { s with
          flushing := s.flushing.eraseIdx i
          flushed := s.flushed ++ [(before, s.counted)] }
      else s
  | .timeout i => s.flushing[i]?.map fun _ => { s with flushing := s.flushing.eraseIdx i }
  | .shutdown => some { s with shutting := s.shutting + 1 }
  | .shutdownStop =>
    match s.once with
    | .unused =>
      if 0 < s.shutting then
        some { s with shutting := s.shutting - 1, once := .waiting, stopped := true }
      else none
    | _ => none
  | .shutdownDone =>
    match s.once, s.mode with
    | .waiting, .returned => some { s with once := .done, returned := s.returned + 1 }
    | _, _ => none
  | .shutdownAgain =>
    match s.once with
    | .done =>
      if 0 < s.shutting then
        some { s with shutting := s.shutting - 1, returned := s.returned + 1 }
      else none
    | _ => none
  | .stop =>
    match s.mode, s.hands with
    | .running, none => if s.stopped then some { s with mode := .draining } else none
    | _, _ => none
  | .take =>
    match s.mode, s.hands, s.queue.receive with
    | .running, none, some (some e, queue) => some { s with hands := some e, queue := queue }
    | .draining, none, some (some e, queue) => some { s with hands := some e, queue := queue }
    | _, _, _ => none
  | .send accepted =>
    s.hands.map fun e =>
      let s := { s with hands := none, counted := s.counted ++ [e.1] }
      if accepted then { s with sent := s.sent + 1 } else { s with dropped := s.dropped + 1 }
  | .leave =>
    match s.mode, s.hands, s.queue.queue with
    | .draining, none, [] => some { s with mode := .returned }
    | _, _, _ => none

/-- `New` with a valid DSN. -/
def newReporter : State E where
  queue := Chan.make 256
  stopped := false
  sent := 0
  dropped := 0
  once := .unused
  mode := .running
  hands := none
  capturing := []
  panicked := 0
  flushing := []
  shutting := 0
  returned := 0
  captured := 0
  taken := 0
  counted := []
  flushed := []

def reporter (rejects : Nat → Bool) : Machine (State E) (Label E) where
  init := newReporter
  step := step rejects

/-- No method is being called, and the sender is not in `send`. -/
structure Idle (s : State E) : Prop where
  capturing : s.capturing = []
  panicked : s.panicked = 0
  flushing : s.flushing = []
  shutting : s.shutting = 0
  once : s.once ≠ .waiting
  hands : s.hands = none

/-- Between calls every capture is sent, dropped or in the queue. -/
def Balanced (s : State E) : Prop :=
  Idle s → s.captured = s.sent + s.dropped + s.queue.queue.length ∧
    ∀ n < s.taken, n ∈ s.counted ∨ n ∈ s.queue.queue.map Prod.fst

structure Accounted (s : State E) : Prop where
  balanced : Balanced s
  /-- When `Flush` returned nil the events taken before it were sent or dropped. -/
  flushed : ∀ f ∈ s.flushed, ∀ n < f.1, n ∈ f.2
  /-- After `Shutdown` the queue is empty. -/
  returned : 0 < s.returned → s.queue.queue = []

/-- `Flush` finds the queue empty only while the sender holds no event from before the call,
and no event is offered to the queue of a sender that has returned. -/
def Timely (s : State E) : Label E → Prop
  | .look i => ∀ before ∈ s.flushing[i]?, s.queue.queue = [] → ∀ e ∈ s.hands, before ≤ e.1
  | .enqueue _ => s.mode ≠ .returned
  | _ => True

instance [DecidableEq E] (s : State E) (a : Label E) : Decidable (Timely s a) :=
  match a with
  | .look i => inferInstanceAs (Decidable
      (∀ before ∈ s.flushing[i]?, s.queue.queue = [] → ∀ e ∈ s.hands, before ≤ e.1))
  | .enqueue _ => inferInstanceAs (Decidable (s.mode ≠ .returned))
  | .captureError .. | .capturePanic _ | .flushPanic | .flush | .timeout _ | .shutdown
  | .shutdownStop | .shutdownDone | .shutdownAgain | .stop | .take | .send _ | .leave =>
    .isTrue trivial

/-! What every step keeps. -/

variable {s t : State E} {a : Label E} {rejects : Nat → Bool}

structure Kept (s : State E) : Prop where
  numbers : s.counted ++ (s.hands.toList ++ s.queue.queue).map Prod.fst = List.range s.taken
  captured : s.captured = s.sent + s.dropped + s.hands.toList.length + s.queue.queue.length
  isOpen : s.queue.closed = false
  flushing : ∀ k ∈ s.flushing, k ≤ s.taken

theorem kept_newReporter : Kept (newReporter : State E) :=
  ⟨rfl, rfl, rfl, fun _ h => absurd h List.not_mem_nil⟩

theorem Kept.offer (h : Kept s) (e : E) : Kept (s.offer e) := by
  have hcaptured := h.captured
  unfold State.offer
  cases hoffer : s.queue.offer (s.taken, e) with
  | sent queue =>
    obtain ⟨-, rfl⟩ := offer_sent hoffer
    refine ⟨?_, ?_, h.isOpen, fun k hk => (h.flushing k hk).trans (Nat.le_succ _)⟩
    · rw [List.range_succ, ← h.numbers]
      simp only [List.map_append, List.map_cons, List.map_nil, List.append_assoc]
    · simp only [List.length_append, List.length_singleton]
      omega
  | full =>
    refine ⟨h.numbers, ?_, h.isOpen, h.flushing⟩
    simp only
    omega
  | panicked => exact h

theorem Kept.take (h : Kept s) (hhands : s.hands = none) {e : Nat × E} {queue : Chan (Nat × E)}
    (hreceive : s.queue.receive = some (some e, queue)) :
    Kept { s with hands := some e, queue := queue } := by
  obtain ⟨rest, hqueue, rfl⟩ := receive_some hreceive
  have hnumbers := h.numbers
  have hcaptured := h.captured
  rw [hhands, hqueue] at hnumbers hcaptured
  refine ⟨hnumbers, ?_, h.isOpen, h.flushing⟩
  simp only [Option.toList_none, Option.toList_some, List.length_nil, List.length_cons] at *
  omega

theorem Kept.send (h : Kept s) {e : Nat × E} (hhands : s.hands = some e) (accepted : Bool) :
    Kept (let s := { s with hands := none, counted := s.counted ++ [e.1] }
      if accepted then { s with sent := s.sent + 1 } else { s with dropped := s.dropped + 1 }) := by
  have hnumbers := h.numbers
  have hcaptured := h.captured
  rw [hhands] at hnumbers hcaptured
  simp only [Option.toList_some, List.length_singleton] at hcaptured
  have hcounted : (s.counted ++ [e.1]) ++ (Option.toList none ++ s.queue.queue).map Prod.fst =
      List.range s.taken := by
    rw [← hnumbers]
    simp
  cases accepted with
  | true =>
    refine ⟨hcounted, ?_, h.isOpen, h.flushing⟩
    simp only [if_true, Option.toList_none, List.length_nil]
    omega
  | false =>
    refine ⟨hcounted, ?_, h.isOpen, h.flushing⟩
    simp only [Bool.false_eq_true, if_false, Option.toList_none, List.length_nil]
    omega

theorem Kept.flush (h : Kept s) : ∀ k ∈ s.flushing ++ [s.taken], k ≤ s.taken := by
  intro k hk
  rcases List.mem_append.mp hk with hk | hk
  · exact h.flushing k hk
  · exact (List.mem_singleton.mp hk).le

theorem Kept.unflush (h : Kept s) (i : Nat) : ∀ k ∈ s.flushing.eraseIdx i, k ≤ s.taken :=
  fun k hk => h.flushing k (List.mem_of_mem_eraseIdx hk)

theorem Kept.step (h : Kept s) (hstep : step rejects s a = some t) : Kept t := by
  have hcaptured := h.captured
  cases a with
  | captureError err now =>
    cases err with
    | none =>
      cases hstep
      exact h
    | some e =>
      simp only [Reporter.step] at hstep
      split at hstep
      · cases hstep
        refine ⟨h.numbers, ?_, h.isOpen, h.flushing⟩
        simp only
        omega
      · cases hstep
        exact ⟨h.numbers, h.captured, h.isOpen, h.flushing⟩
  | enqueue i =>
    obtain ⟨⟨e, panicked⟩, -, rfl⟩ := Option.map_eq_some_iff.mp hstep
    refine Kept.offer ?_ e
    exact ⟨h.numbers, h.captured, h.isOpen, h.flushing⟩
  | flushPanic =>
    obtain ⟨-, heq⟩ := Option.ite_none_right_eq_some.mp hstep
    cases heq
    exact ⟨h.numbers, h.captured, h.isOpen, h.flush⟩
  | flush =>
    cases hstep
    exact ⟨h.numbers, h.captured, h.isOpen, h.flush⟩
  | look i =>
    obtain ⟨before, -, rfl⟩ := Option.map_eq_some_iff.mp hstep
    split
    · exact ⟨h.numbers, h.captured, h.isOpen, h.unflush i⟩
    · exact h
  | timeout i =>
    obtain ⟨before, -, rfl⟩ := Option.map_eq_some_iff.mp hstep
    exact ⟨h.numbers, h.captured, h.isOpen, h.unflush i⟩
  | take =>
    simp only [Reporter.step] at hstep
    split at hstep
    · cases hstep
      exact h.take ‹_› ‹_›
    · cases hstep
      exact h.take ‹_› ‹_›
    · cases hstep
  | send accepted =>
    obtain ⟨e, he, rfl⟩ := Option.map_eq_some_iff.mp hstep
    exact h.send he accepted
  | capturePanic | shutdown =>
    cases hstep
    exact ⟨h.numbers, h.captured, h.isOpen, h.flushing⟩
  | shutdownStop | shutdownAgain | stop =>
    simp only [Reporter.step] at hstep
    split at hstep
    · obtain ⟨-, heq⟩ := Option.ite_none_right_eq_some.mp hstep
      cases heq
      exact ⟨h.numbers, h.captured, h.isOpen, h.flushing⟩
    · cases hstep
  | shutdownDone | leave =>
    simp only [Reporter.step] at hstep
    split at hstep
    · cases hstep
      exact ⟨h.numbers, h.captured, h.isOpen, h.flushing⟩
    · cases hstep

/-- Every event the queue took is counted, in the sender's hands or in the queue. -/
theorem Kept.mem (h : Kept s) {n : Nat} (hn : n < s.taken) :
    n ∈ s.counted ∨ (∃ e ∈ s.hands, n = e.1) ∨ n ∈ s.queue.queue.map Prod.fst := by
  have hmem : n ∈ s.counted ++ (s.hands.toList ++ s.queue.queue).map Prod.fst := by
    rw [h.numbers]
    exact List.mem_range.mpr hn
  rw [List.map_append, List.mem_append, List.mem_append] at hmem
  rcases hmem with hmem | hmem | hmem
  · exact .inl hmem
  · obtain ⟨e, he, rfl⟩ := List.mem_map.mp hmem
    exact .inr (.inl ⟨e, Option.mem_toList.mp he, rfl⟩)
  · exact .inr (.inr hmem)

/-! What timely steps keep. -/

structure Drained (s : State E) : Prop where
  flushed : ∀ f ∈ s.flushed, ∀ n < f.1, n ∈ f.2
  mode : s.mode = .returned → s.queue.queue = [] ∧ s.hands = none
  returned : 0 < s.returned ∨ s.once = .done → s.mode = .returned

theorem drained_newReporter : Drained (newReporter : State E) :=
  ⟨fun _ h => absurd h List.not_mem_nil, nofun, fun h => by simp [newReporter] at h⟩

theorem Drained.offer (h : Drained s) (hmode : s.mode ≠ .returned) (e : E) :
    Drained (s.offer e) := by
  unfold State.offer
  split
  · exact ⟨h.flushed, fun hret => absurd hret hmode, h.returned⟩
  · exact ⟨h.flushed, h.mode, h.returned⟩
  · exact h

theorem Drained.look (h : Drained s) (hkept : Kept s) {i before : Nat}
    (hbefore : s.flushing[i]? = some before) (hqueue : s.queue.queue = [])
    (hhands : ∀ e ∈ s.hands, before ≤ e.1) :
    ∀ f ∈ s.flushed ++ [(before, s.counted)], ∀ n < f.1, n ∈ f.2 := by
  intro f hf n hn
  rcases List.mem_append.mp hf with hf | hf
  · exact h.flushed f hf n hn
  · obtain rfl := List.mem_singleton.mp hf
    have htaken := hkept.flushing before (List.mem_of_getElem? hbefore)
    rcases hkept.mem (Nat.lt_of_lt_of_le hn htaken) with hmem | ⟨e, he, rfl⟩ | hmem
    · exact hmem
    · exact absurd (hhands e he) (Nat.not_le.mpr hn)
    · rw [hqueue] at hmem
      contradiction

theorem Drained.step (h : Drained s) (hkept : Kept s) (htimely : Timely s a)
    (hstep : step rejects s a = some t) : Drained t := by
  cases a with
  | captureError err now =>
    cases err with
    | none =>
      cases hstep
      exact h
    | some e =>
      simp only [Reporter.step] at hstep
      split at hstep <;> cases hstep <;> exact ⟨h.flushed, h.mode, h.returned⟩
  | enqueue i =>
    obtain ⟨⟨e, panicked⟩, -, rfl⟩ := Option.map_eq_some_iff.mp hstep
    refine Drained.offer ?_ ?_ e
    · exact ⟨h.flushed, h.mode, h.returned⟩
    · exact htimely
  | look i =>
    obtain ⟨before, hbefore, rfl⟩ := Option.map_eq_some_iff.mp hstep
    split
    · next hqueue =>
      exact ⟨h.look hkept hbefore hqueue (htimely before hbefore hqueue), h.mode, h.returned⟩
    · exact h
  | timeout i =>
    obtain ⟨before, -, rfl⟩ := Option.map_eq_some_iff.mp hstep
    exact ⟨h.flushed, h.mode, h.returned⟩
  | shutdownStop =>
    simp only [Reporter.step] at hstep
    split at hstep
    · next honce =>
      obtain ⟨-, heq⟩ := Option.ite_none_right_eq_some.mp hstep
      cases heq
      refine ⟨h.flushed, h.mode, fun hret => h.returned (hret.imp_right nofun)⟩
    · cases hstep
  | shutdownDone =>
    simp only [Reporter.step] at hstep
    split at hstep
    · cases hstep
      exact ⟨h.flushed, h.mode, fun _ => ‹s.mode = .returned›⟩
    · cases hstep
  | shutdownAgain =>
    simp only [Reporter.step] at hstep
    split at hstep
    · next honce =>
      obtain ⟨-, heq⟩ := Option.ite_none_right_eq_some.mp hstep
      cases heq
      exact ⟨h.flushed, h.mode, fun _ => h.returned (.inr honce)⟩
    · cases hstep
  | stop =>
    simp only [Reporter.step] at hstep
    split at hstep
    · next hmode _ =>
      obtain ⟨-, heq⟩ := Option.ite_none_right_eq_some.mp hstep
      cases heq
      refine ⟨h.flushed, nofun, fun hret => ?_⟩
      have := h.returned hret
      rw [hmode] at this
      contradiction
    · cases hstep
  | take =>
    have hmode : s.mode ≠ .returned := by
      intro hmode
      simp only [Reporter.step, hmode] at hstep
      cases hstep
    simp only [Reporter.step] at hstep
    split at hstep
    · cases hstep
      exact ⟨h.flushed, fun hret => absurd hret hmode, h.returned⟩
    · cases hstep
      exact ⟨h.flushed, fun hret => absurd hret hmode, h.returned⟩
    · cases hstep
  | send accepted =>
    obtain ⟨e, he, rfl⟩ := Option.map_eq_some_iff.mp hstep
    have hmode : s.mode ≠ .returned := by
      intro hmode
      rw [(h.mode hmode).2] at he
      contradiction
    cases accepted <;> exact ⟨h.flushed, fun hret => absurd hret hmode, h.returned⟩
  | leave =>
    simp only [Reporter.step] at hstep
    split at hstep
    · next hqueue =>
      cases hstep
      exact ⟨h.flushed, fun _ => ⟨hqueue, ‹_›⟩, fun _ => rfl⟩
    · cases hstep
  | flushPanic =>
    obtain ⟨-, heq⟩ := Option.ite_none_right_eq_some.mp hstep
    cases heq
    exact ⟨h.flushed, h.mode, h.returned⟩
  | capturePanic | flush | shutdown =>
    cases hstep
    exact ⟨h.flushed, h.mode, h.returned⟩

theorem Kept.balanced (h : Kept s) : Balanced s := by
  intro hidle
  refine ⟨?_, fun n hn => ?_⟩
  · rw [h.captured, hidle.hands]
    rfl
  · rcases h.mem hn with hmem | ⟨e, he, -⟩ | hmem
    · exact .inl hmem
    · rw [hidle.hands] at he
      contradiction
    · exact .inr hmem

/-- After every run each capture is counted or in the queue between calls; and if all steps of
the run are timely, the events before a `Flush` that returned nil were counted, and the queue
is empty behind `Shutdown`. -/
theorem accounted_of_timely (rejects : Nat → Bool) (as : List (Label E)) (t : State E)
    (hrun : (reporter rejects).run as = some t) :
    Balanced t ∧ ((reporter rejects).Meets Timely newReporter as → Accounted t) := by
  have hkept : Kept t := run_keeps kept_newReporter (fun _ _ _ h => h.step) hrun
  refine ⟨hkept.balanced, fun hmeets => ?_⟩
  obtain ⟨-, hdrained⟩ := @runFrom_keeps_of_meets _ _ (reporter rejects)
    (fun s => Kept s ∧ Drained s) Timely
    (fun s a t h htimely hstep => ⟨h.1.step hstep, h.2.step h.1 htimely hstep⟩) _ _ _
    ⟨kept_newReporter, drained_newReporter⟩ hmeets hrun
  exact ⟨hkept.balanced, hdrained.flushed,
    fun hret => (hdrained.mode (hdrained.returned (.inl hret))).1⟩

def flushedAndShut : List (Label Unit) :=
  [.captureError (some ()) 0, .enqueue 0, .flush, .look 0, .take, .send true, .look 0, .shutdown,
    .shutdownStop, .stop, .leave, .shutdownDone]

theorem flushedAndShut_accounted : ∃ t, (reporter fun _ => false).run flushedAndShut = some t ∧
    t.flushed = [(1, [0])] ∧ t.returned = 1 ∧ Accounted t := by
  have hends : ((reporter fun _ => false).run flushedAndShut).map
      (fun t => (t.flushed, t.returned)) = some ([(1, [0])], 1) := by decide
  obtain ⟨t, hrun, hpair⟩ := Option.map_eq_some_iff.mp hends
  obtain ⟨hflushed, hreturned⟩ := Prod.mk.inj hpair
  exact ⟨t, hrun, hflushed, hreturned,
    (accounted_of_timely _ flushedAndShut t hrun).2 (by decide)⟩

/-- A flush while the sender holds the event, and a capture after the shutdown. -/
def flushedInFlight : List (Label Unit) :=
  [.captureError (some ()) 0, .enqueue 0, .take, .flush, .look 0, .send true, .shutdown,
    .shutdownStop, .stop, .leave, .shutdownDone, .captureError (some ()) 0, .enqueue 0]

/-- `Flush` returned nil with the event uncounted, and after `Shutdown` an event is left in
the queue. -/
theorem flushedInFlight_not_accounted :
    ∃ t, (reporter fun _ => false).run flushedInFlight = some t ∧ t.flushed = [(1, [])] ∧
      t.returned = 1 ∧ t.queue.queue ≠ [] ∧ ¬ Accounted t := by
  have hends : ((reporter fun _ => false).run flushedInFlight).map
      (fun t => (t.flushed, t.returned, t.queue.queue)) = some ([(1, [])], 1, [(1, ())]) := by
    decide
  obtain ⟨t, hrun, hvalues⟩ := Option.map_eq_some_iff.mp hends
  simp only [Prod.mk.injEq] at hvalues
  obtain ⟨hflushed, hreturned, hqueue⟩ := hvalues
  refine ⟨t, hrun, hflushed, hreturned, by simp [hqueue], fun h => ?_⟩
  have := h.flushed (1, []) (by simp [hflushed]) 0 Nat.zero_lt_one
  contradiction

end LearnPg.Background.Reporter
