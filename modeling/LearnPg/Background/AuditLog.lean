import LearnPg.Basis.Channel
import LearnPg.Basis.Runs

/-! The audit log: calls of `Log` and of `Close` from any goroutines and the worker, with
their steps in any order. -/
namespace LearnPg.Background.AuditLog
open LearnPg.Basis.Channel LearnPg.Basis.Runs

/-- What is logged; `F` stands for the maps of extra fields. -/
structure Record (F : Type) where
  action : String
  actor : String
  method : String
  path : String
  outcome : String
  reason : String
  fields : F
deriving DecidableEq

/-- Where `run` is: at the `range`, at the writing of a record, or behind the loop. -/
inductive Worker (F : Type) where
  | ranging
  | writing (r : Record F)
  | returned
deriving DecidableEq

structure Logger (F : Type) where
  sink : Chan (Record F)
  dropped : Nat
  once : Bool
  worker : Worker F
deriving DecidableEq

/-- `New`; the worker has started. -/
def newLogger (F : Type) : Logger F := ⟨Chan.make 256, 0, false, .ranging⟩

/-- A logger and the calls of its methods: the calls of `Log` in front of their `select`, by
their records, the calls of `Close` in front of `Do`, in front of `Wait` and returned, and
what came of them. -/
structure State (F : Type) where
  logger : Logger F
  logging : List (Record F)
  closing : Nat
  waiting : Nat
  closed : Nat
  logged : Nat
  written : List (Record F)
  panics : Nat
deriving DecidableEq

inductive Label (F : Type) where
  | log (action actor method path outcome : String) (fields : F)
  | select (i : Nat)
  | receive
  | write
  | close
  | closeOnce
  | closeWait

variable {F : Type}

/-- The `select` of `Log`. -/
def State.offer (s : State F) (r : Record F) : State F :=
  match s.logger.sink.offer r with
  | .sent sink => { s with logger := { s.logger with sink := sink } }
  | .full => { s with logger := { s.logger with dropped := s.logger.dropped + 1 } }
  | .panicked => { s with panics := s.panics + 1 }

/-- `l.close.Do`. -/
def State.closeSink (s : State F) : State F :=
  if s.logger.once then s
  else
    match s.logger.sink.close with
    | .ok sink => { s with logger := { s.logger with sink := sink, once := true } }
    | .error _ => { s with logger := { s.logger with once := true }, panics := s.panics + 1 }

def step (stripSecrets : F → F) (s : State F) : Label F → Option (State F)
  | .log action actor method path outcome fields =>
    let r : Record F := ⟨action, actor, method, path, outcome, "", stripSecrets fields⟩
    some { s with logging := s.logging ++ [r], logged := s.logged + 1 }
  | .select i =>
    s.logging[i]?.map fun r => { s with logging := s.logging.eraseIdx i }.offer r
  | .receive =>
    match s.logger.worker, s.logger.sink.receive with
    | .ranging, some (some r, sink) =>
      some { s with logger := { s.logger with sink := sink, worker := .writing r } }
    | .ranging, some (none, sink) =>
      some { s with logger := { s.logger with sink := sink, worker := .returned } }
    | _, _ => none
  | .write =>
    match s.logger.worker with
    | .writing r =>
      some { s with logger := { s.logger with worker := .ranging }, written := s.written ++ [r] }
    | _ => none
  | .close => some { s with closing := s.closing + 1 }
  | .closeOnce =>
    if 0 < s.closing then
      some { s with closing := s.closing - 1, waiting := s.waiting + 1 }.closeSink
    else none
  | .closeWait =>
    match s.logger.worker with
    | .returned =>
      if 0 < s.waiting then some { s with waiting := s.waiting - 1, closed := s.closed + 1 }
      else none
    | _ => none

def auditLog (stripSecrets : F → F) : Machine (State F) (Label F) where
  init := ⟨newLogger F, [], 0, 0, 0, 0, [], 0⟩
  step := step stripSecrets

def Unharmed (s : State F) : Prop := s.panics = 0

/-- No send on a closed channel, and once `Close` and all calls of `Log` have returned every
call is written or counted as dropped. -/
structure Accounted (s : State F) : Prop where
  unharmed : Unharmed s
  logged : 0 < s.closed → s.logging = [] → s.logged = s.written.length + s.logger.dropped

/-- A call of `Log` reaches its `select` while the channel is open. -/
def SendsOpen (s : State F) : Label F → Prop
  | .select _ => s.logger.sink.closed = false
  | _ => True

variable {s t : State F} {a : Label F} {stripSecrets : F → F}

instance : Decidable (SendsOpen s a) :=
  match a with
  | .select _ => inferInstanceAs (Decidable (_ = _))
  | .log .. | .receive | .write | .close | .closeOnce | .closeWait => .isTrue trivial

/-! Where the calls are. -/

def Worker.held : Worker F → Nat
  | .writing _ => 1
  | _ => 0

structure Tallied (s : State F) : Prop where
  logged : s.logged = s.logging.length + s.panics + s.logger.dropped +
    s.logger.sink.queue.length + s.logger.worker.held + s.written.length
  once : s.logger.sink.closed = s.logger.once
  drained : s.logger.worker = .returned → s.logger.sink.closed = true ∧ s.logger.sink.queue = []
  closed : 0 < s.closed → s.logger.worker = .returned

theorem tallied_init : Tallied (auditLog stripSecrets).init :=
  ⟨rfl, rfl, nofun, fun h => absurd h (Nat.lt_irrefl 0)⟩

theorem Tallied.select (h : Tallied s) {i : Nat} {r : Record F} (hi : s.logging[i]? = some r) :
    Tallied ({ s with logging := s.logging.eraseIdx i }.offer r) := by
  have hlen : (s.logging.eraseIdx i).length + 1 = s.logging.length := by
    obtain ⟨hlt, -⟩ := List.getElem?_eq_some_iff.mp hi
    rw [List.length_eraseIdx_of_lt hlt]
    omega
  have hlogged := h.logged
  unfold State.offer
  cases hoffer : s.logger.sink.offer r with
  | sent sink =>
    have hopen := offer_open hoffer
    obtain ⟨-, rfl⟩ := offer_sent hoffer
    refine ⟨?_, h.once, fun hret => ?_, h.closed⟩
    · simp only [List.length_append, List.length_singleton]
      omega
    · have := (h.drained hret).1
      rw [hopen] at this
      contradiction
  | full | panicked =>
    refine ⟨?_, h.once, h.drained, h.closed⟩
    simp only
    omega

theorem Tallied.closeSink (h : Tallied s) : Tallied s.closeSink := by
  unfold State.closeSink
  split
  · exact h
  · next hopen =>
    rw [close_open (by rw [h.once]; simpa using hopen)]
    exact ⟨h.logged, rfl, fun hret => ⟨rfl, (h.drained hret).2⟩, h.closed⟩

theorem Tallied.step (h : Tallied s) (hstep : step stripSecrets s a = some t) : Tallied t := by
  have hlogged := h.logged
  cases a with
  | log action actor method path outcome fields =>
    cases hstep
    refine ⟨?_, h.once, h.drained, h.closed⟩
    simp only [List.length_append, List.length_singleton]
    omega
  | select i =>
    obtain ⟨r, hr, rfl⟩ := Option.map_eq_some_iff.mp hstep
    exact h.select hr
  | receive =>
    cases hworker : s.logger.worker with
    | ranging =>
      cases hreceive : s.logger.sink.receive with
      | none => simp [AuditLog.step, hworker, hreceive] at hstep
      | some found =>
        obtain ⟨r, sink⟩ := found
        rw [hworker] at hlogged
        have hnot : s.closed = 0 := by
          by_contra hclosed
          have := h.closed (Nat.pos_of_ne_zero hclosed)
          rw [hworker] at this
          contradiction
        cases r with
        | some r =>
          simp only [AuditLog.step, hworker, hreceive, Option.some.injEq] at hstep
          subst hstep
          obtain ⟨rest, hqueue, rfl⟩ := receive_some hreceive
          rw [hqueue] at hlogged
          refine ⟨?_, h.once, nofun, fun hclosed => absurd hnot (Nat.ne_of_gt hclosed)⟩
          simp only [Worker.held, List.length_cons] at hlogged ⊢
          omega
        | none =>
          simp only [AuditLog.step, hworker, hreceive, Option.some.injEq] at hstep
          subst hstep
          obtain ⟨hqueue, hclosed, rfl⟩ := receive_none hreceive
          exact ⟨hlogged, h.once, fun _ => ⟨hclosed, hqueue⟩, fun _ => rfl⟩
    | writing r => simp [AuditLog.step, hworker] at hstep
    | returned => simp [AuditLog.step, hworker] at hstep
  | write =>
    cases hworker : s.logger.worker with
    | ranging => simp [AuditLog.step, hworker] at hstep
    | returned => simp [AuditLog.step, hworker] at hstep
    | writing r =>
      simp only [AuditLog.step, hworker, Option.some.injEq] at hstep
      subst hstep
      rw [hworker] at hlogged
      refine ⟨?_, h.once, nofun, fun hclosed => ?_⟩
      · simp only [Worker.held, List.length_append, List.length_singleton] at hlogged ⊢
        omega
      · have := h.closed hclosed
        rw [hworker] at this
        contradiction
  | close =>
    cases hstep
    exact ⟨h.logged, h.once, h.drained, h.closed⟩
  | closeOnce =>
    obtain ⟨-, heq⟩ := Option.ite_none_right_eq_some.mp hstep
    cases heq
    exact Tallied.closeSink ⟨h.logged, h.once, h.drained, h.closed⟩
  | closeWait =>
    cases hworker : s.logger.worker with
    | ranging => simp [AuditLog.step, hworker] at hstep
    | writing r => simp [AuditLog.step, hworker] at hstep
    | returned =>
      simp only [AuditLog.step, hworker, Option.ite_none_right_eq_some, Option.some.injEq] at hstep
      obtain ⟨-, rfl⟩ := hstep
      exact ⟨h.logged, h.once, h.drained, fun _ => hworker⟩

/-! Panics. -/

theorem offer_panics (s : State F) (r : Record F) :
    (s.offer r).panics = 0 ↔ s.panics = 0 ∧ s.logger.sink.closed = false := by
  unfold State.offer Chan.offer
  split
  · next sink hoffer =>
    split at hoffer
    · cases hoffer
    · next hopen => simp [hopen]
  · next hoffer =>
    split at hoffer
    · cases hoffer
    · next hopen => simp [hopen]
  · next hoffer =>
    split at hoffer
    · next hclosed => simp [hclosed]
    · split at hoffer <;> cases hoffer

theorem closeSink_panics (honce : s.logger.sink.closed = s.logger.once) :
    s.closeSink.panics = s.panics := by
  unfold State.closeSink
  split
  · rfl
  · next hopen => rw [close_open (by rw [honce]; simpa using hopen)]

theorem panics_step (h : Tallied s) (hstep : step stripSecrets s a = some t) :
    Unharmed t ↔ Unharmed s ∧ SendsOpen s a := by
  cases a with
  | select i =>
    obtain ⟨r, -, rfl⟩ := Option.map_eq_some_iff.mp hstep
    exact offer_panics _ r
  | closeOnce =>
    obtain ⟨-, heq⟩ := Option.ite_none_right_eq_some.mp hstep
    cases heq
    have hpanics := closeSink_panics
      (s := { s with closing := s.closing - 1, waiting := s.waiting + 1 }) h.once
    rw [Unharmed, hpanics]
    exact (and_iff_left trivial).symm
  | log action actor method path outcome fields =>
    cases hstep
    exact (and_iff_left trivial).symm
  | close =>
    cases hstep
    exact (and_iff_left trivial).symm
  | receive =>
    simp only [step] at hstep
    split at hstep <;> cases hstep <;> exact (and_iff_left trivial).symm
  | write =>
    simp only [step] at hstep
    split at hstep <;> cases hstep
    exact (and_iff_left trivial).symm
  | closeWait =>
    simp only [step] at hstep
    split at hstep
    · obtain ⟨-, heq⟩ := Option.ite_none_right_eq_some.mp hstep
      cases heq
      exact (and_iff_left trivial).symm
    · cases hstep

theorem Tallied.accounted_iff (h : Tallied t) : Accounted t ↔ Unharmed t := by
  refine ⟨Accounted.unharmed, fun hpanics => ⟨hpanics, fun hclosed hlogging => ?_⟩⟩
  have hworker := h.closed hclosed
  have hlogged := h.logged
  rw [hlogging, hpanics, hworker, (h.drained hworker).2] at hlogged
  simp only [Worker.held, List.length_nil] at hlogged
  omega

/-- After a run nothing was sent on a closed channel and, once `Close` and all calls of `Log`
have returned, every call is written or counted as dropped, exactly if each call of `Log`
came to its `select` while the channel was open. -/
theorem accounted_iff_sendsOpen (stripSecrets : F → F) (as : List (Label F)) (t : State F)
    (hrun : (auditLog stripSecrets).run as = some t) :
    Accounted t ↔
      (auditLog stripSecrets).Meets SendsOpen (auditLog stripSecrets).init as := by
  have htallied : Tallied t := run_keeps tallied_init (fun _ _ _ h => h.step) hrun
  have hinit : Unharmed (auditLog stripSecrets).init := rfl
  have hpanics : Unharmed t ↔ (auditLog stripSecrets).Meets SendsOpen _ as :=
    run_monitored (fun _ _ _ h => h.step) (fun _ _ _ => panics_step) tallied_init hinit hrun
  rw [htallied.accounted_iff]
  exact hpanics

/-- Two calls of `Log`, then `Close` from two goroutines while the records are written. -/
def closedTwice : List (Label Unit) :=
  [.log "pg.connect" "-" "POST" "/api/connect" "success" (),
    .log "pg.execute" "-" "POST" "/api/execute" "failure" (), .select 1, .select 0, .receive,
    .close, .closeOnce, .close, .write, .closeOnce, .receive, .write, .receive, .closeWait,
    .closeWait]

/-- Both records are written when `Close` has returned. -/
theorem closedTwice_accounted : ∃ t, (auditLog id).run closedTwice = some t ∧ t.closed = 2 ∧
    t.logging = [] ∧ Accounted t := by
  have hreturned : ((auditLog id).run closedTwice).map (fun t => (t.closed, t.logging)) =
      some (2, []) := by decide
  obtain ⟨t, hrun, hpair⟩ := Option.map_eq_some_iff.mp hreturned
  obtain ⟨hclosed, hlogging⟩ := Prod.mk.inj hpair
  exact ⟨t, hrun, hclosed, hlogging,
    (accounted_iff_sendsOpen id closedTwice t hrun).mpr (by decide)⟩

/-- A request is still in flight while the log is being closed. -/
def closedInFlight : List (Label Unit) :=
  [.log "pg.connect" "-" "POST" "/api/connect" "success" (), .close, .closeOnce, .receive,
    .closeWait, .select 0]

/-- Its call of `Log` sends on the closed channel, and its record is neither written nor
counted. -/
theorem closedInFlight_not_accounted :
    ∃ t, (auditLog id).run closedInFlight = some t ∧ t.panics = 1 ∧ t.closed = 1 ∧
      t.logging = [] ∧ t.logged ≠ t.written.length + t.logger.dropped ∧ ¬ Accounted t := by
  have hreturned : ((auditLog id).run closedInFlight).map (fun t =>
      (t.panics, t.closed, t.logging.length, t.logged, t.written.length, t.logger.dropped)) =
      some (1, 1, 0, 1, 0, 0) := by decide
  obtain ⟨t, hrun, hvalues⟩ := Option.map_eq_some_iff.mp hreturned
  simp only [Prod.mk.injEq, List.length_eq_zero_iff] at hvalues
  obtain ⟨hpanics, hclosed, hlogging, hlogged, hwritten, hdropped⟩ := hvalues
  have hlost : t.logged ≠ t.written.length + t.logger.dropped := by simp [*]
  exact ⟨t, hrun, hpanics, hclosed, hlogging, hlost,
    fun h => hlost (h.logged (by omega) hlogging)⟩

end LearnPg.Background.AuditLog
