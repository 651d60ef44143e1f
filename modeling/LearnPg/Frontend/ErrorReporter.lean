import LearnPg.Basis.Runs
import LearnPg.Basis.Windows
import LearnPg.Frontend.ApiClient

/-! The reports of errors that the frontend collects and posts in batches. -/
namespace LearnPg.Frontend.ErrorReporter

open ApiClient Basis.Runs Basis.Windows

structure ErrorReporterConfig where
  endpoint : String
  maxBreadcrumbs : Int
  enabled : Bool

/-- Of what is given, and the defaults. -/
def configureErrorReporter (endpoint : Option String) (maxBreadcrumbs : Option Int)
    (enabled : Option Bool) : ErrorReporterConfig where
  endpoint := endpoint.getD "/api/telemetry/errors"
  maxBreadcrumbs := maxBreadcrumbs.getD 50
  enabled := enabled.getD true

structure Entry where
  breadcrumb : Breadcrumb
  timestamp : Nat
deriving DecidableEq

inductive Source where
  | uncaught | unhandledrejection | boundary | manual
deriving DecidableEq

/-- A value in a report's context. That of the error boundary is an object, whose `componentStack`
may be null; a member that is undefined is none. -/
inductive Detail where
  | datum (value : Datum)
  | members (members : List (String × Option Datum))
deriving DecidableEq

structure ErrorReport where
  message : String
  name : String
  stack : Option String
  source : Source
  url : Option String
  breadcrumbs : List Entry
  context : List (String × Detail)
  capturedAt : Nat
deriving DecidableEq

/-- What `reportError` is called with; `message`, `name` and `stack` are of the error, or of the
one made of anything else. -/
structure Input where
  message : String
  name : String
  stack : Option String
  source : Option Source
  context : List (String × Detail)
  url : Option String
  now : Nat

/-- A call of `client.post`; it is settled when its promise is. -/
structure Post where
  batch : List ErrorReport
  requestId : String
  settled : Bool

/-- The module's variables, and the posts. `accepted` and `added` record all reports and
breadcrumbs that were taken in. -/
structure State where
  queue : List ErrorReport
  breadcrumbs : List Entry
  flushTimer : Bool
  posts : List Post
  accepted : List ErrorReport
  added : List Entry

inductive Label where
  | reportError (input : Input)
  | addBreadcrumb (breadcrumb : Breadcrumb) (now : Nat)
  /-- The second is over. -/
  | timer (requestId : String) (now : Nat)
  | flushNow (requestId : String) (now : Nat)
  /-- The fetch of a post comes to an answer. -/
  | settle (post : Nat) (answer : Answer) (now : Nat)

/-- The client of the app, and `JSON.stringify` of a batch, which may throw. -/
structure Browser (J : Type) where
  json : JsonReader J
  client : ApiClientOptions
  stringify : List ErrorReport → Option String

section

variable {J : Type} (browser : Browser J) (activeConfig : ErrorReporterConfig)

def addBreadcrumb (breadcrumb : Breadcrumb) (now : Nat) (st : State) : State :=
  if activeConfig.enabled then
    let breadcrumbs := st.breadcrumbs ++ [⟨breadcrumb, now⟩]
    { st with
      breadcrumbs :=
        if activeConfig.maxBreadcrumbs < breadcrumbs.length then
          breadcrumbs.drop (breadcrumbs.length - activeConfig.maxBreadcrumbs).toNat
        else breadcrumbs
      added := st.added ++ [⟨breadcrumb, now⟩] }
  else st

def scheduleFlush (st : State) : State := { st with flushTimer := true }

def reportError (input : Input) (st : State) : State :=
  if activeConfig.enabled then
    let report : ErrorReport := {
      message := input.message
      name := input.name
      stack := input.stack
      source := input.source.getD .manual
      url := input.url
      breadcrumbs := st.breadcrumbs
      context := input.context
      capturedAt := input.now }
    scheduleFlush { st with
      queue := st.queue ++ [report]
      accepted := st.accepted ++ [report] }
  else st

/-- The request of a post, with the answer of its only fetch. -/
def postCall (batch : List ErrorReport) (requestId : String) (answer : Answer) : Call J where
  json := browser.json
  client := browser.client
  path := activeConfig.endpoint
  options := {
    method := some .post
    body := browser.stringify batch
    timeoutMs := some 3000
    retry := some false }
  world := {
    answer := fun _ => answer
    requestId := fun _ => requestId
    draw := fun _ => 0
    abort := .never }

/-- Up to the first `await`; the breadcrumb of the attempt does not depend on the answer. -/
def flush (requestId : String) (now : Nat) (st : State) : State :=
  if st.queue = [] then st
  else
    let post : Post := {
      batch := st.queue
      requestId
      -- nothing is fetched where the body cannot be written
      settled := (browser.stringify st.queue).isNone }
    addBreadcrumb activeConfig
      ((postCall browser activeConfig st.queue requestId (.rejected .aborted)).attemptBreadcrumb 0)
      now { st with queue := [], posts := st.posts ++ [post] }

def flushNow (requestId : String) (now : Nat) (st : State) : State :=
  flush browser activeConfig requestId now { st with flushTimer := false }

def crumb : Action → Option Breadcrumb
  | .breadcrumb breadcrumb => some breadcrumb
  | _ => none

def failureCrumbs (post : Post) (answer : Answer) : List Breadcrumb :=
  ((postCall browser activeConfig post.batch post.requestId answer).request.1.filterMap crumb).tail

/-- A post that is settled adds breadcrumbs only, whether it succeeded or not. -/
def settle (i : Nat) (answer : Answer) (now : Nat) (st : State) : Option State :=
  match st.posts[i]? with
  | none => none
  | some post =>
    if post.settled then none
    else some ((failureCrumbs browser activeConfig post answer).foldl
      (fun st breadcrumb => addBreadcrumb activeConfig breadcrumb now st)
      { st with posts := st.posts.set i { post with settled := true } })

def step (st : State) : Label → Option State
  | .reportError input => some (reportError activeConfig input st)
  | .addBreadcrumb breadcrumb now => some (addBreadcrumb activeConfig breadcrumb now st)
  | .timer requestId now =>
    if st.flushTimer then
      some (flush browser activeConfig requestId now { st with flushTimer := false })
    else none
  | .flushNow requestId now => some (flushNow browser activeConfig requestId now st)
  | .settle post answer now => settle browser activeConfig post answer now st

def errorReporter : Machine State Label where
  init := {
    queue := []
    breadcrumbs := []
    flushTimer := false
    posts := []
    accepted := []
    added := [] }
  step := step browser activeConfig

end

/-- Reports are in batches, in their order, or still in the queue; a timer will take the queue;
the breadcrumbs are the last ones. -/
structure Sound (activeConfig : ErrorReporterConfig) (st : State) : Prop where
  reports : (st.posts.map Post.batch).flatten ++ st.queue = st.accepted
  timer : st.queue ≠ [] → st.flushTimer = true
  breadcrumbs : st.breadcrumbs = st.added.rtake activeConfig.maxBreadcrumbs.toNat

section

variable {J : Type} {browser : Browser J} {activeConfig : ErrorReporterConfig} {st st' : State}

theorem Sound.addBreadcrumb (h : Sound activeConfig st) (breadcrumb : Breadcrumb) (now : Nat) :
    Sound activeConfig (addBreadcrumb activeConfig breadcrumb now st) := by
  unfold ErrorReporter.addBreadcrumb
  split
  · refine ⟨h.reports, h.timer, ?_⟩
    dsimp only
    rw [← rtake_concat, ← h.breadcrumbs, List.rtake]
    split
    · by_cases hmax : 0 ≤ activeConfig.maxBreadcrumbs
      · congr 1
        omega
      · rw [List.drop_eq_nil_of_le (by omega), List.drop_eq_nil_of_le (by omega)]
    · rw [Nat.sub_eq_zero_of_le (by omega), List.drop_zero]
  · exact h

theorem Sound.addBreadcrumbs (h : Sound activeConfig st) (breadcrumbs : List Breadcrumb)
    (now : Nat) : Sound activeConfig (breadcrumbs.foldl
      (fun st breadcrumb => ErrorReporter.addBreadcrumb activeConfig breadcrumb now st) st) := by
  induction breadcrumbs generalizing st with
  | nil => exact h
  | cons breadcrumb breadcrumbs ih => exact ih (h.addBreadcrumb breadcrumb now)

theorem Sound.reportError (h : Sound activeConfig st) (input : Input) :
    Sound activeConfig (reportError activeConfig input st) := by
  unfold ErrorReporter.reportError
  split
  · refine ⟨?_, fun _ => rfl, h.breadcrumbs⟩
    change (st.posts.map Post.batch).flatten ++ (st.queue ++ [_]) = st.accepted ++ [_]
    rw [← List.append_assoc, h.reports]
  · exact h

theorem Sound.flush (h : Sound activeConfig st) (requestId : String) (now : Nat) :
    Sound activeConfig (flush browser activeConfig requestId now { st with flushTimer := false }) := by
  unfold ErrorReporter.flush
  split
  next hempty => exact ⟨h.reports, fun hne => absurd hempty hne, h.breadcrumbs⟩
  next =>
    apply Sound.addBreadcrumb
    refine ⟨?_, fun hne => absurd rfl hne, h.breadcrumbs⟩
    rw [← h.reports]
    simp

theorem Sound.settle {i now : Nat} {answer : Answer} (h : Sound activeConfig st)
    (hstep : settle browser activeConfig i answer now st = some st') : Sound activeConfig st' := by
  unfold ErrorReporter.settle at hstep
  split at hstep
  next => cases hstep
  next post hpost =>
    split at hstep
    next => cases hstep
    next =>
      cases hstep
      apply Sound.addBreadcrumbs
      have hbatches : (st.posts.set i { post with settled := true }).map Post.batch =
          st.posts.map Post.batch := by
        obtain ⟨hi, hget⟩ := List.getElem?_eq_some_iff.mp hpost
        have hlt : i < (st.posts.map Post.batch).length := by simpa using hi
        have hbatch : post.batch = (st.posts.map Post.batch)[i] := by rw [List.getElem_map, hget]
        rw [List.map_set]
        dsimp only
        rw [hbatch, List.set_getElem_self]
      exact ⟨by rw [hbatches]; exact h.reports, h.timer, h.breadcrumbs⟩

theorem Sound.step {label : Label} (h : Sound activeConfig st)
    (hstep : step browser activeConfig st label = some st') : Sound activeConfig st' := by
  cases label with
  | reportError input =>
    cases hstep
    exact h.reportError input
  | addBreadcrumb breadcrumb now =>
    cases hstep
    exact h.addBreadcrumb breadcrumb now
  | timer requestId now =>
    unfold ErrorReporter.step at hstep
    dsimp only at hstep
    split at hstep
    · cases hstep
      exact h.flush requestId now
    · cases hstep
  | flushNow requestId now =>
    cases hstep
    exact h.flush requestId now
  | settle post answer now => exact h.settle hstep

/-- What is taken in is in the queue or in one batch. -/
theorem Sound.count (h : Sound activeConfig st) (report : ErrorReport) :
    st.accepted.count report =
      (st.posts.map fun post => post.batch.count report).sum + st.queue.count report := by
  rw [← h.reports, List.count_append, List.count_flatten, List.map_map]
  rfl

/-- So it is after every run. -/
theorem reporter_sound {labels : List Label}
    (hrun : (errorReporter browser activeConfig).run labels = some st) :
    (st.posts.map Post.batch).flatten ++ st.queue = st.accepted ∧
      (∀ report, st.accepted.count report =
        (st.posts.map fun post => post.batch.count report).sum + st.queue.count report) ∧
      (st.queue ≠ [] → st.flushTimer = true) ∧
      st.breadcrumbs = st.added.rtake activeConfig.maxBreadcrumbs.toNat := by
  have hinit : Sound activeConfig (errorReporter browser activeConfig).init :=
    ⟨rfl, fun h => absurd rfl h, (List.rtake_nil _).symm⟩
  have hsound : Sound activeConfig st := run_keeps hinit (fun _ _ _ h => h.step) hrun
  exact ⟨hsound.reports, hsound.count, hsound.timer, hsound.breadcrumbs⟩

end

def sameOrigin : Browser Unit where
  json := { parse := fun _ => .ok (), member := fun _ _ => none }
  client := { baseUrl := "" }
  stringify := fun _ => some "reports"

def clickFailed (now : Nat) : Input where
  message := "undefined is not a function"
  name := "TypeError"
  stack := none
  source := none
  context := []
  url := none
  now

/-- The post of the first error fails after the second error is taken in. -/
theorem reporter_sound_fails : ∃ st,
    (errorReporter sameOrigin (configureErrorReporter none (some 1) none)).run
      [.reportError (clickFailed 0), .flushNow "req" 10, .reportError (clickFailed 20),
        .settle 0 (.rejected .aborted) 3010] = some st ∧
      st.flushTimer = true ∧ st.breadcrumbs = st.added.rtake 1 ∧
      (st.posts.map Post.batch).flatten ++ st.queue = st.accepted ∧ st.accepted.length = 2 := by
  refine ⟨_, rfl, ?_⟩
  obtain ⟨hreports, -, htimer, hbreadcrumbs⟩ :=
    @reporter_sound _ sameOrigin (configureErrorReporter none (some 1) none) _
      [.reportError (clickFailed 0), .flushNow "req" 10, .reportError (clickFailed 20),
        .settle 0 (.rejected .aborted) 3010] rfl
  exact ⟨htimer (List.cons_ne_nil _ _), hbreadcrumbs, hreports, rfl⟩

end LearnPg.Frontend.ErrorReporter
