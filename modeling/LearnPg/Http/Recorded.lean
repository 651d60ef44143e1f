import LearnPg.Http.Chain

/-! What the chain logs and counts about a request, beside what the client gets. -/
namespace LearnPg.Http.Recorded

open LearnPg.Basis LearnPg.RateLimit

structure Entry where
  requestID : String
  method : String
  path : String
  status : Nat

/-- What a counter of requests is incremented for. -/
structure Count where
  route : String
  method : String
  status : Nat

structure Watched where
  outcome : Outcome
  log : List Entry
  counted : List Count

abbrev WatchedHandler := Request → Writer → Header → Watched

def answered (actions : List Action) : Watched := ⟨⟨actions, false, []⟩, [], []⟩

def WatchedHandler.after (next : WatchedHandler) (actions : List Action) : WatchedHandler :=
  fun r w header =>
    let watched := next r w (header.acts actions)
    { watched with
      outcome := { watched.outcome with actions := actions ++ watched.outcome.actions } }

/-- `statusWriter.WriteHeader` and `statusRecorder.WriteHeader`; both hand `Write` on. -/
def statusAfter (statusCode : Nat) : Action → Nat
  | .writeHeader code => code
  | _ => statusCode

def recordedStatus (calls : List Action) : Nat := calls.foldl statusAfter 200

/-- Nothing is called on the writer that it wraps, and it reads the id of the request. -/
def logger (next : Handler) : WatchedHandler := fun r w header =>
  let outcome := next r w header
  if r.path = "/ws" then ⟨outcome, [], []⟩
  else
    let reqID := r.header.get "X-Request-Id"
    let entry : Entry := ⟨reqID, r.method, r.path, recordedStatus []⟩
    ⟨outcome, if outcome.panicked then [] else [entry], []⟩

def cors (cfg : CORSConfig) (next : WatchedHandler) : WatchedHandler := fun r w header =>
  if r.method = "OPTIONS" then answered (cfg.actions r ++ [.writeHeader 204])
  else next.after (cfg.actions r) r w header

def security (next : WatchedHandler) : WatchedHandler := next.after securityActions

def limiterMiddleware (limit : String) (decision : Request → Decision) (next : WatchedHandler) :
    WatchedHandler := fun r w header =>
  match decision r with
  | .exempt => next r w header
  | .admitted => next.after [.set "X-Ratelimit-Limit" limit] r w header
  | .denied secs => answered (rejection limit secs)

def httpMiddleware (labelsOk : String → String → Bool) (next : WatchedHandler) :
    WatchedHandler := fun r _ header =>
  let watched := next r ⟨false⟩ header
  let route := routeLabel r.path
  let count : Count := ⟨route, r.method, recordedStatus watched.outcome.actions⟩
  let panicked := watched.outcome.panicked || !labelsOk route r.method
  ⟨{ watched.outcome with panicked := panicked }, watched.log, if panicked then [] else [count]⟩

section

variable {F : Type} [Add F] [Sub F] [Mul F] [Div F] [LT F] [DecidableLT F] [LE F] [DecidableLE F]
  [OfNat F 0] [OfNat F 1] [OfNat F 20] [OfNat F 60]

/-- The chain of main, with what it logs and counts. -/
def watched (s : Server F) : WatchedHandler :=
  let finalHandler := requestID s.random (recover (called s.mux))
  let finalHandler := logger finalHandler
  let finalHandler := cors (corsConfig s.env) finalHandler
  let finalHandler := security finalHandler
  let finalHandler :=
    limiterMiddleware (s.formatFloat s.rateLimiter.capacity) s.decision finalHandler
  httpMiddleware s.labelsOk finalHandler

def received (s : Server F) (r : Request) (w : Writer) : Option Nat :=
  (serve s.finalHandler r w).map Reply.status

structure Agrees (s : Server F) (r : Request) (w : Writer) : Prop where
  logged : ∀ entry ∈ (watched s r w noHeader).log, received s r w = some entry.status
  counted : ∀ count ∈ (watched s r w noHeader).counted, received s r w = some count.status
  named : ∀ entry ∈ (watched s r w noHeader).log, ∀ reply, serve s.finalHandler r w = some reply →
    reply.header.get "X-Request-Id" = entry.requestID

/-- The status that the calls send, if they send one. -/
def sentStatus : List Action → Option Nat
  | [] => none
  | .writeHeader code :: calls =>
    if 100 ≤ code ∧ code < 200 ∧ code ≠ 101 then sentStatus calls else some code
  | .write _ :: _ => some 200
  | _ :: calls => sentStatus calls

/-- The status of the last `WriteHeader` among the calls. -/
def lastStatus : List Action → Option Nat
  | [] => none
  | .writeHeader code :: calls => some ((lastStatus calls).getD code)
  | _ :: calls => lastStatus calls

/-- The last status that the routes write is the one that they sent. -/
structure Repeats (outcome : Outcome) : Prop where
  returned : outcome.panicked = false →
    (sentStatus outcome.actions).getD 200 = (lastStatus outcome.actions).getD 200
  recovered : outcome.panicked = true → ∀ status, sentStatus outcome.actions = some status →
    status = 500

/-- The routes write the status 200 first and last, or leave it to be written, and do not panic. -/
structure Succeeds (outcome : Outcome) : Prop where
  returned : outcome.panicked = false
  sent : (sentStatus outcome.actions).getD 200 = 200
  last : (lastStatus outcome.actions).getD 200 = 200

/-- What a request must be like to be recorded as it was answered. -/
def Recordable (s : Server F) (r : Request) : Prop :=
  r.method = "OPTIONS" ∨ (∃ secs, s.decision r = .denied secs) ∨
  (if r.path = "/ws" then
    s.labelsOk (routeLabel r.path) r.method = true → Repeats (s.routed r)
  else
    s.labelsOk (routeLabel r.path) r.method = true ∧ Succeeds (s.routed r) ∧
      r.header.get "X-Request-Id" ≠ "")

variable {s : Server F} {r : Request} {w : Writer}

theorem watched_outcome (s : Server F) (r : Request) (w : Writer) :
    (watched s r w noHeader).outcome = s.finalHandler r w noHeader := by
  unfold watched httpMiddleware limiterMiddleware security cors logger WatchedHandler.after
    Server.finalHandler Server.chain Http.httpMiddleware Http.limiterMiddleware Http.security
    Http.cors Http.logger Handler.after
  cases s.decision r with
  | exempt => dsimp only; split <;> [rfl; (split <;> rfl)]
  | admitted => dsimp only; split <;> [rfl; (split <;> rfl)]
  | denied secs => rfl

/-! The calls of the routes, as the recorder and as the client see them. -/

theorem foldl_named {actions : List Action} (h : ∀ a ∈ actions, a.name.isSome) (code : Nat) :
    actions.foldl statusAfter code = code := by
  induction actions with
  | nil => rfl
  | cons a actions ih =>
    simp only [List.forall_mem_cons] at h
    have hcode : statusAfter code a = code := by
      cases a <;> first | rfl | cases h.1
    rw [List.foldl_cons, hcode, ih h.2]

theorem recordedStatus_eq (calls : List Action) :
    recordedStatus calls = (lastStatus calls).getD 200 := by
  suffices hfold : ∀ code, calls.foldl statusAfter code = (lastStatus calls).getD code from hfold 200
  induction calls with
  | nil => exact fun _ => rfl
  | cons a calls ih =>
    intro code
    rw [List.foldl_cons, ih]
    cases a <;> rfl

theorem recordedStatus_named {actions calls : List Action} (h : ∀ a ∈ actions, a.name.isSome) :
    recordedStatus (actions ++ calls) = recordedStatus calls := by
  unfold recordedStatus
  rw [List.foldl_append, foldl_named h]

theorem recordedStatus_recovery (calls : List Action) :
    recordedStatus (calls ++ recovery) = 500 := by
  unfold recordedStatus
  rw [List.foldl_append]
  rfl

theorem sent_acts {response : Response} (h : response.sent = none) (calls : List Action) :
    (response.acts calls).sent.map Prod.fst = sentStatus calls := by
  induction calls generalizing response with
  | nil => exact congrArg (Option.map Prod.fst) h
  | cons a calls ih =>
    cases a with
    | set name value => exact ih h
    | add name value => exact ih h
    | del name => exact ih h
    | write body =>
      have hsent : (response.act (.write body)).sent = some (200, response.header) := by
        simp [Response.act, Response.writeHeader, h]
      exact congrArg (Option.map Prod.fst) (acts_sent hsent calls)
    | writeHeader code =>
      change ((response.writeHeader code).acts calls).sent.map Prod.fst = _
      unfold sentStatus Response.writeHeader
      by_cases hinformational : 100 ≤ code ∧ code < 200 ∧ code ≠ 101
      · rw [if_pos (.inr hinformational), if_pos hinformational]
        exact ih h
      · have hunsent : ¬ response.sent.isSome = true := by simp [h]
        rw [if_neg (not_or.mpr ⟨hunsent, hinformational⟩), if_neg hinformational]
        have hsent : (⟨response.header, some (code, response.header), response.body⟩ :
            Response).sent = some (code, response.header) := rfl
        exact congrArg (Option.map Prod.fst) (acts_sent hsent calls)

theorem finish_status {response : Response} (h : response.sent = none) (calls : List Action) :
    (response.acts calls).finish.status = (sentStatus calls).getD 200 := by
  rw [← sent_acts h]
  unfold Response.finish
  cases (response.acts calls).sent <;> rfl

theorem sentStatus_named {actions calls : List Action} (h : ∀ a ∈ actions, a.name.isSome) :
    sentStatus (actions ++ calls) = sentStatus calls := by
  induction actions with
  | nil => rfl
  | cons a actions ih =>
    simp only [List.forall_mem_cons] at h
    have hrest := ih h.2
    cases a with
    | set name value => exact hrest
    | add name value => exact hrest
    | del name => exact hrest
    | writeHeader code => cases h.1
    | write body => cases h.1

theorem sentStatus_recovery (calls : List Action) :
    sentStatus (calls ++ recovery) = some ((sentStatus calls).getD 500) := by
  induction calls with
  | nil => rfl
  | cons a calls ih =>
    cases a with
    | set name value => exact ih
    | add name value => exact ih
    | del name => exact ih
    | write body => rfl
    | writeHeader code =>
      rw [List.cons_append]
      unfold sentStatus
      split
      next => exact ih
      next => rfl

section

variable (next : Handler) (header : Header)

/-- After `recover`, the status that is recorded is the one that is sent. -/
theorem repeats_iff : Repeats (next r w header) ↔
    (sentStatus (recover next r w header).actions).getD 200 =
      recordedStatus (recover next r w header).actions := by
  unfold recover
  dsimp only
  split
  next hpanicked =>
    rw [recordedStatus_recovery, sentStatus_recovery, Option.getD_some]
    constructor
    · intro h
      cases hsent : sentStatus (next r w header).actions with
      | none => rfl
      | some status => exact h.recovered hpanicked status hsent
    · intro h
      refine ⟨by simp [hpanicked], fun _ status hstatus => ?_⟩
      rwa [hstatus] at h
  next hreturned =>
    rw [Bool.not_eq_true] at hreturned
    rw [recordedStatus_eq]
    exact ⟨fun h => h.returned hreturned, fun h => ⟨fun _ => h, by simp [hreturned]⟩⟩

theorem succeeds_iff : Succeeds (next r w header) ↔
    (sentStatus (recover next r w header).actions).getD 200 = 200 ∧
      recordedStatus (recover next r w header).actions = 200 := by
  unfold recover
  dsimp only
  split
  next hpanicked =>
    rw [recordedStatus_recovery]
    refine iff_of_false (fun h => ?_) (by simp)
    rw [h.returned] at hpanicked
    cases hpanicked
  next hreturned =>
    rw [Bool.not_eq_true] at hreturned
    rw [recordedStatus_eq]
    exact ⟨fun h => ⟨h.sent, h.last⟩, fun h => ⟨hreturned, h.1, h.2⟩⟩

end

/-! The id of the response. -/

/-- The routes set no id but the one that they are given, as `writeJSON` and `writeError` do. -/
def KeepsID (mux : Handler) : Prop :=
  ∀ r w header, ∀ a ∈ (mux r w header).actions, a.name = some "X-Request-Id" →
    a = .set "X-Request-Id" (header.get "X-Request-Id")

theorem shows_acts {response : Response} {name value : String} {actions : List Action}
    (h : response.Shows name [value])
    (hset : ∀ a ∈ actions, a.name = some name → a = .set name value) :
    (response.acts actions).Shows name [value] := by
  induction actions generalizing response with
  | nil => exact h
  | cons a actions ih =>
    simp only [List.forall_mem_cons] at hset
    refine @ih (response.act a) ?_ hset.2
    by_cases hname : a.name = some name
    · rw [hset.1 hname]
      exact ⟨by simp [Response.act, Header.act, Header.with], h.2⟩
    · have hother : ∀ b ∈ [a], b.name ≠ some name := by simpa using hname
      exact h.acts hother

theorem header_id (s : Server F) (r : Request) :
    s.header r "X-Request-Id" = [idOf s.random r] := by
  unfold Server.header Server.before
  simp [Header.act, Header.with]

theorem replied_id (hmux : KeepsID s.mux) (r : Request) :
    (s.replied r).header.get "X-Request-Id" = idOf s.random r := by
  have hget : (s.header r).get "X-Request-Id" = idOf s.random r := by
    rw [Header.get, header_id]
    rfl
  have hrouted : (s.written r).Shows "X-Request-Id" [idOf s.random r] := by
    refine shows_acts ⟨header_id s r, by simp⟩ ?_
    rw [← hget]
    exact hmux r ⟨false⟩ (s.header r)
  unfold Server.replied Header.get
  split
  next =>
    have hrecovered := hrouted.acts (show ∀ a ∈ recovery, a.name ≠ some "X-Request-Id" by decide)
    rw [hrecovered.finish]
    rfl
  next =>
    rw [hrouted.finish]
    rfl

theorem generateID_ne (random : Fin 16 → UInt8) : generateID random ≠ "" := by
  simp [generateID, List.ofFn_succ]

theorem idOf_eq_iff (random : Fin 16 → UInt8) (r : Request) :
    idOf random r = r.header.get "X-Request-Id" ↔ r.header.get "X-Request-Id" ≠ "" := by
  unfold idOf
  dsimp only
  split
  next hempty => simp [hempty, generateID_ne]
  next hid => simp [hid]

/-! A request is denied, or answered as a preflight request, or gets to the routes. -/

theorem received_eq (s : Server F) (r : Request) (w : Writer) :
    received s r w = if (s.finalHandler r w noHeader).panicked then none else
      some ((sentStatus (s.finalHandler r w noHeader).actions).getD 200) := by
  unfold received serve
  dsimp only
  split
  next => rfl
  next => exact congrArg some (finish_status rfl _)

theorem counted_eq (s : Server F) (r : Request) (w : Writer) :
    (watched s r w noHeader).counted = if (s.finalHandler r w noHeader).panicked then [] else
      [⟨routeLabel r.path, r.method, recordedStatus (s.finalHandler r w noHeader).actions⟩] := by
  rw [← watched_outcome]
  rfl

/-- The counter is right if the last status that is written is the one that is sent. -/
theorem counted_iff (s : Server F) (r : Request) (w : Writer) :
    (∀ count ∈ (watched s r w noHeader).counted, received s r w = some count.status) ↔
      ((s.finalHandler r w noHeader).panicked = false →
        (sentStatus (s.finalHandler r w noHeader).actions).getD 200 =
          recordedStatus (s.finalHandler r w noHeader).actions) := by
  rw [counted_eq, received_eq]
  cases (s.finalHandler r w noHeader).panicked <;> simp

theorem agrees_denied (w : Writer) {secs : Int} (hdenied : s.decision r = .denied secs) :
    Agrees s r w := by
  have hlog : (watched s r w noHeader).log = [] := by
    unfold watched httpMiddleware limiterMiddleware
    rw [hdenied]
    rfl
  refine ⟨by simp [hlog], (counted_iff s r w).mpr fun _ => ?_, by simp [hlog]⟩
  unfold Server.finalHandler
  rw [chain_denied recover w hdenied]
  rfl

theorem agrees_preflight (w : Writer) (hmethod : r.method = "OPTIONS")
    (hadmitted : ∀ secs, s.decision r ≠ .denied secs) : Agrees s r w := by
  have hlog : (watched s r w noHeader).log = [] := by
    unfold watched httpMiddleware limiterMiddleware security cors WatchedHandler.after
    cases hd : s.decision r with
    | exempt => simp [hmethod, answered]
    | admitted => simp [hmethod, answered]
    | denied secs => exact absurd hd (hadmitted secs)
  refine ⟨by simp [hlog], (counted_iff s r w).mpr fun _ => ?_, by simp [hlog]⟩
  have hearly : ∀ a ∈ s.early r, a.name.isSome := fun a ha => (early_names s r a ha).1
  unfold Server.finalHandler
  rw [chain_preflight recover w hmethod hadmitted, sentStatus_named hearly,
    recordedStatus_named hearly]
  rfl

theorem log_through (w : Writer) (hmethod : r.method ≠ "OPTIONS")
    (hadmitted : ∀ secs, s.decision r ≠ .denied secs) :
    (watched s r w noHeader).log = if r.path = "/ws" then [] else
      [⟨r.header.get "X-Request-Id", r.method, r.path, 200⟩] := by
  have hreturns (w : Writer) (header : Header) :
      (requestID s.random (recover (called s.mux)) r w header).panicked = false := by
    unfold requestID Handler.after recover
    dsimp only
    split
    next => rfl
    next h => simpa using h
  unfold watched httpMiddleware limiterMiddleware security cors logger WatchedHandler.after
  cases hd : s.decision r with
  | exempt => by_cases hws : r.path = "/ws" <;> simp [hmethod, hws, hreturns, recordedStatus]
  | admitted => by_cases hws : r.path = "/ws" <;> simp [hmethod, hws, hreturns, recordedStatus]
  | denied secs => exact absurd hd (hadmitted secs)

theorem handled_through (w : Writer) (hmethod : r.method ≠ "OPTIONS")
    (hadmitted : ∀ secs, s.decision r ≠ .denied secs) :
    (s.finalHandler r w noHeader).panicked = !s.labelsOk (routeLabel r.path) r.method ∧
    sentStatus (s.finalHandler r w noHeader).actions =
      sentStatus (recover s.mux r ⟨false⟩ (s.header r)).actions ∧
    recordedStatus (s.finalHandler r w noHeader).actions =
      recordedStatus (recover s.mux r ⟨false⟩ (s.header r)).actions := by
  have hinner : recover (called s.mux) r ⟨false⟩ (s.header r) =
      ⟨(recover s.mux r ⟨false⟩ (s.header r)).actions, false, [⟨false⟩]⟩ := by
    unfold recover called
    dsimp only
    split
    next => rfl
    next h => simp [h]
  unfold Server.finalHandler
  rw [chain_through recover w hmethod hadmitted, hinner]
  dsimp only
  rw [sentStatus_named (before_named s r), recordedStatus_named (before_named s r),
    Bool.false_or]
  exact ⟨rfl, rfl, rfl⟩

theorem reply_id (hmux : KeepsID s.mux) (hmethod : r.method ≠ "OPTIONS")
    (hadmitted : ∀ secs, s.decision r ≠ .denied secs) {reply : Reply}
    (hreply : serve s.finalHandler r w = some reply) :
    reply.header.get "X-Request-Id" = idOf s.random r := by
  rw [serve_through w hmethod hadmitted] at hreply
  split at hreply
  next =>
    cases hreply
    exact replied_id hmux r
  next => cases hreply

theorem agrees_websocket (w : Writer) (hmethod : r.method ≠ "OPTIONS")
    (hadmitted : ∀ secs, s.decision r ≠ .denied secs) (hws : r.path = "/ws") :
    Agrees s r w ↔
      (s.labelsOk (routeLabel r.path) r.method = true → Repeats (s.routed r)) := by
  have hlog := log_through w hmethod hadmitted
  rw [if_pos hws] at hlog
  obtain ⟨hpanicked, hsent, hrecorded⟩ := handled_through w hmethod hadmitted
  have hcounted := counted_iff s r w
  rw [hpanicked, hsent, hrecorded, Bool.not_eq_false'] at hcounted
  unfold Server.routed
  rw [repeats_iff, ← hcounted]
  exact ⟨fun h => h.counted, fun h => ⟨by simp [hlog], h, by simp [hlog]⟩⟩

theorem agrees_logged (hmux : KeepsID s.mux) (w : Writer) (hmethod : r.method ≠ "OPTIONS")
    (hadmitted : ∀ secs, s.decision r ≠ .denied secs) (hws : r.path ≠ "/ws") :
    Agrees s r w ↔ s.labelsOk (routeLabel r.path) r.method = true ∧ Succeeds (s.routed r) ∧
      r.header.get "X-Request-Id" ≠ "" := by
  have hlog := log_through w hmethod hadmitted
  rw [if_neg hws] at hlog
  obtain ⟨hpanicked, hsent, hrecorded⟩ := handled_through w hmethod hadmitted
  have hcounted := counted_iff s r w
  rw [hpanicked, hsent, hrecorded, Bool.not_eq_false'] at hcounted
  have hreceived : received s r w = some 200 ↔
      s.labelsOk (routeLabel r.path) r.method = true ∧
        (sentStatus (recover s.mux r ⟨false⟩ (s.header r)).actions).getD 200 = 200 := by
    rw [received_eq, hpanicked, hsent]
    cases s.labelsOk (routeLabel r.path) r.method <;> simp
  unfold Server.routed
  rw [succeeds_iff]
  constructor
  · intro h
    obtain ⟨hlabels, hstatus⟩ := hreceived.mp (h.logged _ (by rw [hlog]; exact .head _))
    have hrepeats := hcounted.mp h.counted hlabels
    refine ⟨hlabels, ⟨hstatus, hrepeats ▸ hstatus⟩, (idOf_eq_iff s.random r).mp ?_⟩
    have hserve := serve_through (s := s) (r := r) w hmethod hadmitted
    rw [if_pos hlabels] at hserve
    rw [← reply_id hmux hmethod hadmitted hserve]
    exact h.named _ (by rw [hlog]; exact .head _) _ hserve
  · rintro ⟨hlabels, ⟨hstatus, hrecords⟩, hid⟩
    refine ⟨?_, hcounted.mpr fun _ => hstatus.trans hrecords.symm, ?_⟩
    · simpa [hlog] using hreceived.mpr ⟨hlabels, hstatus⟩
    · intro entry hentry reply hreply
      rw [hlog] at hentry
      rw [List.mem_singleton.mp hentry, reply_id hmux hmethod hadmitted hreply]
      exact (idOf_eq_iff s.random r).mpr hid

/-- What is recorded about exactly the recordable requests is what the client gets. -/
theorem agrees_iff_recordable (hmux : KeepsID s.mux) (r : Request) (w : Writer) :
    Agrees s r w ↔ Recordable s r := by
  by_cases hdenied : ∃ secs, s.decision r = .denied secs
  · obtain ⟨secs, hdenied⟩ := hdenied
    exact iff_of_true (agrees_denied w hdenied) (.inr (.inl ⟨secs, hdenied⟩))
  have hadmitted : ∀ secs, s.decision r ≠ .denied secs := fun secs h => hdenied ⟨secs, h⟩
  by_cases hmethod : r.method = "OPTIONS"
  · exact iff_of_true (agrees_preflight w hmethod hadmitted) (.inl hmethod)
  unfold Recordable
  simp only [hmethod, hdenied, false_or]
  split
  next hws => exact agrees_websocket w hmethod hadmitted hws
  next hws => exact agrees_logged hmux w hmethod hadmitted hws

end

def probe : Request :=
  ⟨"GET", "/health", "10.0.0.5:54321", noHeader.with "X-Request-Id" ["7f3a"]⟩

theorem probe_agrees : Agrees drained probe ⟨true⟩ := by
  have hmux : KeepsID drained.mux := by
    intro r w header a ha hname
    rw [List.mem_singleton.mp ha] at hname
    cases hname
  refine (agrees_iff_recordable hmux probe ⟨true⟩).mpr (.inr (.inr ?_))
  rw [if_neg (by decide)]
  exact ⟨rfl, ⟨rfl, rfl, rfl⟩, by decide⟩

def empty : Server ℚ := { drained with mux := fun _ _ _ => ⟨[.writeHeader 404], false, []⟩ }

theorem not_found_logged : ¬ Agrees empty probe ⟨true⟩ := by
  intro h
  have hlog : (watched empty probe ⟨true⟩ noHeader).log = [⟨"7f3a", "GET", "/health", 200⟩] := rfl
  have hreceived : received empty probe ⟨true⟩ = some 404 := by decide +kernel
  have hstatus := h.logged _ (by rw [hlog]; exact .head _)
  rw [hreceived] at hstatus
  cases hstatus

end LearnPg.Http.Recorded
