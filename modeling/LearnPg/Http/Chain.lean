import LearnPg.Basis.HexText
import LearnPg.Http.Origins
import LearnPg.RateLimit.Limiter

/-! The middleware around the routes, as main wraps one around the other: the last that is
wrapped is the first that a request meets. -/
namespace LearnPg.Http

open LearnPg.Basis LearnPg.Basis.Maps LearnPg.RateLimit

def recovery : List Action :=
  [.set "Content-Type" "application/json", .writeHeader 500,
    .write "\x7b\"error\":\"internal server error\"\x7d"]

def recover (next : Handler) : Handler := fun r w header =>
  let outcome := next r w header
  if outcome.panicked then ⟨outcome.actions ++ recovery, false, outcome.handed⟩
  else outcome

def generateID (random : Fin 16 → UInt8) : String :=
  .ofList ((List.ofFn random).flatMap fun b =>
    [HexText.lowerDigit (b.toNat / 16), HexText.lowerDigit (b.toNat % 16)])

def idOf (random : Fin 16 → UInt8) (r : Request) : String :=
  let id := r.header.get "X-Request-Id"
  if id = "" then generateID random else id

def requestID (random : Fin 16 → UInt8) (next : Handler) : Handler := fun r w header =>
  next.after [.set "X-Request-Id" (idOf random r)] r w header

/-- The writer that it wraps is not the one that it hands on. -/
def logger (next : Handler) : Handler := next

def securityActions : List Action :=
  [.set "X-Content-Type-Options" "nosniff", .set "X-Frame-Options" "DENY",
    .set "Referrer-Policy" "no-referrer",
    .set "Content-Security-Policy" "default-src 'none'; frame-ancestors 'none'"]

def security (next : Handler) : Handler := next.after securityActions

/-- `http.Error`. -/
def httpError (text : String) (code : Nat) : List Action :=
  [.del "Content-Length", .set "Content-Type" "text/plain; charset=utf-8",
    .set "X-Content-Type-Options" "nosniff", .writeHeader code, .write (text ++ "\n")]

/-- The answer of the limiter's middleware, by what is decided. -/
def limiterMiddleware (limit : String) (decision : Request → Decision) (next : Handler) : Handler :=
  fun r w header =>
    match decision r with
    | .exempt => next r w header
    | .admitted => next.after [.set "X-Ratelimit-Limit" limit] r w header
    | .denied secs => ⟨[.set "X-Ratelimit-Limit" limit, .set "Retry-After" (toString secs)] ++
        httpError "rate limit exceeded" 429, false, []⟩

/-- Such segments are of ASCII, so that their bytes are their characters. -/
def isIDLike (s : List Char) : Bool :=
  s.all Char.isAlphanum && 4 ≤ s.countP Char.isDigit && 4 ≤ s.countP Char.isAlpha

def routeLabel (p : String) : String :=
  let segments := p.toList.splitOn '/'
  let isID (s : List Char) : Bool := 16 ≤ s.length && isIDLike s
  if segments.any isID then
    .ofList (['/'].intercalate (segments.map fun s =>
      if isID s then "\x7bid\x7d".toList else s))
  else p

/-- The recorder offers nothing but writing. `WithLabelValues` panics on labels that are
not `labelsOk`; the third label, the status, always is. -/
def httpMiddleware (labelsOk : String → String → Bool) (next : Handler) : Handler :=
  fun r _ header =>
    let outcome := next r ⟨false⟩ header
    { outcome with panicked := outcome.panicked || !labelsOk (routeLabel r.path) r.method }

/-- What the chain meets: the environment, the state of the limiter and the readings of the
clock, the random bytes of an id, the metrics and the routes. -/
structure Server (F : Type) where
  env : Env
  floats : Floats F
  formatFloat : F → String
  buckets : Map BucketKey (Bucket F)
  now : Time
  created : Time
  random : Fin 16 → UInt8
  labelsOk : String → String → Bool
  mux : Handler

def called (mux : Handler) : Handler := fun r w header => { mux r w header with handed := [w] }

section

variable {F : Type} [Add F] [Sub F] [Mul F] [Div F] [LT F] [DecidableLT F] [LE F] [DecidableLE F]
  [OfNat F 0] [OfNat F 1] [OfNat F 20] [OfNat F 60]

def Server.rateLimiter (s : Server F) : Limiter F :=
  { new ⟨60, 20, none, none⟩ with buckets := s.buckets }

def Server.decision (s : Server F) (r : Request) : Decision :=
  (s.rateLimiter.limit s.floats ⟨r, s.now, s.created⟩).2

/-- The chain of main, with a guard in the place of `recover`. -/
def Server.chain (s : Server F) (guard : Handler → Handler) : Handler :=
  let finalHandler := guard (called s.mux)
  let finalHandler := requestID s.random finalHandler
  let finalHandler := logger finalHandler
  let finalHandler := cors (corsConfig s.env) finalHandler
  let finalHandler := security finalHandler
  let finalHandler :=
    limiterMiddleware (s.formatFloat s.rateLimiter.capacity) s.decision finalHandler
  httpMiddleware s.labelsOk finalHandler

def Server.finalHandler (s : Server F) : Handler := s.chain recover

/-- The id of a request, and the headers that the policy of its origin sets. -/
def Carries (cfg : CORSConfig) (r : Request) (header : Header) : Prop :=
  header.get "X-Request-Id" ≠ "" ∧
    ∀ name value, .set name value ∈ cfg.actions r → header.get name = value

/-- What the order of the chain promises. -/
structure Promises (s : Server F) (r : Request) (w : Writer) : Prop where
  preflight : r.method = "OPTIONS" →
    ∀ reply, serve s.finalHandler r w = some reply → reply.status ≠ 429
  headers : ∀ reply, serve s.finalHandler r w = some reply →
    Carries (corsConfig s.env) r reply.header
  panics : (s.chain id r w noHeader).panicked = true →
    ∃ reply, serve s.finalHandler r w = some reply ∧ reply.status = 500
  hijack : r.path = "/ws" → w.hijacker = true →
    ∀ handed ∈ (s.finalHandler r w noHeader).handed, handed.hijacker = true

/-- What is done before the routes see the request; a preflight request is answered before
it gets its id. -/
def Server.early (s : Server F) (r : Request) : List Action :=
  (if s.decision r = .admitted then
    [.set "X-Ratelimit-Limit" (s.formatFloat s.rateLimiter.capacity)] else []) ++
  securityActions ++ (corsConfig s.env).actions r

def Server.before (s : Server F) (r : Request) : List Action :=
  s.early r ++ [.set "X-Request-Id" (idOf s.random r)]

def Server.header (s : Server F) (r : Request) : Header := noHeader.acts (s.before r)

def Server.routed (s : Server F) (r : Request) : Outcome := s.mux r ⟨false⟩ (s.header r)

def Server.written (s : Server F) (r : Request) : Response :=
  Response.acts ⟨s.header r, none, []⟩ (s.routed r).actions

/-- The request gets through to the routes, does not need a connection to take over, and
the routes leave the headers alone and do not panic after they have sent a status. -/
structure Through (s : Server F) (r : Request) (w : Writer) : Prop where
  labels : s.labelsOk (routeLabel r.path) r.method = true
  method : r.method ≠ "OPTIONS"
  admitted : ∀ secs, s.decision r ≠ .denied secs
  writer : ¬ (r.path = "/ws" ∧ w.hijacker = true)
  keeps : Carries (corsConfig s.env) r (s.written r).finish.header
  unsent : (s.routed r).panicked = true → ∀ sent, (s.written r).sent = some sent → sent.1 = 500

variable {s : Server F} {r : Request} {w : Writer} {guard : Handler → Handler}

theorem chain_through (guard : Handler → Handler) (w : Writer) (hmethod : r.method ≠ "OPTIONS")
    (hadmitted : ∀ secs, s.decision r ≠ .denied secs) :
    s.chain guard r w noHeader =
      let outcome := guard (called s.mux) r ⟨false⟩ (s.header r)
      ⟨s.before r ++ outcome.actions,
        outcome.panicked || !s.labelsOk (routeLabel r.path) r.method, outcome.handed⟩ := by
  unfold Server.chain httpMiddleware limiterMiddleware security cors logger requestID Handler.after
    Server.header Server.before Server.early
  cases hd : s.decision r with
  | exempt => simp [hmethod]
  | admitted => simp [hmethod]
  | denied secs => exact absurd hd (hadmitted secs)

theorem chain_preflight (guard : Handler → Handler) (w : Writer) (hmethod : r.method = "OPTIONS")
    (hadmitted : ∀ secs, s.decision r ≠ .denied secs) :
    s.chain guard r w noHeader = ⟨s.early r ++ [.writeHeader 204],
      !s.labelsOk (routeLabel r.path) r.method, []⟩ := by
  unfold Server.chain httpMiddleware limiterMiddleware security cors Handler.after Server.early
  cases hd : s.decision r with
  | exempt => simp [hmethod]
  | admitted => simp [hmethod]
  | denied secs => exact absurd hd (hadmitted secs)

def rejection (limit : String) (secs : Int) : List Action :=
  [.set "X-Ratelimit-Limit" limit, .set "Retry-After" (toString secs)] ++
    httpError "rate limit exceeded" 429

theorem chain_denied (guard : Handler → Handler) (w : Writer) {secs : Int}
    (hdenied : s.decision r = .denied secs) :
    s.chain guard r w noHeader = ⟨rejection (s.formatFloat s.rateLimiter.capacity) secs,
      !s.labelsOk (routeLabel r.path) r.method, []⟩ := by
  unfold Server.chain httpMiddleware limiterMiddleware rejection
  simp [hdenied]

theorem not_promises {actions : List Action}
    (hchain : ∀ guard, s.chain guard r w noHeader =
      ⟨actions, !s.labelsOk (routeLabel r.path) r.method, []⟩)
    (hnames : ∀ a ∈ actions, a.name ≠ some "X-Request-Id") : ¬ Promises s r w := by
  intro h
  have hserve : serve s.finalHandler r w = if s.labelsOk (routeLabel r.path) r.method then
      some (Response.acts ⟨noHeader, none, []⟩ actions).finish else none := by
    unfold serve Server.finalHandler
    rw [hchain]
    cases s.labelsOk (routeLabel r.path) r.method <;> rfl
  cases hlabels : s.labelsOk (routeLabel r.path) r.method with
  | true =>
    rw [if_pos hlabels] at hserve
    have hshows : Response.Shows ⟨noHeader, none, []⟩ "X-Request-Id" [] := ⟨rfl, nofun⟩
    apply (h.headers _ hserve).1
    unfold Header.get
    rw [(hshows.acts hnames).finish]
    rfl
  | false =>
    rw [hlabels] at hserve
    obtain ⟨reply, hreply, -⟩ := h.panics (by rw [hchain, hlabels]; rfl)
    rw [hserve] at hreply
    cases hreply

theorem early_names (s : Server F) (r : Request) :
    ∀ a ∈ s.early r, a.name.isSome ∧ a.name ≠ some "X-Request-Id" := by
  intro a ha
  unfold Server.early at ha
  simp only [List.mem_append] at ha
  rcases ha with (ha | ha) | ha
  · split at ha
    · rw [List.mem_singleton.mp ha]
      simp [Action.name]
    · cases ha
  · revert a
    decide
  · obtain ⟨name, hname, hsome⟩ := actions_names _ r a ha
    rw [hsome]
    refine ⟨rfl, fun hsame => ?_⟩
    cases hsame
    revert hname
    decide

theorem before_named (s : Server F) (r : Request) : ∀ a ∈ s.before r, a.name.isSome := by
  intro a ha
  obtain ha | ha := List.mem_append.mp ha
  · exact (early_names s r a ha).1
  · rw [List.mem_singleton.mp ha]
    rfl

def Server.replied (s : Server F) (r : Request) : Reply :=
  if (s.routed r).panicked then ((s.written r).acts recovery).finish else (s.written r).finish

theorem serve_through (w : Writer) (hmethod : r.method ≠ "OPTIONS")
    (hadmitted : ∀ secs, s.decision r ≠ .denied secs) :
    serve s.finalHandler r w =
      if s.labelsOk (routeLabel r.path) r.method then some (s.replied r) else none := by
  have hbefore (actions : List Action) :
      Response.acts ⟨noHeader, none, []⟩ (s.before r ++ actions) =
        Response.acts ⟨s.header r, none, []⟩ actions := by
    rw [acts_append, acts_unsent (before_named s r)]
    rfl
  unfold serve Server.finalHandler
  rw [chain_through recover w hmethod hadmitted]
  unfold recover called Server.replied Server.written Server.routed
  cases hpanicked : (s.mux r ⟨false⟩ (s.header r)).panicked <;>
    cases s.labelsOk (routeLabel r.path) r.method <;> simp [hpanicked, hbefore, acts_append]

theorem recovery_sent {response : Response} {sent : Nat × Header} (h : response.sent = some sent) :
    (response.acts recovery).finish.status = sent.1 ∧
      (response.acts recovery).finish.header = response.finish.header := by
  unfold Response.finish
  rw [acts_sent h, h]
  exact ⟨rfl, rfl⟩

theorem recovery_unsent {response : Response} (h : response.sent = none) :
    (response.acts recovery).finish.status = 500 ∧
      (response.acts recovery).finish.header =
        response.finish.header.with "Content-Type" ["application/json"] := by
  simp [recovery, Response.acts, Response.act, Response.writeHeader, Response.finish, h, Header.act]

theorem carries_with {cfg : CORSConfig} {header : Header} {values : List String} :
    Carries cfg r (header.with "Content-Type" values) ↔ Carries cfg r header := by
  have hsets (name value : String) (h : .set name value ∈ cfg.actions r) :
      name ≠ "Content-Type" := by
    rintro rfl
    obtain ⟨name, hname, hsame⟩ := actions_names _ r _ h
    cases hsame
    revert hname
    decide
  unfold Carries
  rw [get_with_ne (by decide)]
  refine and_congr_right fun _ => forall₂_congr fun name value => ?_
  exact forall_congr' fun h => by rw [get_with_ne (hsets name value h)]

theorem replied_carries (s : Server F) (r : Request) (cfg : CORSConfig) :
    Carries cfg r (s.replied r).header ↔ Carries cfg r (s.written r).finish.header := by
  unfold Server.replied
  split
  next =>
    cases hsent : (s.written r).sent with
    | some sent => rw [(recovery_sent hsent).2]
    | none => rw [(recovery_unsent hsent).2, carries_with]
  next => rfl

theorem replied_status (h : (s.routed r).panicked = true) :
    (s.replied r).status = 500 ↔ ∀ sent, (s.written r).sent = some sent → sent.1 = 500 := by
  unfold Server.replied
  rw [if_pos h]
  cases hsent : (s.written r).sent with
  | some sent => simp [(recovery_sent hsent).1]
  | none => simp [(recovery_unsent hsent).1]

/-- The chain keeps its promises to exactly the requests that get through. -/
theorem promises_iff_through (s : Server F) (r : Request) (w : Writer) :
    Promises s r w ↔ Through s r w := by
  by_cases hdenied : ∃ secs, s.decision r = .denied secs
  · obtain ⟨secs, hdenied⟩ := hdenied
    refine iff_of_false (not_promises (fun guard => chain_denied guard w hdenied) ?_)
      fun h => h.admitted secs hdenied
    unfold rejection httpError
    simp [Action.name]
  have hadmitted : ∀ secs, s.decision r ≠ .denied secs := fun secs h => hdenied ⟨secs, h⟩
  by_cases hmethod : r.method = "OPTIONS"
  · refine iff_of_false (not_promises (fun guard => chain_preflight guard w hmethod hadmitted) ?_)
      fun h => h.method hmethod
    intro a ha
    obtain ha | ha := List.mem_append.mp ha
    · exact (early_names s r a ha).2
    · rw [List.mem_singleton.mp ha]
      exact nofun
  have hserve := serve_through w hmethod hadmitted
  have hpanics : (s.chain id r w noHeader).panicked =
      ((s.routed r).panicked || !s.labelsOk (routeLabel r.path) r.method) := by
    rw [chain_through id w hmethod hadmitted]
    rfl
  have hhanded : (s.finalHandler r w noHeader).handed = [⟨false⟩] := by
    unfold Server.finalHandler
    rw [chain_through recover w hmethod hadmitted]
    unfold recover called
    dsimp only
    split <;> rfl
  constructor
  · intro h
    have hlabels : s.labelsOk (routeLabel r.path) r.method = true := by
      by_contra hbad
      rw [if_neg hbad] at hserve
      rw [Bool.not_eq_true] at hbad
      obtain ⟨reply, hreply, -⟩ := h.panics (by rw [hpanics, hbad, Bool.not_false, Bool.or_true])
      rw [hserve] at hreply
      cases hreply
    rw [if_pos hlabels] at hserve
    refine ⟨hlabels, hmethod, hadmitted, fun ⟨hws, hw⟩ => ?_, ?_, fun hpanicked => ?_⟩
    · have hfalse := h.hijack hws hw ⟨false⟩ (by rw [hhanded]; exact List.mem_singleton_self _)
      cases hfalse
    · exact (replied_carries s r _).mp (h.headers _ hserve)
    · obtain ⟨reply, hreply, hstatus⟩ := h.panics (by rw [hpanics, hpanicked, Bool.true_or])
      rw [hserve] at hreply
      cases hreply
      exact (replied_status hpanicked).mp hstatus
  · intro h
    rw [if_pos h.labels] at hserve
    refine ⟨fun hoptions => absurd hoptions hmethod, ?_, fun hpanicked => ?_, fun hws hw => ?_⟩
    · intro reply hreply
      rw [hserve] at hreply
      cases hreply
      exact (replied_carries s r _).mpr h.keeps
    · rw [hpanics, h.labels, Bool.not_true, Bool.or_false] at hpanicked
      exact ⟨_, hserve, (replied_status hpanicked).mpr (h.unsent hpanicked)⟩
    · exact absurd ⟨hws, hw⟩ h.writer

end

/-- A server whose limiter has no token left for one client. -/
def drained : Server ℚ where
  env := ⟨"", ""⟩
  floats := rationals
  formatFloat := fun _ => "60"
  buckets := Finmap.singleton ⟨"10.0.0.5", "api"⟩ ⟨0, 60, 20, 0⟩
  now := 0
  created := 0
  random := fun _ => 0
  labelsOk := fun _ _ => true
  mux := fun _ _ _ => ⟨[.writeHeader 200], false, []⟩

theorem preflight_limited :
    ¬ Promises drained ⟨"OPTIONS", "/api/workspace", "10.0.0.5:54321", noHeader⟩ ⟨true⟩ := by
  intro h
  have hrun : (serve drained.finalHandler
      ⟨"OPTIONS", "/api/workspace", "10.0.0.5:54321", noHeader⟩ ⟨true⟩).map (·.status) =
      some 429 := by
    decide +kernel
  obtain ⟨reply, hreply, hstatus⟩ := Option.map_eq_some_iff.mp hrun
  exact h.preflight rfl reply hreply hstatus

end LearnPg.Http
