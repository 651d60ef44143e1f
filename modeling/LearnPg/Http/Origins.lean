import LearnPg.Api.Provision
import LearnPg.Http.Message

/-! Which origins a browser may come from: the CORS middleware and the upgrade to a
WebSocket read the same list, each in its own way. -/
namespace LearnPg.Http

open LearnPg.Api (trimSpace)

structure CORSConfig where
  allowedOrigins : List String
  allowedMethods : List String
  allowedHeaders : List String
  allowCredentials : Bool

def defaultCORSConfig : CORSConfig where
  allowedOrigins := ["*"]
  allowedMethods := ["GET", "POST", "PUT", "DELETE", "OPTIONS"]
  allowedHeaders := ["Content-Type", "X-Request-ID", "X-API-Key"]
  allowCredentials := false

def orDefaults (values defaults : List String) : List String :=
  if values = [] then defaults else values

/-- The headers of the policy. A wildcard is dropped with credentials. -/
def CORSConfig.actions (cfg : CORSConfig) (r : Request) : List Action :=
  let origin := r.header.get "Origin"
  let wildcard := "*" ∈ cfg.allowedOrigins ∧ ¬ cfg.allowCredentials
  (if wildcard then [.set "Access-Control-Allow-Origin" "*"]
    else if origin ≠ "" ∧ origin ∈ cfg.allowedOrigins then
      [.set "Access-Control-Allow-Origin" origin, .add "Vary" "Origin"]
    else []) ++
  [.set "Access-Control-Allow-Methods" (", ".intercalate
      (orDefaults cfg.allowedMethods defaultCORSConfig.allowedMethods)),
    .set "Access-Control-Allow-Headers" (", ".intercalate
      (orDefaults cfg.allowedHeaders defaultCORSConfig.allowedHeaders))] ++
  if cfg.allowCredentials then [.set "Access-Control-Allow-Credentials" "true"] else []

/-- A preflight request is answered at once. -/
def cors (cfg : CORSConfig) (next : Handler) : Handler := fun r w header =>
  if r.method = "OPTIONS" then ⟨cfg.actions r ++ [.writeHeader 204], false, []⟩
  else next.after (cfg.actions r) r w header

/-- The variables that main reads; unset is empty. -/
structure Env where
  corsAllowedOrigins : String
  corsAllowCredentials : String

def splitAndTrim (s : String) (sep : Char) : List String :=
  ((s.toList.splitOn sep).map fun part => trimSpace (.ofList part)).filter (· ≠ "")

def parseAllowedOrigins (env : Env) : List String :=
  if env.corsAllowedOrigins = "" then ["*"] else splitAndTrim env.corsAllowedOrigins ','

def corsConfig (env : Env) : CORSConfig :=
  let cfg := defaultCORSConfig
  let cfg := if env.corsAllowedOrigins ≠ "" then
    { cfg with allowedOrigins := splitAndTrim env.corsAllowedOrigins ',' } else cfg
  if env.corsAllowCredentials = "true" then { cfg with allowCredentials := true } else cfg

/-- `strings.ToLower` is a parameter. -/
def buildCheckOrigin (toLower : String → String) (allowedOrigins : List String) (r : Request) :
    Bool :=
  if allowedOrigins = [] then true
  else
    let wildcard := "*" ∈ allowedOrigins
    let allowed := (allowedOrigins.filter (· ≠ "*")).map toLower
    let origin := r.header.get "Origin"
    if origin = "" then true
    else if wildcard then true
    else toLower origin ∈ allowed

/-- The value of `Access-Control-Allow-Origin` in the response, or the empty text. -/
def CORSConfig.allowOrigin (cfg : CORSConfig) (r : Request) : String :=
  (noHeader.acts (cfg.actions r)).get "Access-Control-Allow-Origin"

def Granted (cfg : CORSConfig) (r : Request) : Prop :=
  cfg.allowOrigin r = "*" ∨ cfg.allowOrigin r = r.header.get "Origin"

section

variable {cfg : CORSConfig} {r : Request} {toLower : String → String} {origins : List String}

def corsNames : List String :=
  ["Access-Control-Allow-Origin", "Vary", "Access-Control-Allow-Methods",
    "Access-Control-Allow-Headers", "Access-Control-Allow-Credentials"]

theorem actions_names (cfg : CORSConfig) (r : Request) :
    ∀ a ∈ cfg.actions r, ∃ name ∈ corsNames, a.name = some name := by
  intro a ha
  unfold CORSConfig.actions at ha
  simp only [List.mem_append, List.mem_cons, List.not_mem_nil, or_false] at ha
  rcases ha with (ha | rfl | rfl) | ha
  · split at ha
    · rw [List.mem_singleton.mp ha]
      exact ⟨_, .head _, rfl⟩
    · split at ha
      · simp only [List.mem_cons, List.not_mem_nil, or_false] at ha
        rcases ha with rfl | rfl
        · exact ⟨_, .head _, rfl⟩
        · exact ⟨_, .tail _ (.head _), rfl⟩
      · cases ha
  · exact ⟨_, by decide, rfl⟩
  · exact ⟨_, by decide, rfl⟩
  · split at ha
    · rw [List.mem_singleton.mp ha]
      exact ⟨_, by decide, rfl⟩
    · cases ha

theorem allowOrigin_eq (cfg : CORSConfig) (r : Request) : cfg.allowOrigin r =
    if "*" ∈ cfg.allowedOrigins ∧ ¬ cfg.allowCredentials then "*"
    else if r.header.get "Origin" ≠ "" ∧ r.header.get "Origin" ∈ cfg.allowedOrigins then
      r.header.get "Origin"
    else "" := by
  unfold CORSConfig.allowOrigin CORSConfig.actions Header.get
  rw [List.append_assoc, header_append, acts_ne]
  · split
    · rfl
    · split <;> rfl
  · intro a ha
    have hset : a.name = some "Access-Control-Allow-Methods" ∨
        a.name = some "Access-Control-Allow-Headers" ∨
        a.name = some "Access-Control-Allow-Credentials" := by
      simp only [List.mem_append, List.mem_cons, List.not_mem_nil, or_false] at ha
      rcases ha with (rfl | rfl) | ha
      · exact .inl rfl
      · exact .inr (.inl rfl)
      · split at ha
        · rw [List.mem_singleton.mp ha]
          exact .inr (.inr rfl)
        · cases ha
    rcases hset with hname | hname | hname <;> simp [hname]

theorem granted_iff (horigin : r.header.get "Origin" ≠ "") : Granted cfg r ↔
    "*" ∈ cfg.allowedOrigins ∧ ¬ cfg.allowCredentials ∨
      r.header.get "Origin" ∈ cfg.allowedOrigins := by
  unfold Granted
  rw [allowOrigin_eq]
  split
  next hwild => simp [hwild]
  next hwild =>
    rw [or_iff_right hwild]
    split
    next hlisted => simp [hlisted.2]
    next hlisted =>
      have hnot : r.header.get "Origin" ∉ cfg.allowedOrigins := fun h => hlisted ⟨horigin, h⟩
      simp [hnot, horigin.symm]

theorem buildCheckOrigin_iff (horigin : r.header.get "Origin" ≠ "") :
    buildCheckOrigin toLower origins r = true ↔ origins = [] ∨ "*" ∈ origins ∨
      toLower (r.header.get "Origin") ∈ origins.map toLower := by
  unfold buildCheckOrigin
  by_cases hempty : origins = []
  · simp [hempty]
  · by_cases hwild : "*" ∈ origins
    · simp [hempty, hwild, horigin]
    · have hfilter : origins.filter (· ≠ "*") = origins := by
        apply List.filter_eq_self.mpr
        intro o ho
        exact decide_eq_true fun hsame => hwild (hsame ▸ ho)
      simp only [hempty, hwild, horigin, hfilter]
      simp

theorem corsConfig_origins (env : Env) :
    (corsConfig env).allowedOrigins = parseAllowedOrigins env := by
  unfold corsConfig parseAllowedOrigins
  split <;> split <;> simp_all [defaultCORSConfig]

theorem corsConfig_credentials (env : Env) :
    (corsConfig env).allowCredentials = decide (env.corsAllowCredentials = "true") := by
  unfold corsConfig
  split <;> split <;> simp_all [defaultCORSConfig]

/-- The hub and the middleware agree on an origin exactly when the list is not empty, a
wildcard in it does not stand for an origin while credentials are allowed, and without a
wildcard the origin is not only listed in other letters. -/
theorem origins_agree_iff (toLower : String → String) (env : Env) {r : Request}
    (horigin : r.header.get "Origin" ≠ "") :
    (buildCheckOrigin toLower (parseAllowedOrigins env) r = true ↔ Granted (corsConfig env) r) ↔
      parseAllowedOrigins env ≠ [] ∧
      ("*" ∈ parseAllowedOrigins env → env.corsAllowCredentials = "true" →
        r.header.get "Origin" ∈ parseAllowedOrigins env) ∧
      ("*" ∉ parseAllowedOrigins env →
        toLower (r.header.get "Origin") ∈ (parseAllowedOrigins env).map toLower →
          r.header.get "Origin" ∈ parseAllowedOrigins env) := by
  rw [buildCheckOrigin_iff horigin, granted_iff horigin, corsConfig_origins,
    corsConfig_credentials, decide_eq_true_iff]
  have hlower (h : r.header.get "Origin" ∈ parseAllowedOrigins env) :
      toLower (r.header.get "Origin") ∈ (parseAllowedOrigins env).map toLower :=
    List.mem_map_of_mem h
  by_cases hempty : parseAllowedOrigins env = []
  · simp [hempty]
  · by_cases hwild : "*" ∈ parseAllowedOrigins env
    · by_cases hcredentials : env.corsAllowCredentials = "true" <;>
        simp [hempty, hwild, hcredentials]
    · simp only [hempty, hwild]
      tauto

end

def fromOrigin (origin : String) : Request :=
  ⟨"GET", "/ws", "10.0.0.5:54321", fun name => if name = "Origin" then [origin] else []⟩

theorem origins_agree_iff_listed :
    (buildCheckOrigin Api.toLower (parseAllowedOrigins ⟨"https://a.example", ""⟩)
        (fromOrigin "https://a.example") = true ↔
      Granted (corsConfig ⟨"https://a.example", ""⟩) (fromOrigin "https://a.example")) ↔
      parseAllowedOrigins ⟨"https://a.example", ""⟩ ≠ [] ∧
      ("*" ∈ parseAllowedOrigins ⟨"https://a.example", ""⟩ → "" = "true" →
        (fromOrigin "https://a.example").header.get "Origin" ∈
          parseAllowedOrigins ⟨"https://a.example", ""⟩) ∧
      ("*" ∉ parseAllowedOrigins ⟨"https://a.example", ""⟩ →
        Api.toLower ((fromOrigin "https://a.example").header.get "Origin") ∈
          (parseAllowedOrigins ⟨"https://a.example", ""⟩).map Api.toLower →
        (fromOrigin "https://a.example").header.get "Origin" ∈
          parseAllowedOrigins ⟨"https://a.example", ""⟩) :=
  origins_agree_iff Api.toLower ⟨"https://a.example", ""⟩ (by decide)

/-- A list of no origins lets every origin open a WebSocket, and grants none. -/
theorem empty_list_disagrees : ¬ (buildCheckOrigin Api.toLower (parseAllowedOrigins ⟨",", ""⟩)
      (fromOrigin "https://evil.example") = true ↔
    Granted (corsConfig ⟨",", ""⟩) (fromOrigin "https://evil.example")) := by
  have hempty : parseAllowedOrigins ⟨",", ""⟩ = [] := by decide
  rw [buildCheckOrigin_iff (by decide), granted_iff (by decide), corsConfig_origins, hempty]
  simp

end LearnPg.Http
