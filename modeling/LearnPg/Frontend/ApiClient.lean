import LearnPg.Basis.Grouping
import Mathlib.Algebra.GroupWithZero.Nat
import Mathlib.Data.List.DropRight

/-! A request of the frontend's API client: its fetches, and the pauses between them. -/
namespace LearnPg.Frontend.ApiClient

open Basis.Grouping

/-! What a client and a request are made with. -/

inductive Method where
  | get | post | put | delete | patch | head
deriving DecidableEq

def Method.name : Method → String
  | get => "GET"
  | post => "POST"
  | put => "PUT"
  | delete => "DELETE"
  | patch => "PATCH"
  | head => "HEAD"

structure ApiClientOptions where
  baseUrl : String
  defaultTimeoutMs : Option Nat := none
  maxRetries : Option Nat := none
  baseBackoffMs : Option Nat := none
  maxBackoffMs : Option Nat := none
  /-- Whether there is a hook to report retries to. -/
  onRetry : Bool := false

structure RequestOptions where
  method : Option Method := none
  /-- A string as it is, anything else as `JSON.stringify` writes it. -/
  body : Option String := none
  timeoutMs : Option Nat := none
  retry : Option Bool := none
  maxRetries : Option Nat := none
  headers : List (String × String) := []

/-! What a fetch comes to. -/

structure Response where
  status : Nat
  url : String
deriving DecidableEq

/-- The exception of an abort, an `Error`, or anything else with its text. -/
inductive FetchError where
  | aborted
  | error (message : String)
  | other (text : String)
deriving DecidableEq

/-- A response with its whole text, or a rejection of the one or the other promise. -/
inductive Answer where
  | response (response : Response) (text : String)
  | rejected (error : FetchError)

inductive FetchOutcome where
  | ok (response : Response) (text : String)
  | httpError (response : Response) (text : String)
  | networkError (error : FetchError)

def runFetch : Answer → FetchOutcome
  | .response response text =>
    if 200 ≤ response.status ∧ response.status ≤ 299 then .ok response text
    else .httpError response text
  | .rejected error => .networkError error

structure ApiError where
  message : String
  status : Nat
  url : String
  method : String
  requestId : Option String
  cause : Option FetchError
deriving DecidableEq

def ApiError.isRetryable (e : ApiError) : Bool :=
  e.status = 0 || e.status = 408 || e.status = 429 || (500 ≤ e.status && e.status < 600)

/-- `JSON.parse` with the message of its error, and those members of a value that are strings. -/
structure JsonReader (J : Type) where
  parse : String → Except String J
  member : J → String → Option String

/-- What a request ends with. -/
inductive Result (J : Type) where
  | returned (value : Option J)
  | threw (error : ApiError)
  /-- The loop ended without an error. -/
  | exited

section

variable {J : Type} (json : JsonReader J)

def parseBody (response : Response) (text : String) : Result J :=
  if response.status = 204 ∨ text = "" then .returned none
  else match json.parse text with
    | .ok value => .returned (some value)
    | .error message => .threw {
        message := "api: response was not valid JSON: " ++ message
        status := response.status
        url := response.url
        method := ""
        requestId := none
        cause := none }

def utf16Length (text : String) : Nat := (text.toList.map fun c => if c.val ≤ 0xFFFF then 1 else 2).sum

def extractMessage (parsed : Option J) (status : Nat) (text : String) : String :=
  match ["error", "message", "detail"].findSome? fun k =>
      (parsed.bind fun value => json.member value k).filter (· ≠ "") with
  | some message => message
  | none =>
    if text ≠ "" ∧ utf16Length text < 500 then toString status ++ ": " ++ text
    else "HTTP " ++ toString status

end

def describeNetworkError : FetchError → String
  | .aborted => "Request aborted (timeout or caller cancellation)"
  | .error message => message
  | .other text => text

/-- `draw` stands for the random number. -/
def backoff (attempt base cap draw : Nat) : Nat :=
  let exp := min cap (base * 2 ^ attempt)
  if exp = 0 then 0 else draw % exp

def joinUrl (base path : String) : String :=
  let lower := path.toLower
  if lower.startsWith "http://" || lower.startsWith "https://" then path
  else if path.startsWith "/" then base ++ path
  else base ++ "/" ++ path

/-! What a request does. -/

inductive BreadcrumbType where
  | log | click | nav | ws | fetch
deriving DecidableEq

inductive Level where
  | info | warn | error
deriving DecidableEq

inductive Datum where
  | text (value : String)
  | number (value : Nat)
  | flag (value : Bool)
deriving DecidableEq

/-- A breadcrumb before it has a time. -/
structure Breadcrumb where
  type : BreadcrumbType
  level : Option Level := none
  message : String
  data : List (String × Datum) := []
deriving DecidableEq

/-- What `fetch` is called with; `aborted` is the state of the signal then. -/
structure FetchCall where
  url : String
  method : Method
  headers : List (String × String)
  body : Option String
  timeoutMs : Nat
  aborted : Bool

structure RetryInfo where
  attempt : Nat
  url : String
  method : Method
  status : Nat
  delayMs : Nat
  error : String

inductive Action where
  | breadcrumb (breadcrumb : Breadcrumb)
  | fetch (call : FetchCall)
  /-- The caller aborts its signal. -/
  | aborted
  | retry (info : RetryInfo)
  | sleep (ms : Nat)

/-- When the caller aborts its signal, if it has one. The attempts are counted from 0. -/
inductive Moment where
  | never
  | beforeCall
  | duringFetch (attempt : Nat)
  | duringSleep (attempt : Nat)
deriving DecidableEq

/-- Whether the signal is aborted when an attempt begins. -/
def Moment.before (attempt : Nat) : Moment → Bool
  | never => false
  | beforeCall => true
  | duringFetch k | duringSleep k => decide (k < attempt)

/-- Whether it is when the attempt's fetch has ended. -/
def Moment.after (attempt : Nat) (moment : Moment) : Bool :=
  moment.before attempt || decide (moment = .duringFetch attempt)

/-- What the request does not decide itself, by attempts. -/
structure World where
  answer : Nat → Answer
  requestId : Nat → String
  draw : Nat → Nat
  abort : Moment

/-- A request with the client that makes it. -/
structure Call (J : Type) where
  json : JsonReader J
  client : ApiClientOptions
  path : String
  options : RequestOptions
  world : World

namespace Call

variable {J : Type} (c : Call J)

def method : Method := c.options.method.getD .get

def url : String :=
  joinUrl (String.ofList (c.client.baseUrl.toList.rdropWhile (· = '/'))) c.path

def retryEnabled : Bool := c.options.retry != some false

def maxRetries : Nat := c.options.maxRetries.getD (c.client.maxRetries.getD 3)

/-- Later entries take the place of earlier ones of their name. -/
def headers (attempt : Nat) : List (String × String) :=
  let headers := (("Accept", "application/json") :: ("X-Request-Id", c.world.requestId attempt) ::
    c.options.headers).foldl (fun headers h => put h.1 h.2 headers) []
  if c.options.body.isSome then
    put "Content-Type" ((headers.lookup "Content-Type").getD "application/json") headers
  else headers

def httpError (attempt : Nat) (response : Response) (text : String) : ApiError where
  message :=
    let parsed := if text = "" then none else (c.json.parse text).toOption
    extractMessage c.json parsed response.status text
  status := response.status
  url := c.url
  method := c.method.name
  requestId := some (c.world.requestId attempt)
  cause := none

def networkError (attempt : Nat) (error : FetchError) : ApiError where
  message := describeNetworkError error
  status := 0
  url := c.url
  method := c.method.name
  requestId := some (c.world.requestId attempt)
  cause := some error

def mark (moment : Moment) : List Action := if c.world.abort = moment then [.aborted] else []

/-- The breadcrumb of an attempt. -/
def attemptBreadcrumb (attempt : Nat) : Breadcrumb where
  type := .fetch
  message := c.method.name ++ " " ++ c.path ++ " (attempt " ++ toString (attempt + 1) ++ ")"
  data := [("requestId", .text (c.world.requestId attempt)), ("attempt", .number (attempt + 1)),
    ("method", .text c.method.name), ("url", .text c.url)]

def httpBreadcrumb (attempt : Nat) (err : ApiError) : Breadcrumb where
  type := .fetch
  level := some .error
  message := c.method.name ++ " " ++ c.path ++ " failed: " ++ toString err.status ++ " " ++
    err.message
  data := [("requestId", .text (c.world.requestId attempt)), ("status", .number err.status),
    ("url", .text c.url)]

def networkBreadcrumb (attempt : Nat) (err : ApiError) (aborted : Bool) : Breadcrumb where
  type := .fetch
  level := some (if aborted then .info else .error)
  message :=
    if aborted then c.method.name ++ " " ++ c.path ++ " aborted"
    else c.method.name ++ " " ++ c.path ++ " network error: " ++ err.message
  data := [("requestId", .text (c.world.requestId attempt)), ("url", .text c.url),
    ("aborted", .flag aborted)]

/-- An attempt up to the end of its fetch. -/
def begins (attempt : Nat) : List Action :=
  [.breadcrumb (c.attemptBreadcrumb attempt), .fetch {
    url := c.url
    method := c.method
    headers := c.headers attempt
    body := c.options.body
    timeoutMs := c.options.timeoutMs.getD (c.client.defaultTimeoutMs.getD 15000)
    aborted := c.world.abort.before attempt }] ++ c.mark (.duringFetch attempt)

/-- What is left of an attempt whose error `err` is one to retry. -/
def pauses (attempt : Nat) (err : ApiError) : List Action :=
  let delayMs := backoff attempt (c.client.baseBackoffMs.getD 250) (c.client.maxBackoffMs.getD 4000)
    (c.world.draw attempt)
  (if c.client.onRetry then [.retry {
      attempt := attempt + 1
      url := c.url
      method := c.method
      status := err.status
      delayMs
      error := err.message }] else []) ++
    .sleep delayMs :: c.mark (.duringSleep attempt)

/-- An attempt that ends the request, or an error to retry. -/
def attempt (k : Nat) : List Action × (Result J ⊕ ApiError) :=
  match runFetch (c.world.answer k) with
  | .ok response text => (c.begins k, .inl (parseBody c.json response text))
  | .httpError response text =>
    let err := c.httpError k response text
    if c.retryEnabled && decide (k < c.maxRetries) && err.isRetryable then (c.begins k, .inr err)
    else (c.begins k ++ [.breadcrumb (c.httpBreadcrumb k err)], .inl (.threw err))
  | .networkError error =>
    let err := c.networkError k error
    let aborted := c.world.abort.after k
    if c.retryEnabled && decide (k < c.maxRetries) && !aborted then (c.begins k, .inr err)
    else (c.begins k ++ [.breadcrumb (c.networkBreadcrumb k err aborted)], .inl (.threw err))

/-- The loop, with the number of attempts left and the attempt that is next. -/
def loop : Nat → Nat → Option ApiError → List Action × Result J
  | 0, _, lastError => ([], lastError.elim .exited .threw)
  | left + 1, k, _ =>
    match c.attempt k with
    | (actions, .inl result) => (actions, result)
    | (actions, .inr err) =>
      let rest := loop left (k + 1) (some err)
      (actions ++ c.pauses k err ++ rest.1, rest.2)

def request : List Action × Result J :=
  let run := c.loop (c.maxRetries + 1) 0 none
  (c.mark .beforeCall ++ run.1, run.2)

end Call

/-! What a request is to do. -/

def Action.Starts : Action → Prop
  | .fetch _ | .retry _ => True
  | _ => False

namespace Call

variable {J : Type} (c : Call J)

def outcome (k : Nat) : FetchOutcome := runFetch (c.world.answer k)

variable {c}

end Call

end LearnPg.Frontend.ApiClient
