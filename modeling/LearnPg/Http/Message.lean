/-! Requests, the responses that handlers write, and handlers that are wrapped around
one another. -/
namespace LearnPg.Http

abbrev Header := String → List String

def noHeader : Header := fun _ => []

def Header.get (h : Header) (name : String) : String := (h name).headD ""

def Header.with (h : Header) (name : String) (values : List String) : Header :=
  fun other => if other = name then values else h other

structure Request where
  method : String
  path : String
  remoteAddr : String
  header : Header

/-- What a handler does to the response. -/
inductive Action where
  | set (name value : String)
  | add (name value : String)
  | del (name : String)
  | writeHeader (code : Nat)
  | write (body : String)

def Action.name : Action → Option String
  | .set name _ | .add name _ | .del name => some name
  | .writeHeader _ | .write _ => none

def Header.act (h : Header) : Action → Header
  | .set name value => h.with name [value]
  | .add name value => h.with name (h name ++ [value])
  | .del name => h.with name []
  | .writeHeader _ | .write _ => h

def Header.acts (h : Header) (actions : List Action) : Header := actions.foldl Header.act h

/-- Afterwards `header` may change, but `sent` is what the client gets. -/
structure Response where
  header : Header
  sent : Option (Nat × Header)
  body : List String

/-- Informational headers are sent on their own, and others only once. -/
def Response.writeHeader (r : Response) (code : Nat) : Response :=
  if r.sent.isSome ∨ 100 ≤ code ∧ code < 200 ∧ code ≠ 101 then r
  else { r with sent := some (code, r.header) }

def Response.act (r : Response) : Action → Response
  | .writeHeader code => r.writeHeader code
  | .write body =>
    let r := r.writeHeader 200
    { r with body := r.body ++ [body] }
  | a => { r with header := r.header.act a }

def Response.acts (r : Response) (actions : List Action) : Response :=
  actions.foldl Response.act r

/-- What a `ResponseWriter` offers beside writing. -/
structure Writer where
  hijacker : Bool
  deriving DecidableEq

/-- What was done to the response, whether it ended in a panic, and the writers that the
innermost handler was called with. -/
structure Outcome where
  actions : List Action
  panicked : Bool
  handed : List Writer

abbrev Handler := Request → Writer → Header → Outcome

def Handler.after (next : Handler) (actions : List Action) : Handler := fun r w header =>
  let outcome := next r w (header.acts actions)
  { outcome with actions := actions ++ outcome.actions }

structure Reply where
  status : Nat
  header : Header
  body : List String

/-- A handler that writes nothing has sent an empty response. -/
def Response.finish (r : Response) : Reply :=
  let sent := r.sent.getD (200, r.header)
  ⟨sent.1, sent.2, r.body⟩

/-- The server's part: a panic ends the connection. -/
def serve (handler : Handler) (r : Request) (w : Writer) : Option Reply :=
  let outcome := handler r w noHeader
  if outcome.panicked then none
  else some (Response.acts ⟨noHeader, none, []⟩ outcome.actions).finish

section

variable {r : Response} {header : Header} {name other value : String} {values : List String}
  {actions : List Action}

@[simp] theorem get_with_ne (h : other ≠ name) :
    (header.with name values).get other = header.get other := by
  simp [Header.get, Header.with, h]

@[simp] theorem header_nil : header.acts [] = header := rfl

@[simp] theorem header_cons (a : Action) (as : List Action) :
    header.acts (a :: as) = (header.act a).acts as := rfl

@[simp] theorem header_append (header : Header) (as bs : List Action) :
    header.acts (as ++ bs) = (header.acts as).acts bs :=
  List.foldl_append

theorem acts_append (r : Response) (as bs : List Action) :
    r.acts (as ++ bs) = (r.acts as).acts bs :=
  List.foldl_append

theorem act_ne {a : Action} (h : a.name ≠ some other) : header.act a other = header other := by
  have hne (name : String) (hname : a.name = some name) : other ≠ name := by
    rintro rfl
    exact h hname
  cases a with
  | set name value => exact if_neg (hne name rfl)
  | add name value => exact if_neg (hne name rfl)
  | del name => exact if_neg (hne name rfl)
  | writeHeader code => rfl
  | write body => rfl

theorem acts_ne (h : ∀ a ∈ actions, a.name ≠ some other) :
    header.acts actions other = header other := by
  induction actions generalizing header with
  | nil => rfl
  | cons a actions ih =>
    have hrest := @ih (header.act a) fun b hb => h b (List.mem_cons_of_mem _ hb)
    exact hrest.trans (act_ne (h a List.mem_cons_self))

theorem writeHeader_sent {sent : Nat × Header} (h : r.sent = some sent) (code : Nat) :
    r.writeHeader code = r := by
  unfold Response.writeHeader
  rw [if_pos (.inl (by rw [h]; rfl))]

theorem acts_sent {sent : Nat × Header} (h : r.sent = some sent) (actions : List Action) :
    (r.acts actions).sent = some sent := by
  induction actions generalizing r with
  | nil => exact h
  | cons a actions ih =>
    apply ih (r := r.act a)
    cases a with
    | set name value => exact h
    | add name value => exact h
    | del name => exact h
    | writeHeader code =>
      simp only [Response.act, writeHeader_sent h]
      exact h
    | write body =>
      simp only [Response.act, writeHeader_sent h]
      exact h

theorem acts_unsent (h : ∀ a ∈ actions, a.name.isSome) :
    r.acts actions = { r with header := r.header.acts actions } := by
  induction actions generalizing r with
  | nil => rfl
  | cons a actions ih =>
    have hact : r.act a = { r with header := r.header.act a } := by
      have hname := h a List.mem_cons_self
      cases a with
      | set name value => rfl
      | add name value => rfl
      | del name => rfl
      | writeHeader code => cases hname
      | write body => cases hname
    have hrest := @ih (r.act a) fun b hb => h b (List.mem_cons_of_mem _ hb)
    change (r.act a).acts actions = _
    rw [hrest, hact]
    rfl

/-- A header as it is, and as it was sent. -/
def Response.Shows (r : Response) (name : String) (values : List String) : Prop :=
  r.header name = values ∧ ∀ sent, r.sent = some sent → sent.2 name = values

theorem Response.Shows.writeHeader (h : r.Shows name values) (code : Nat) :
    (r.writeHeader code).Shows name values := by
  unfold Response.writeHeader
  split
  · exact h
  · refine ⟨h.1, fun sent hsent => ?_⟩
    cases hsent
    exact h.1

theorem Response.Shows.acts (h : r.Shows name values) (hname : ∀ a ∈ actions, a.name ≠ some name) :
    (r.acts actions).Shows name values := by
  induction actions generalizing r with
  | nil => exact h
  | cons a actions ih =>
    apply ih (r := r.act a) _ fun b hb => hname b (List.mem_cons_of_mem _ hb)
    have hne : r.header.act a _ = _ := act_ne (hname a List.mem_cons_self)
    cases a with
    | set name value => exact ⟨hne.trans h.1, h.2⟩
    | add name value => exact ⟨hne.trans h.1, h.2⟩
    | del name => exact ⟨hne.trans h.1, h.2⟩
    | writeHeader code => exact h.writeHeader code
    | write body => exact h.writeHeader 200

theorem Response.Shows.finish (h : r.Shows name values) : r.finish.header name = values := by
  unfold Response.finish
  cases hsent : r.sent with
  | none => exact h.1
  | some sent => exact h.2 sent hsent

end

end LearnPg.Http
