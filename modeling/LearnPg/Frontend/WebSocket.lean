import LearnPg.Basis.Runs
import Mathlib.Data.List.Basic

/-! `useWebSocket`: its refs, its timers and every socket it has made. Calls of the hook's
functions, timers that fire and events of sockets come in any order. The callbacks among the
options do not call the hook's functions. -/
namespace LearnPg.Frontend.WebSocket
open LearnPg.Basis.Runs

/-! Timers of one kind behind one ref. -/

/-- `ref` is what the ref holds, `pending` the timers that have not fired or been cleared. -/
structure Timer where
  ref : Option Nat
  pending : List Nat
  next : Nat
deriving DecidableEq

/-- `if (ref.current) { clearTimeout(ref.current); ref.current = null }`. -/
def Timer.clear (timer : Timer) : Timer :=
  match timer.ref with
  | some id => { timer with ref := none, pending := timer.pending.filter (· ≠ id) }
  | none => timer

/-- `ref.current = setTimeout(...)`, or `setInterval`. -/
def Timer.set (timer : Timer) : Timer :=
  ⟨some timer.next, timer.pending ++ [timer.next], timer.next + 1⟩

def Timer.fire (timer : Timer) (id : Nat) : Timer :=
  { timer with pending := timer.pending.filter (· ≠ id) }

/-- Every timer that may fire is the one the ref holds. -/
structure Timer.Owned (timer : Timer) : Prop where
  ref : ∀ id ∈ timer.pending, timer.ref = some id

theorem Timer.Owned.eq_nil {timer : Timer} (h : timer.Owned) {id : Nat}
    (href : timer.ref = some id) : timer.pending.filter (· ≠ id) = [] := by
  refine List.filter_eq_nil_iff.mpr fun id' hid => ?_
  have := (h.ref id' hid).symm.trans href
  simpa using Option.some_inj.mp this

theorem Timer.Owned.clear {timer : Timer} (h : timer.Owned) : timer.clear.pending = [] := by
  unfold Timer.clear
  split
  · next id href => exact h.eq_nil href
  · next href =>
    refine List.eq_nil_iff_forall_not_mem.mpr fun id hid => ?_
    have := h.ref id hid
    rw [href] at this
    contradiction

theorem Timer.Owned.fire {timer : Timer} (h : timer.Owned) {id : Nat} (hid : id ∈ timer.pending) :
    (timer.fire id).pending = [] := h.eq_nil (h.ref id hid)

theorem Timer.owned_of_nil {timer : Timer} (h : timer.pending = []) : timer.Owned :=
  ⟨fun id hid => by rw [h] at hid; contradiction⟩

theorem Timer.owned_set {timer : Timer} (h : timer.pending = []) : timer.set.Owned := by
  refine ⟨fun id hid => ?_⟩
  rw [Timer.set, h] at hid
  obtain rfl := List.mem_singleton.mp hid
  rfl

/-! The hook. -/

inductive ReadyState where
  | connecting
  | open
  | closing
  | closed
deriving DecidableEq

def ReadyState.live : ReadyState → Bool
  | .connecting | .open => true
  | .closing | .closed => false

/-- `ws.close()`. -/
def ReadyState.close : ReadyState → ReadyState
  | .connecting | .open => .closing
  | ready => ready

inductive Status where
  | idle
  | connecting
  | open
  | reconnecting
  | closed
deriving DecidableEq

/-- The numbers of the options that the hook's decisions read. -/
structure Config where
  maxReconnectAttempts : Nat
  heartbeatMs : Int
  staleAfterMs : Int

/-- The hook's refs and state; a socket is its place in `sockets`. Behind them: the reconnect
attempts made since the budget was last restored, their number at each time the hook gave up,
whether `disconnect` was the last call, and the sockets made since then. -/
structure State where
  sockets : List ReadyState
  wsRef : Option Nat
  reconnectTimer : Timer
  heartbeatTimer : Timer
  staleTimer : Timer
  attempts : Nat
  shouldReconnect : Bool
  status : Status
  lastError : Option String
  made : Nat
  gaveUp : List Nat
  disconnected : Bool
  strays : Nat
deriving DecidableEq

/-- A constructor that throws does so with a message. -/
inductive Label where
  | mount (thrown : Option String)
  | connect (thrown : Option String)
  | disconnect
  | reconnect (id : Nat) (thrown : Option String)
  | heartbeat (id : Nat)
  | stale (id : Nat)
  | opened (i : Nat)
  | message (i : Nat)
  | error (i : Nat)
  | closing (i : Nat)
  | closed (i : Nat)

def State.live (s : State) (i : Nat) : Bool :=
  match s.sockets[i]? with
  | some ready => ready.live
  | none => false

def State.occupied (s : State) : Bool :=
  match s.wsRef with
  | some i => s.live i
  | none => false

def State.clearTimers (s : State) : State :=
  { s with
    reconnectTimer := s.reconnectTimer.clear
    heartbeatTimer := s.heartbeatTimer.clear
    staleTimer := s.staleTimer.clear }

def State.armStaleTimer (cfg : Config) (s : State) : State :=
  if cfg.staleAfterMs ≤ 0 then s else { s with staleTimer := s.staleTimer.clear.set }

def State.scheduleReconnect (s : State) : State :=
  if s.shouldReconnect then
    { s with
      attempts := s.attempts + 1
      reconnectTimer := s.reconnectTimer.set }
  else s

def State.connect (s : State) (thrown : Option String) : State :=
  if s.occupied then { s with shouldReconnect := true }
  else
    let s : State := { s with
      shouldReconnect := true
      status := if s.status = .open then .reconnecting else .connecting
      lastError := none }
    match thrown with
    | some message =>
      let message := "WebSocket construction failed: " ++ message
      { s with lastError := some message }.scheduleReconnect
    | none =>
      { s with
        sockets := s.sockets ++ [.connecting]
        wsRef := some s.sockets.length
        strays := s.strays + if s.disconnected then 1 else 0 }

/-- `wsRef.current.close(...)`, if there is a socket. -/
def State.closeRef (s : State) : State :=
  match s.wsRef with
  | some i => { s with sockets := s.sockets.modify i ReadyState.close }
  | none => s

def State.disconnect (s : State) : State :=
  let s := { s with shouldReconnect := false }.clearTimers
  { { s with status := .closed, lastError := none }.closeRef with
    wsRef := none
    disconnected := true }

def State.onopen (cfg : Config) (s : State) : State :=
  let s := { s with attempts := 0, status := .open, lastError := none, made := 0 }
  let s :=
    if cfg.heartbeatMs > 0 then { s with heartbeatTimer := s.heartbeatTimer.set } else s
  s.armStaleTimer cfg

def State.atCap (cfg : Config) (s : State) : Bool :=
  cfg.maxReconnectAttempts > 0 ∧ s.attempts ≥ cfg.maxReconnectAttempts

def State.onclose (cfg : Config) (s : State) : State :=
  let atCap := s.atCap cfg
  let s := { s with wsRef := none }.clearTimers
  if !s.shouldReconnect || atCap then
    { s with
      status := .closed
      gaveUp := if s.shouldReconnect then s.gaveUp ++ [s.made] else s.gaveUp }
  else { s with status := .reconnecting }.scheduleReconnect

/-- A socket gets open only from connecting and messages only while open; it is closed once. -/
def step (cfg : Config) (s : State) : Label → Option State
  | .mount thrown =>
    some ({ s with
      shouldReconnect := true, attempts := 0, made := 0, disconnected := false }.connect thrown)
  | .connect thrown => some ({ s with made := 0, disconnected := false }.connect thrown)
  | .disconnect => some s.disconnect
  -- a call that finds a live socket returns and is no attempt
  | .reconnect id thrown =>
    if id ∈ s.reconnectTimer.pending then
      some ({ s with
        reconnectTimer := s.reconnectTimer.fire id
        made := s.made + if s.occupied then 0 else 1 }.connect thrown)
    else none
  -- a heartbeat sends and changes nothing here
  | .heartbeat id => if id ∈ s.heartbeatTimer.pending then some s else none
  | .stale id =>
    if id ∈ s.staleTimer.pending then
      some { s with staleTimer := s.staleTimer.fire id }.closeRef
    else none
  | .opened i =>
    if s.sockets[i]? = some .connecting then
      some ({ s with sockets := s.sockets.set i .open }.onopen cfg)
    else none
  | .message i => if s.sockets[i]? = some .open then some (s.armStaleTimer cfg) else none
  | .error i =>
    if i < s.sockets.length then some { s with lastError := some "WebSocket connection error" }
    else none
  | .closing i =>
    if s.sockets[i]? = some .open then some { s with sockets := s.sockets.set i .closing } else none
  | .closed i =>
    match s.sockets[i]? with
    | none | some .closed => none
    | some _ => some ({ s with sockets := s.sockets.set i .closed }.onclose cfg)

/-- The first render. -/
def rendered : State where
  sockets := []
  wsRef := none
  reconnectTimer := ⟨none, [], 1⟩
  heartbeatTimer := ⟨none, [], 1⟩
  staleTimer := ⟨none, [], 1⟩
  attempts := 0
  shouldReconnect := true
  status := .idle
  lastError := none
  made := 0
  gaveUp := []
  disconnected := false
  strays := 0

def hook (cfg : Config) : Machine State Label where
  init := rendered
  step := step cfg

/-! What the parts of the handlers change. -/

theorem armStaleTimer_eq (cfg : Config) (s : State) :
    ∃ timer, s.armStaleTimer cfg = { s with staleTimer := timer } := by
  unfold State.armStaleTimer
  split
  · exact ⟨s.staleTimer, rfl⟩
  · exact ⟨_, rfl⟩

theorem onopen_eq (cfg : Config) (s : State) :
    ∃ heartbeat stale, s.onopen cfg = { s with
      attempts := 0, status := .open, lastError := none, made := 0,
      heartbeatTimer := heartbeat, staleTimer := stale } := by
  unfold State.onopen
  dsimp only
  split
  · obtain ⟨timer, h⟩ := armStaleTimer_eq cfg { s with
      attempts := 0, status := .open, lastError := none, made := 0,
      heartbeatTimer := s.heartbeatTimer.set }
    exact ⟨_, timer, h⟩
  · obtain ⟨timer, h⟩ := armStaleTimer_eq cfg { s with
      attempts := 0, status := .open, lastError := none, made := 0 }
    exact ⟨_, timer, h⟩

theorem closeRef_eq (s : State) : ∃ sockets, s.closeRef = { s with sockets := sockets } := by
  unfold State.closeRef
  split
  · exact ⟨_, rfl⟩
  · exact ⟨s.sockets, rfl⟩

/-! What a step that is taken does. -/

section

variable {cfg : Config} {s t : State} {id i : Nat}

theorem stale_step (h : step cfg s (.stale id) = some t) :
    t = { s with staleTimer := s.staleTimer.fire id }.closeRef := by
  obtain ⟨-, heq⟩ := Option.ite_none_right_eq_some.mp h
  exact (Option.some.inj heq).symm

theorem opened_step (h : step cfg s (.opened i) = some t) :
    s.sockets[i]? = some .connecting ∧ ∃ heartbeat stale, t = { s with
      sockets := s.sockets.set i .open, attempts := 0, status := .open, lastError := none,
      made := 0, heartbeatTimer := heartbeat, staleTimer := stale } := by
  obtain ⟨hi, heq⟩ := Option.ite_none_right_eq_some.mp h
  obtain ⟨heartbeat, stale, hopen⟩ := onopen_eq cfg { s with sockets := s.sockets.set i .open }
  exact ⟨hi, heartbeat, stale, (Option.some.inj heq).symm.trans hopen⟩

theorem message_step (h : step cfg s (.message i) = some t) :
    ∃ timer, t = { s with staleTimer := timer } := by
  obtain ⟨-, heq⟩ := Option.ite_none_right_eq_some.mp h
  obtain ⟨timer, harm⟩ := armStaleTimer_eq cfg s
  exact ⟨timer, (Option.some.inj heq).symm.trans harm⟩

theorem closed_step (h : step cfg s (.closed i) = some t) :
    i < s.sockets.length ∧
      t = { s with sockets := s.sockets.set i .closed }.onclose cfg := by
  simp only [step] at h
  split at h
  · contradiction
  · contradiction
  next hi =>
    exact ⟨(List.getElem?_eq_some_iff.mp hi).1, (Option.some.inj h).symm⟩

end

end LearnPg.Frontend.WebSocket
