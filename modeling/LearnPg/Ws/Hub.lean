import LearnPg.Basis.Channel
import LearnPg.Basis.Runs
import Mathlib.Data.Finset.Insert
import Mathlib.Data.Finset.Erase
import Mathlib.Logic.Function.Basic

/-! The WebSocket hub, its clients' goroutines and the callers of `Broadcast`
and `Stop`, one step of one goroutine at a time. A program counter stands
before the next channel operation, lock or network call; a critical section
under the write lock is one step, but for the loop of the stop case, which
keeps the lock over several. -/
namespace LearnPg.Ws.Hub

open LearnPg.Basis.Channel LearnPg.Basis.Runs

abbrev Message := List UInt8

inductive Frame where
  | text (m : Message)
  | ping
  | close
  deriving DecidableEq

inductive RunPc (κ : Type) where
  | select
  | adding (client : κ)
  | removing (client : κ)
  | sharing (m : Message)
  | ranging (m : Message) (todo : Finset κ)
  | evicting (m : Message) (todo : Finset κ) (client : κ)
  | resuming (m : Message) (todo : Finset κ)
  | stopping
  | closing
  | returned
  deriving DecidableEq

inductive ServeWsPc where
  | idle
  | registering
  | refused
  | served
  deriving DecidableEq

inductive WritePumpPc where
  | idle
  | select
  | closing
  | unregistering
  | finished
  deriving DecidableEq

inductive ReadPumpPc (κ : Type) where
  | idle
  | reading
  | received (m : Message)
  | forwarding (m : Message) (todo : Finset κ)
  | unregistering
  | finished
  deriving DecidableEq

inductive CallerPc where
  | idle
  | broadcasting (data : Message)
  | stopping
  | finished
  deriving DecidableEq

/-- `stop` and `done` say that the channel of that name is closed; `readers`
are the read pumps that hold the read lock. -/
structure State (κ β : Type) where
  clients : Finset κ
  send : κ → Chan Message
  broadcast : Chan Message
  stop : Bool
  done : Bool
  readers : Finset κ
  run : RunPc κ
  serveWs : κ → ServeWsPc
  writePump : κ → WritePumpPc
  readPump : κ → ReadPumpPc κ
  caller : β → CallerPc
  wire : κ → List Frame
  panic : Option Panic

inductive Label (κ β : Type) where
  | upgrade (c : κ) (ok : Bool)
  | register (c : κ)
  | unregisterRead (c : κ)
  | unregisterWrite (c : κ)
  | takeStop
  | takeBroadcast
  | lock
  | closeClient (c : κ)
  | unlockReturn
  | rlock
  | offer (d : κ)
  | ranged
  | readMessage (c : κ) (m : Message)
  | readError (c : κ)
  | rlockRead (c : κ)
  | forward (c d : κ)
  | forwarded (c : κ)
  | receive (c : κ) (wrote : Bool)
  | writeClose (c : κ) (wrote : Bool)
  | ping (c : κ) (wrote : Bool)
  | marshal (b : β) (data : Option Message)
  | enqueue (b : β)
  | callStop (b : β)
  | stopReturns (b : β)
deriving DecidableEq

def sendCap : Nat := 256

def broadcastCap : Nat := 256

def readLimit : Nat := 65536

variable {κ β : Type} [DecidableEq κ] [DecidableEq β]

/-- `NewHub`, with `Run` started and no request served yet. A client's channel
is the one `ServeWs` makes for it. -/
def newHub : State κ β where
  clients := ∅
  send := fun _ => .make sendCap
  broadcast := .make broadcastCap
  stop := false
  done := false
  readers := ∅
  run := .select
  serveWs := fun _ => .idle
  writePump := fun _ => .idle
  readPump := fun _ => .idle
  caller := fun _ => .idle
  wire := fun _ => []
  panic := none

def State.setSend (s : State κ β) (c : κ) (ch : Chan Message) : State κ β :=
  { s with send := Function.update s.send c ch }

def State.setRun (s : State κ β) (pc : RunPc κ) : State κ β := { s with run := pc }

def State.setWritePump (s : State κ β) (c : κ) (pc : WritePumpPc) : State κ β :=
  { s with writePump := Function.update s.writePump c pc }

def State.setReadPump (s : State κ β) (c : κ) (pc : ReadPumpPc κ) : State κ β :=
  { s with readPump := Function.update s.readPump c pc }

def State.setCaller (s : State κ β) (b : β) (pc : CallerPc) : State κ β :=
  { s with caller := Function.update s.caller b pc }

def State.write (s : State κ β) (c : κ) (frame : Frame) : State κ β :=
  { s with wire := Function.update s.wire c (s.wire c ++ [frame]) }

/-- `delete(h.clients, c)` with `close(c.send)`, in either order. -/
def State.drop (s : State κ β) (c : κ) : State κ β :=
  match (s.send c).close with
  | .ok ch => { s with clients := s.clients.erase c }.setSend c ch
  | .error p => { s with panic := some p }

def runStep (s : State κ β) : Label κ β → Option (State κ β)
  | .register c =>
    if s.run = .select ∧ s.serveWs c = .registering then
      some { s with
        run := .adding c
        serveWs := Function.update s.serveWs c .served
        -- `go client.writePump()` and `go client.readPump()`
        writePump := Function.update s.writePump c .select
        readPump := Function.update s.readPump c .reading }
    else none
  | .unregisterRead c =>
    if s.run = .select ∧ s.readPump c = .unregistering then
      some ((s.setRun (.removing c)).setReadPump c .finished)
    else none
  | .unregisterWrite c =>
    if s.run = .select ∧ s.writePump c = .unregistering then
      some ((s.setRun (.removing c)).setWritePump c .finished)
    else none
  | .takeStop => if s.run = .select ∧ s.stop then some (s.setRun .stopping) else none
  | .takeBroadcast =>
    if s.run = .select then
      match s.broadcast.receive with
      | some (some m, ch) => some { s with broadcast := ch, run := .sharing m }
      | _ => none
    else none
  | .lock =>
    if s.readers = ∅ then
      match s.run with
      | .adding c => some { s with clients := insert c s.clients, run := .select }
      | .removing c =>
        if c ∈ s.clients then some ((s.setRun .select).drop c) else some (s.setRun .select)
      | .evicting m todo c => some ((s.setRun (.resuming m todo)).drop c)
      | .stopping => some (s.setRun .closing)
      | _ => none
    else none
  | .closeClient c =>
    if s.run = .closing ∧ c ∈ s.clients then some (s.drop c) else none
  | .unlockReturn =>
    if s.run = .closing ∧ s.clients = ∅ then some { s with run := .returned, done := true }
    else none
  | .rlock =>
    match s.run with
    | .sharing m => some (s.setRun (.ranging m s.clients))
    | .resuming m todo => some (s.setRun (.ranging m todo))
    | _ => none
  | .offer d =>
    match s.run with
    | .ranging m todo =>
      if d ∈ todo then
        match (s.send d).offer m with
        | .sent ch => some ((s.setRun (.ranging m (todo.erase d))).setSend d ch)
        | .full => some (s.setRun (.evicting m (todo.erase d) d))
        | .panicked => some { s with panic := some .sendOnClosed }
      else none
    | _ => none
  | .ranged =>
    match s.run with
    | .ranging _ todo => if todo = ∅ then some (s.setRun .select) else none
    | _ => none
  | _ => none

def serveWsStep (s : State κ β) : Label κ β → Option (State κ β)
  | .upgrade c ok =>
    if s.serveWs c = .idle then
      some { s with
        serveWs := Function.update s.serveWs c (if ok then .registering else .refused) }
    else none
  | _ => none

/-- The write lock keeps readers out only while `Run` loops over the clients in
the stop case: its other critical sections are over in one step. -/
def readPumpStep (s : State κ β) : Label κ β → Option (State κ β)
  | .readMessage c m =>
    if s.readPump c = .reading ∧ m.length ≤ readLimit then some (s.setReadPump c (.received m))
    else none
  | .readError c =>
    if s.readPump c = .reading then some (s.setReadPump c .unregistering) else none
  | .rlockRead c =>
    match s.readPump c with
    | .received m =>
      if s.run = .closing then none
      else some ({ s with readers := insert c s.readers }.setReadPump c
        (.forwarding m s.clients))
    | _ => none
  | .forward c d =>
    match s.readPump c with
    | .forwarding m todo =>
      if d ∈ todo then
        if d = c then some (s.setReadPump c (.forwarding m (todo.erase d)))
        else
          match (s.send d).offer m with
          | .sent ch => some ((s.setReadPump c (.forwarding m (todo.erase d))).setSend d ch)
          | .full => some (s.setReadPump c (.forwarding m (todo.erase d)))
          | .panicked => some { s with panic := some .sendOnClosed }
      else none
    | _ => none
  | .forwarded c =>
    match s.readPump c with
    | .forwarding _ todo =>
      if todo = ∅ then
        some ({ s with readers := s.readers.erase c }.setReadPump c .reading)
      else none
    | _ => none
  | _ => none

/-- A receive from the closed channel yields the nil message, which is written
as a text frame before `ok` is looked at. -/
def writePumpStep (s : State κ β) : Label κ β → Option (State κ β)
  | .receive c wrote =>
    if s.writePump c = .select then
      match (s.send c).receive with
      | some (m, ch) =>
        if wrote then
          some (((s.setSend c ch).write c (.text (m.getD []))).setWritePump c
            (if m.isSome then .select else .closing))
        else some ((s.setSend c ch).setWritePump c .unregistering)
      | none => none
    else none
  | .writeClose c wrote =>
    if s.writePump c = .closing then
      some ((if wrote then s.write c .close else s).setWritePump c .finished)
    else none
  | .ping c wrote =>
    if s.writePump c = .select then
      if wrote then some (s.write c .ping) else some (s.setWritePump c .unregistering)
    else none
  | _ => none

/-- `Broadcast` and `Stop`. A failed `json.Marshal` ends the call; `stopOnce`
makes closing `h.stop` again harmless. -/
def callerStep (s : State κ β) : Label κ β → Option (State κ β)
  | .marshal b data =>
    if s.caller b = .idle then
      some (s.setCaller b (data.elim .finished .broadcasting))
    else none
  | .enqueue b =>
    match s.caller b with
    | .broadcasting data =>
      match s.broadcast.offer data with
      | .sent ch => some ({ s with broadcast := ch }.setCaller b .finished)
      | _ => none
    | _ => none
  | .callStop b =>
    if s.caller b = .idle then some ({ s with stop := true }.setCaller b .stopping) else none
  | .stopReturns b =>
    if s.caller b = .stopping ∧ s.done then some (s.setCaller b .finished) else none
  | _ => none

/-- A panic in any goroutine ends the process. -/
def step (s : State κ β) (l : Label κ β) : Option (State κ β) :=
  if s.panic.isSome then none
  else match l with
    | .upgrade .. => serveWsStep s l
    | .readMessage .. | .readError .. | .rlockRead .. | .forward .. | .forwarded .. =>
      readPumpStep s l
    | .receive .. | .writeClose .. | .ping .. => writePumpStep s l
    | .marshal .. | .enqueue .. | .callStop .. | .stopReturns .. => callerStep s l
    | _ => runStep s l

def hub (κ β : Type) [DecidableEq κ] [DecidableEq β] : Machine (State κ β) (Label κ β) :=
  ⟨newHub, step⟩

end LearnPg.Ws.Hub
