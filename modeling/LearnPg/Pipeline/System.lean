import LearnPg.Collector.Sender
import LearnPg.Frontend.EventStore
import LearnPg.Frontend.Sockets
import LearnPg.Ws.Copies

/-! The way of an event from the collector's channel to the pages: the sender's connections, the
hub with its clients, and every page's hook and store, one step of one of them at a time. -/
namespace LearnPg.Pipeline

open Basis.Channel Basis.Runs Ws.Hub Ws.Writer Collector Frontend

/-- The texts that go over the sockets. `shows` is what `onmessage` passes to `addEvent`: it
drops pings and what is not JSON. -/
structure Wire (ε : Type) where
  encode : ε → Message
  isPing : ε → Bool
  shows : Message → Option ε
  ping : Message
  shows_encode : ∀ e, shows (encode e) = if isPing e then none else some e
  shows_ping : shows ping = none
  shows_nil : shows [] = none

/-- `link` is the connection that the sender has or is getting, `conn` the one that the server
made for a page's socket, `up` what a client has sent and the server has not read, and `got`
the number of text frames that a client has read. `sent` and `shown` record which events went
over which connection of the collector, and which were added to a page's store. -/
structure State (κ β ω ε : Type) where
  collector : Sender.State ε
  link : Option κ
  hub : Ws.Hub.State κ β
  up : κ → List Message
  got : κ → Nat
  pages : ω → WebSocket.State
  conn : ω → Nat → Option κ
  store : ω → List ε
  sent : List (κ × ε)
  shown : ω → List ε

inductive Label (κ β ω ε : Type) where
  /-- The sender's request for a connection reaches the server. -/
  | dial (c : κ) (ok : Bool)
  /-- A step of the sender other than a send that fails. -/
  | collector (l : Sender.Label ε)
  /-- A send fails; the text may be on its way all the same. -/
  | breaks (reached : Bool)
  /-- The request of a page's socket reaches the server. -/
  | request (w : ω) (i : Nat) (c : κ) (ok : Bool)
  | page (w : ω) (l : WebSocket.Label)
  /-- The server reads a client's next message. -/
  | reads (c : κ)
  | hub (l : Ws.Hub.Label κ β)

/-- The server has upgraded the connection. -/
def accepted : ServeWsPc → Bool
  | .registering | .served => true
  | .idle | .refused => false

section

variable {κ β ω ε : Type} [DecidableEq κ] [DecidableEq β] [DecidableEq ω]

def State.post (s : State κ β ω ε) (c : κ) (m : Message) : State κ β ω ε :=
  { s with up := Function.update s.up c (s.up c ++ [m]) }

def State.send (wire : Wire ε) (s : State κ β ω ε) (c : κ) (e : ε) : State κ β ω ε :=
  { s.post c (wire.encode e) with sent := s.sent ++ [(c, e)] }

/-- `addEvent`, unless the message is one that `onmessage` drops. -/
def State.show (s : State κ β ω ε) (w : ω) : Option ε → State κ β ω ε
  | some e => { s with
      store := Function.update s.store w (EventStore.step (s.store w) (.addEvent e))
      shown := Function.update s.shown w (s.shown w ++ [e]) }
  | none => s

def collectorStep (wire : Wire ε) (s : State κ β ω ε) :
    Sender.Label ε → Option (State κ β ω ε)
  | .connects =>
    match s.link with
    | some c =>
      if accepted (s.hub.serveWs c) then
        (Sender.step s.collector .connects).map fun st => { s with collector := st }
      else none
    | none => none
  | .connectFails =>
    (Sender.step s.collector .connectFails).map fun st => { s with collector := st, link := none }
  | .takes =>
    (Sender.step s.collector .takes).map fun st => { s with
      collector := st
      -- without an event the loop of the connection is over
      link := if st.phase.inHand.isEmpty then none else s.link }
  | .sends =>
    match s.link, s.collector.phase with
    | some c, .sending e =>
      (Sender.step s.collector .sends).map fun st => { s with collector := st }.send wire c e
    | _, _ => none
  | .sendFails => none
  | .put e => (Sender.step s.collector (.put e)).map fun st => { s with collector := st }
  | .close => (Sender.step s.collector .close).map fun st => { s with collector := st }
  | .awakes => (Sender.step s.collector .awakes).map fun st => { s with collector := st }
  | .frame => (Sender.step s.collector .frame).map fun st => { s with collector := st }

def breaksStep (wire : Wire ε) (s : State κ β ω ε) (reached : Bool) : Option (State κ β ω ε) :=
  match s.link, s.collector.phase with
  | some c, .sending e =>
    (Sender.step s.collector .sendFails).map fun st =>
      let s := { s with collector := st, link := none }
      if reached then s.send wire c e else s
  | _, _ => none

def openSocket (page : WebSocket.State) : Option Nat :=
  page.wsRef.filter fun i => page.sockets[i]? = some .open

def pageStep (wire : Wire ε) (cfg : WebSocket.Config) (s : State κ β ω ε) (w : ω)
    (l : WebSocket.Label) : Option (State κ β ω ε) :=
  (WebSocket.step cfg (s.pages w) l).bind fun page =>
    let t := { s with pages := Function.update s.pages w page }
    match l with
    | .opened i =>
      match s.conn w i with
      | some c => if accepted (s.hub.serveWs c) then some t else none
      | none => none
    | .heartbeat _ =>
      match (openSocket (s.pages w)).bind (s.conn w) with
      | some c => some (t.post c wire.ping)
      | none => some t
    | .message i =>
      match s.conn w i with
      | some c =>
        match (texts (s.hub.wire c))[s.got c]? with
        | some m =>
          some ({ t with got := Function.update s.got c (s.got c + 1) }.show w (wire.shows m))
        | none => none
      | none => none
    | _ => some t

def step (wire : Wire ε) (cfg : WebSocket.Config) (s : State κ β ω ε) :
    Label κ β ω ε → Option (State κ β ω ε)
  | .dial c ok =>
    match s.collector.phase, s.link with
    | .connecting, none =>
      (Ws.Hub.step s.hub (.upgrade c ok)).map fun hub => { s with hub, link := some c }
    | _, _ => none
  | .collector l => collectorStep wire s l
  | .breaks reached => breaksStep wire s reached
  | .request w i c ok =>
    if i < (s.pages w).sockets.length ∧ s.conn w i = none then
      (Ws.Hub.step s.hub (.upgrade c ok)).map fun hub => { s with
        hub, conn := Function.update s.conn w (Function.update (s.conn w) i (some c)) }
    else none
  | .page w l => pageStep wire cfg s w l
  | .reads c =>
    match s.up c with
    | m :: rest =>
      (Ws.Hub.step s.hub (.readMessage c m)).map fun hub =>
        { s with hub, up := Function.update s.up c rest }
    | [] => none
  | .hub l =>
    match l with
    -- these happen as above, and nobody calls `Broadcast`
    | .upgrade .. | .readMessage .. | .marshal .. => none
    | l => (Ws.Hub.step s.hub l).map fun hub => { s with hub }

def initial : State κ β ω ε where
  collector := Sender.wsSender.init
  link := none
  hub := newHub
  up := fun _ => []
  got := fun _ => 0
  pages := fun _ => WebSocket.rendered
  conn := fun _ _ => none
  store := fun _ => []
  sent := []
  shown := fun _ => []

def pipeline (wire : Wire ε) (cfg : WebSocket.Config) :
    Machine (State κ β ω ε) (Label κ β ω ε) where
  init := initial
  step := step wire cfg

end

end LearnPg.Pipeline
