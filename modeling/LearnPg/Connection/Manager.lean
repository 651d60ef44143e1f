import LearnPg.Basis.Runs
import Mathlib.Data.Finmap
import Mathlib.Data.Finset.Union

/-! The connection manager: node ids to clients, node ids to connection
parameters, and the active node's id. Every operation holds the manager's lock,
so each is one step. A client is named by its place among all that ever
connected, which also records what it connected to. -/
namespace LearnPg.Connection

open LearnPg.Basis.Runs

structure Config where
  host : String
  port : Int
  user : String
  password : String
  database : String
  deriving DecidableEq

structure Manager where
  conns : Finmap fun _ : String => Nat
  cfgStore : Finmap fun _ : String => Config
  active : Option String

/-- `opened` lists what every client connected to whose `Connect` succeeded. -/
structure State extends Manager where
  opened : List Config
  closed : Finset Nat

def newManager : State := ⟨⟨∅, ∅, none⟩, [], ∅⟩

/-- `pg.Client.Connect`, with what the server answers. -/
def State.connect (s : State) (cfg : Config) : Except String Unit → Except String (Nat × State)
  | .ok () => .ok (s.opened.length, { s with opened := s.opened ++ [cfg] })
  | .error err => .error err

def State.closeClient (s : State) (client : Nat) : State :=
  { s with closed := insert client s.closed }

def State.register (s : State) (nodeId : String) (cfg : Config) : State :=
  { s with cfgStore := s.cfgStore.insert nodeId cfg }

/-- Closes and forgets the node's connection, if it has one. -/
def State.closeConn (s : State) (nodeId : String) : State :=
  match s.conns.lookup nodeId with
  | some client => { s.closeClient client with conns := s.conns.erase nodeId }
  | none => s

def State.clearActive (s : State) (nodeId : String) : State :=
  { s with active := if s.active = some nodeId then some "" else s.active }

def State.unregister (s : State) (nodeId : String) : State :=
  (({ s with cfgStore := s.cfgStore.erase nodeId }).closeConn nodeId).clearActive nodeId

def State.deactivate (s : State) (nodeId : String) : State :=
  (s.closeConn nodeId).clearActive nodeId

def State.get (s : State) (nodeId : String) : Except String Nat :=
  match s.conns.lookup nodeId with
  | some client => .ok client
  | none => .error ("node " ++ nodeId ++ ": not connected")

def State.activate (s : State) (nodeId : String) (answer : Except String Unit) :
    State × Except String Unit :=
  match s.cfgStore.lookup nodeId with
  | none => (s, .error ("node " ++ nodeId ++ ": config not found, call Register first"))
  | some cfg =>
    match s.connect cfg answer with
    | .error err => (s, .error ("node " ++ nodeId ++ ": failed to connect: " ++ err))
    | .ok (client, s) =>
      ({ s with conns := s.conns.insert nodeId client, active := some nodeId }, .ok ())

def State.clients (s : State) : Finset Nat := (s.conns.entries.map Sigma.snd).toFinset

def State.close (s : State) : State :=
  { s with conns := ∅, active := some "", closed := s.closed ∪ s.clients }

def State.getActive (s : State) : String × Option Nat :=
  match s.active with
  | none => ("", none)
  | some nodeId =>
    if nodeId = "" then ("", none)
    else match s.conns.lookup nodeId with
      | none => ("", none)
      | some client => (nodeId, some client)

def State.count (s : State) : Nat := s.conns.keys.card

/-- `ping` is what the client's connection answers. -/
def State.health (s : State) (nodeId : String) (ping : Nat → Except String Unit) :
    Except String Unit :=
  s.get nodeId >>= ping

inductive Op where
  | register (nodeId : String) (cfg : Config)
  | unregister (nodeId : String)
  | activate (nodeId : String) (answer : Except String Unit)
  | deactivate (nodeId : String)
  | close

def State.apply (s : State) : Op → State
  | .register nodeId cfg => s.register nodeId cfg
  | .unregister nodeId => s.unregister nodeId
  | .activate nodeId answer => (s.activate nodeId answer).1
  | .deactivate nodeId => s.deactivate nodeId
  | .close => s.close

def manager : Machine State Op := ⟨newManager, fun s op => some (s.apply op)⟩

section

variable {s : State} {nodeId k : String} {c : Nat}

theorem mem_clients : c ∈ s.clients ↔ ∃ k, s.conns.lookup k = some c := by
  unfold State.clients
  induction s.conns using Finmap.induction_on with
  | H a =>
    simp only [Multiset.mem_toFinset, AList.toFinmap_entries, Multiset.map_coe,
      Multiset.mem_coe, List.mem_map, Sigma.exists, Finmap.lookup_toFinmap]
    constructor
    · rintro ⟨k, b, hb, rfl⟩
      exact ⟨k, AList.mem_lookup_iff.mpr hb⟩
    · rintro ⟨k, hk⟩
      exact ⟨k, c, AList.mem_lookup_iff.mp hk, rfl⟩

theorem lookup_register (cfg : Config) :
    (s.register nodeId cfg).cfgStore.lookup k =
      if k = nodeId then some cfg else s.cfgStore.lookup k := by
  unfold State.register
  split
  next h => rw [h, Finmap.lookup_insert]
  next h => exact Finmap.lookup_insert_of_ne _ h

theorem lookup_closeConn :
    (s.closeConn nodeId).conns.lookup k = if k = nodeId then none else s.conns.lookup k := by
  unfold State.closeConn
  cases hconn : s.conns.lookup nodeId with
  | some client =>
    change (s.conns.erase nodeId).lookup k = _
    by_cases h : k = nodeId
    · rw [if_pos h, h, Finmap.lookup_erase]
    · rw [if_neg h, Finmap.lookup_erase_ne h]
  | none =>
    change s.conns.lookup k = _
    by_cases h : k = nodeId
    · rw [if_pos h, h, hconn]
    · rw [if_neg h]

@[simp] theorem cfgStore_closeConn : (s.closeConn nodeId).cfgStore = s.cfgStore := by
  unfold State.closeConn
  split <;> rfl

@[simp] theorem active_closeConn : (s.closeConn nodeId).active = s.active := by
  unfold State.closeConn
  split <;> rfl

@[simp] theorem opened_closeConn : (s.closeConn nodeId).opened = s.opened := by
  unfold State.closeConn
  split <;> rfl

theorem closed_closeConn :
    c ∈ (s.closeConn nodeId).closed ↔ c ∈ s.closed ∨ s.conns.lookup nodeId = some c := by
  unfold State.closeConn
  cases hconn : s.conns.lookup nodeId with
  | some client =>
    rw [Option.some.injEq, or_comm, eq_comm]
    exact Finset.mem_insert
  | none => simp

/-- What `Activate` can do: nothing, with an error, or connect with the stored
parameters. -/
theorem activate_cases (s : State) (nodeId : String) (answer : Except String Unit) :
    (∃ err, s.activate nodeId answer = (s, .error err) ∧
      ((∃ cause, answer = .error cause) ∨ s.cfgStore.lookup nodeId = none)) ∨
    ∃ cfg, s.cfgStore.lookup nodeId = some cfg ∧ answer = .ok () ∧
      s.activate nodeId answer =
        ({ s with
            opened := s.opened ++ [cfg]
            conns := s.conns.insert nodeId s.opened.length
            active := some nodeId }, .ok ()) := by
  unfold State.activate
  cases hcfg : s.cfgStore.lookup nodeId with
  | none => exact .inl ⟨_, rfl, .inr rfl⟩
  | some cfg =>
    cases answer with
    | error cause => exact .inl ⟨_, rfl, .inl ⟨cause, rfl⟩⟩
    | ok => exact .inr ⟨cfg, rfl, rfl, rfl⟩

end

end LearnPg.Connection
