import LearnPg.Connection.Manager
import LearnPg.Workspace.Data

/-! The handlers that open a client of their own before they ask the manager for
one. -/
namespace LearnPg.Api

open Connection Workspace.Data

structure ServerConfig where
  pgHost : String
  pgPort : Int
  pgUser : String
  pgPassword : String
  pgDatabase : String

structure ConnectRequest where
  host : Option String
  port : Option Int
  user : Option String
  password : Option String
  database : Option String

/-- The parameters of a request, the server's own where it leaves them out. -/
def connectParams (config : ServerConfig) (req : ConnectRequest) : Except String Config :=
  if req.host = some "" then .error "host is required"
  else .ok {
    host := req.host.getD config.pgHost
    port := req.port.getD config.pgPort
    user := req.user.getD config.pgUser
    password := req.password.getD config.pgPassword
    database := req.database.getD config.pgDatabase }

/-- Connects a client, then has the manager connect another one with the same
parameters, whether or not that works. `own` and `managers` are what the server
answers to the two. -/
def serveConnect (config : ServerConfig) (s : State) (req : ConnectRequest)
    (own managers : Except String Unit) : State × Except String Unit :=
  match connectParams config req with
  | .error err => (s, .error err)
  | .ok cfg =>
    match s.connect cfg own with
    | .error err => (s, .error err)
    | .ok (_, s) => (((s.register "__direct__" cfg).activate "__direct__" managers).1, .ok ())

def nodeConfig (node : Node) : Config :=
  ⟨node.host, node.port, node.user, node.password, node.database⟩

def tryConnectNode (s : State) (node : Node) (own managers : Except String Unit) :
    State × Except String Unit :=
  match s.connect (nodeConfig node) own with
  | .error err => (s, .error err)
  | .ok (_, s) => (s.register node.id (nodeConfig node)).activate node.id managers

def withOwn (s : State) (cfg : Config) : State := { s with opened := s.opened ++ [cfg] }

theorem serveConnect_cases (config : ServerConfig) (s : State) (req : ConnectRequest)
    (own managers : Except String Unit) :
    (∃ err, serveConnect config s req own managers = (s, .error err) ∧
      ((∃ cause, connectParams config req = .error cause) ∨ ∃ cause, own = .error cause)) ∨
    ∃ cfg, connectParams config req = .ok cfg ∧ own = .ok () ∧
      serveConnect config s req own managers =
        ((((withOwn s cfg).register "__direct__" cfg).activate "__direct__" managers).1,
          .ok ()) := by
  unfold serveConnect
  cases hparams : connectParams config req with
  | error err => exact .inl ⟨err, rfl, .inl ⟨err, rfl⟩⟩
  | ok cfg =>
    cases own with
    | error err => exact .inl ⟨err, rfl, .inr ⟨err, rfl⟩⟩
    | ok => exact .inr ⟨cfg, rfl, rfl, rfl⟩

theorem tryConnectNode_cases (s : State) (node : Node) (own managers : Except String Unit) :
    (∃ err, tryConnectNode s node own managers = (s, .error err) ∧ own = .error err) ∨
    own = .ok () ∧ tryConnectNode s node own managers =
      ((withOwn s (nodeConfig node)).register node.id (nodeConfig node)).activate node.id
        managers := by
  cases own with
  | error err => exact .inl ⟨err, rfl, rfl⟩
  | ok => exact .inr ⟨rfl, rfl⟩

end LearnPg.Api
