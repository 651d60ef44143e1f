import LearnPg.Api.Activation
import LearnPg.Api.NodeLists
import LearnPg.Api.Reads

/-! Requests one after another that edit nodes in the workspace file and connect to
them in the manager: when the clients that the manager hands out are connected to
what the workspace stores. -/
namespace LearnPg.Api.Following

open Connection Workspace.Data Workspace.Secrets Workspace.Store Workspace.Places
  Workspace.Edits Workspace.Writes Workspace.AtRest Activation LearnPg.Basis.Runs

/-- `handed` lists the clients that `inspectNodeByID` handed out during the last
request, each with the node's id. -/
structure Backend where
  file : File
  manager : Connection.State
  handed : List (String × Nat)

inductive Request where
  | create (w : Nat → World) (clusterID : String) (req : NodeCreateRequest)
  | update (w : Nat → World) (nodeID : String) (req : NodeUpdateRequest)
  | delete (w : Nat → World) (nodeID : String)
  | activate (w : Nat → World) (answer : Except String Unit) (nodeID : String)
  | deactivate (w : World) (nodeID : String)
  | deleteCluster (w : Nat → World) (clusterID : String)
  | overview (clusterID : String) (w : World) (probe : Nat → Probe)

def handedOut (statuses : Except String (List NodeStatus)) : List (String × Nat) :=
  match statuses with
  | .error _ => []
  | .ok statuses => statuses.filterMap fun status => status.client.map fun c => (status.id, c)

def Backend.serve (s : WorkspaceStore) (st : Backend) : Request → Backend
  | .create w clusterID req => ⟨(serveNodeCreate s w clusterID req st.file).1, st.manager, []⟩
  | .update w nodeID req => ⟨(serveNodeUpdate s w nodeID req st.file).1, st.manager, []⟩
  | .delete w nodeID => ⟨(serveNodeDelete s w nodeID st.file).1, st.manager, []⟩
  | .activate w answer nodeID =>
    let (file, manager, _) := serveNodeActivateAlone s w answer nodeID st.file st.manager
    ⟨file, manager, []⟩
  | .deactivate w nodeID =>
    let (file, manager, _) := serveNodeDeactivateAlone s w nodeID st.file st.manager
    ⟨file, manager, []⟩
  | .deleteCluster w clusterID => ⟨(serveClusterDelete s w clusterID st.file).1, st.manager, []⟩
  | .overview clusterID w probe =>
    let (manager, statuses) := serveClusterOverview s st.file st.manager w probe clusterID
    ⟨st.file, manager, handedOut statuses⟩

/-- The store operation that a request makes of its own once its checks have passed. -/
def edit (s : WorkspaceStore) (file : File) : Request → Option (World × Workspace.Store.Request)
  | .create w clusterID req =>
    if clusterID = "" ∨ isBlank req.id ∨ isBlank req.name then none
    else match findClusterByID s (w 0) file clusterID with
    | .error _ => none
    | .ok (_, projectID) => some (w 1, .appendNode projectID clusterID req.node)
  | .update w nodeID req =>
    match findNode s (w 0) file nodeID with
    | .error _ => none
    | .ok (projectID, clusterID, _) =>
      some (w 1, .updateNodeLocked projectID clusterID nodeID fun n => .ok (req.patch n))
  | .delete w nodeID =>
    match findNode s (w 0) file nodeID with
    | .error _ => none
    | .ok (projectID, clusterID, _) => some (w 1, .deleteNodeLocked projectID clusterID nodeID)
  | .deleteCluster w clusterID =>
    if clusterID = "" then none
    else match findClusterByID s (w 0) file clusterID with
    | .error _ => none
    | .ok (_, projectID) => some (w 1, .deleteClusterLocked projectID clusterID)
  | _ => none

def Edits (s : WorkspaceStore) (file : File) (r : Request) (op : Workspace.Store.Request)
    (file' : File) : Prop :=
  ∃ w, edit s file r = some (w, op) ∧ (txn s w op).exec file = .ok file'

def backend (s : WorkspaceStore) (file : File) (manager : Connection.State) :
    Machine Backend Request :=
  ⟨⟨file, manager, []⟩, fun st r => some (st.serve s r)⟩

/-- The node exists, and the client is connected with the parameters that the
workspace stores under its id. -/
def Right (s : WorkspaceStore) (st : Backend) (nodeID : String) (client : Nat) : Prop :=
  ∃ cfg, st.manager.opened[client]? = some cfg ∧ (∃ n ∈ viewOf s st.file, n.id = nodeID) ∧
    ∀ n ∈ viewOf s st.file, n.id = nodeID → nodeConfig n = cfg

/-- The clients handed out are right. The server connects to a database of its own
under `__auto__`, which needs no node. -/
def Followed (s : WorkspaceStore) (st : Backend) : Prop :=
  (∀ nodeID client, st.manager.getActive = (nodeID, some client) →
      Right s st nodeID client ∨ nodeID = "__auto__" ∧ ∀ n ∈ viewOf s st.file, n.id ≠ nodeID) ∧
    ∀ e ∈ st.handed, Right s st e.1 e.2

/-- The nodes with the id have these parameters, and a password that reads the same
once it is written back; `__auto__` needs no node. -/
structure Agrees (s : WorkspaceStore) (nodes : List Node) (cfg : Config) (nodeID : String) :
    Prop where
  config : ∀ n ∈ nodes, n.id = nodeID →
    nodeConfig n = cfg ∧ Workspace.Places.readNode s n = n
  present : nodeID ≠ "__auto__" → ∃ n ∈ nodes, n.id = nodeID

/-- What every held client is connected to. -/
def Matched (s : WorkspaceStore) (file : File) (manager : Connection.State) : Prop :=
  ∀ nodeID client, manager.conns.lookup nodeID = some client →
    ∃ cfg, manager.opened[client]? = some cfg ∧ Agrees s (viewOf s file) cfg nodeID

/-- The nodes with the id have the same parameters, and passwords that read the same
once they are written back. -/
def Uniform (s : WorkspaceStore) (nodes : List Node) (nodeID : String) : Prop :=
  ∀ n ∈ nodes, n.id = nodeID → Workspace.Places.readNode s n = n ∧
    ∀ m ∈ nodes, m.id = nodeID → nodeConfig n = nodeConfig m

/-- The fields that the request sets are those of the parameters. -/
def Keeps (req : NodeUpdateRequest) (cfg : Config) : Prop :=
  req.host.getD cfg.host = cfg.host ∧ req.port.getD cfg.port = cfg.port ∧
    req.user.getD cfg.user = cfg.user ∧ req.password.getD cfg.password = cfg.password ∧
    req.database.getD cfg.database = cfg.database

/-- What keeps the clients right: no edit that the store carries out changes the
parameters of a connected node, adds others under its id or takes its last node
away, and none connects an id under which there are different parameters. -/
def Fits (s : WorkspaceStore) (st : Backend) (r : Request) : Prop :=
  match r with
  | .create _ _ req => (∃ op file, Edits s st.file r op file) →
    ∀ client cfg, st.manager.conns.lookup req.id = some client →
      st.manager.opened[client]? = some cfg →
      nodeConfig req.node = cfg ∧ Workspace.Places.readNode s req.node = req.node
  | .update _ nodeID req => (∃ op file, Edits s st.file r op file) →
    ∀ client cfg, st.manager.conns.lookup nodeID = some client →
      st.manager.opened[client]? = some cfg → Keeps req cfg
  | .delete _ nodeID => (∃ op file, Edits s st.file r op file) →
    nodeID ∈ st.manager.conns → 1 < (viewOf s st.file).countP (·.id = nodeID)
  | .deleteCluster _ clusterID => ∀ projectID file,
    Edits s st.file r (.deleteClusterLocked projectID clusterID) file →
    ∀ w projects cluster, readAll s w st.file = .ok projects →
      clusterByIDs projects projectID clusterID = some cluster →
      ∀ nodeID ∈ st.manager.conns, (∃ n ∈ cluster.nodes.items, n.id = nodeID) →
        cluster.nodes.items.countP (·.id = nodeID) <
          (viewOf s st.file).countP (·.id = nodeID)
  | .activate w answer nodeID => (∃ found, findNode s (w 0) st.file nodeID = .ok found) →
    (∃ file, setStatus s (w 1) nodeID "connecting" "" st.file = .ok file) → answer = .ok () →
      Uniform s (viewOf s st.file) nodeID
  | .deactivate _ _ => True
  | .overview clusterID w probe =>
    ∀ e ∈ inspections s st.file (.clusterOverview clusterID w probe),
      Connects s st.file st.manager e → Uniform s (viewOf s st.file) e.2

section

variable {s : WorkspaceStore} {st : Backend} {file file' : File} {r : Request}
  {manager : Connection.State} {xs ys old new : List Node} {n m : Node} {cfg : Config}
  {k nodeID : String} {client : Nat}

theorem readNode_same_password (h : Workspace.Places.readNode s n = n)
    (hpassword : m.password = n.password) : Workspace.Places.readNode s m = m := by
  unfold Workspace.Places.readNode at h ⊢
  cases hkey : s.encKey with
  | none => rfl
  | some key =>
    rw [hkey] at h
    dsimp only at h ⊢
    unfold decryptNode at h ⊢
    rw [hpassword]
    split
    next hencrypted =>
      rw [if_pos hencrypted] at h
      split
      next password hdecrypted =>
        rw [hdecrypted] at h
        have hsame : password = n.password := congrArg Node.password h
        rw [hsame, ← hpassword]
      next => rfl
    next => rfl

theorem Agrees.read (h : Agrees s xs cfg k) :
    Agrees s (xs.map (Workspace.Places.readNode s)) cfg k where
  config := by
    intro n hn hid
    obtain ⟨m, hm, rfl⟩ := List.mem_map.mp hn
    rw [readNode_id] at hid
    obtain ⟨hconfig, hread⟩ := h.config m hm hid
    rw [hread]
    exact ⟨hconfig, hread⟩
  present := by
    intro hk
    obtain ⟨n, hn, hid⟩ := h.present hk
    exact ⟨_, List.mem_map_of_mem hn, (readNode_id n).trans hid⟩

theorem Agrees.countP_pos (h : Agrees s xs cfg k) (hk : k ≠ "__auto__") :
    0 < xs.countP (·.id = k) := by
  obtain ⟨n, hn, hid⟩ := h.present hk
  exact List.countP_pos_iff.mpr ⟨n, hn, by simpa using hid⟩

theorem Agrees.rewrites (h : Agrees s (viewOf s file) cfg k) (hr : Rewrites s old new file file')
    (hnew : ∀ n ∈ new, n.id = k → nodeConfig n = cfg ∧ Workspace.Places.readNode s n = n)
    (hcount : k ≠ "__auto__" → old.countP (·.id = k) <
      (viewOf s file).countP (·.id = k) + new.countP (·.id = k)) :
    Agrees s (viewOf s file') cfg k := by
  obtain ⟨nodes, hreplaces, hview⟩ := hr
  rw [hview]
  apply Agrees.read
  constructor
  · intro n hn hid
    obtain hn | hn := hreplaces.mem hn
    · exact hnew n hn hid
    · exact h.config n hn hid
  · intro hk
    have hless := hcount hk
    have hcounts := hreplaces.countP (·.id = k)
    obtain ⟨n, hn, hid⟩ := List.countP_pos_iff.mp (show 0 < nodes.countP (·.id = k) by omega)
    exact ⟨n, hn, by simpa using hid⟩

theorem Agrees.patch (h : Agrees s (viewOf s file) cfg k) (hr : Rewrites s [n] [m] file file')
    (hid : m.id = n.id)
    (hm : n.id = k → nodeConfig n = cfg → Workspace.Places.readNode s n = n →
      nodeConfig m = cfg ∧ Workspace.Places.readNode s m = m) :
    Agrees s (viewOf s file') cfg k := by
  apply h.rewrites hr
  · intro n' hn' hk
    cases List.mem_singleton.mp hn'
    rw [hid] at hk
    obtain ⟨nodes, hreplaces, -⟩ := hr
    obtain ⟨hconfig, hread⟩ := h.config n (hreplaces.mem_old (List.mem_singleton_self n)) hk
    exact hm hk hconfig hread
  · intro hk
    have hpos := h.countP_pos hk
    simp only [List.countP_singleton, hid]
    omega

theorem store_file (s : WorkspaceStore) (w : World) (op : Workspace.Store.Request) (status : Nat)
    (file : File) (next : File → Except ApiError Body) :
    (store s w op status file next).1 = file ∨
      (txn s w op).exec file = .ok (store s w op status file next).1 := by
  unfold store
  cases (txn s w op).exec file with
  | error err => exact .inl rfl
  | ok file' => exact .inr rfl

section Edits

variable {w : Nat → World} {clusterID : String}
  (hdecode : ∀ bytes, s.crypto.decodeString (s.crypto.encodeToString bytes) = .ok bytes)
  (hopen : ∀ key, s.encKey = some key → ∀ (nonce : Nonce) plain,
    s.crypto.gcmOpen key nonce.val (s.crypto.gcmSeal key nonce.val plain) = .ok plain)

include hdecode hopen

theorem serveNodeCreate_rewrites (req : NodeCreateRequest) :
    (serveNodeCreate s w clusterID req file).1 = file ∨
      ∃ op, Edits s file (.create w clusterID req) op (serveNodeCreate s w clusterID req file).1 ∧
        Rewrites s [] [req.node] file (serveNodeCreate s w clusterID req file).1 := by
  unfold Edits edit serveNodeCreate
  dsimp only
  split
  · exact .inl rfl
  next hid =>
    cases findClusterByID s (w 0) file clusterID with
    | error err => exact .inl rfl
    | ok found =>
      dsimp only
      split
      · exact .inl rfl
      next hnode =>
        split
        · exact .inl rfl
        next hname =>
          rw [if_neg (by simp [hid, hnode, hname])]
          obtain hsame | hexec := store_file s (w 1)
            (.appendNode found.2 clusterID req.node) 400 file fun _ =>
              .ok (.node (maskNode req.node))
          · exact .inl hsame
          · exact .inr ⟨_, ⟨_, rfl, hexec⟩, appendNode_rewrites hdecode hopen hexec⟩

theorem serveNodeUpdate_rewrites (req : NodeUpdateRequest) :
    (serveNodeUpdate s w nodeID req file).1 = file ∨
      ∃ op, Edits s file (.update w nodeID req) op (serveNodeUpdate s w nodeID req file).1 ∧
        ∃ n, n.id = nodeID ∧
          Rewrites s [n] [req.patch n] file (serveNodeUpdate s w nodeID req file).1 := by
  unfold Edits edit serveNodeUpdate
  dsimp only
  cases findNode s (w 0) file nodeID with
  | error err => exact .inl rfl
  | ok found =>
    dsimp only
    obtain hsame | hexec := store_file s (w 1)
      (.updateNodeLocked found.1 found.2.1 nodeID fun n => .ok (req.patch n)) 500 file _
    · exact .inl hsame
    · exact .inr ⟨_, ⟨_, rfl, hexec⟩, updateNode_rewrites hdecode hopen hexec⟩

theorem serveNodeDelete_rewrites :
    (serveNodeDelete s w nodeID file).1 = file ∨
      ∃ op, Edits s file (.delete w nodeID) op (serveNodeDelete s w nodeID file).1 ∧
        ∃ n, n.id = nodeID ∧ Rewrites s [n] [] file (serveNodeDelete s w nodeID file).1 := by
  unfold Edits edit serveNodeDelete
  dsimp only
  cases findNode s (w 0) file nodeID with
  | error err => exact .inl rfl
  | ok found =>
    dsimp only
    obtain hsame | hexec := store_file s (w 1)
      (.deleteNodeLocked found.1 found.2.1 nodeID) 500 file fun _ => .ok .empty
    · exact .inl hsame
    · exact .inr ⟨_, ⟨_, rfl, hexec⟩, deleteNode_rewrites hdecode hopen hexec⟩

theorem serveClusterDelete_rewrites :
    (serveClusterDelete s w clusterID file).1 = file ∨
      ∃ projectID, Edits s file (.deleteCluster w clusterID)
          (.deleteClusterLocked projectID clusterID) (serveClusterDelete s w clusterID file).1 ∧
        ∃ projects c, readAll s (w 1) file = .ok projects ∧
          clusterByIDs projects projectID clusterID = some c ∧
          Rewrites s c.nodes.items [] file (serveClusterDelete s w clusterID file).1 := by
  unfold Edits edit serveClusterDelete
  dsimp only
  split
  · exact .inl rfl
  next hid =>
    cases findClusterByID s (w 0) file clusterID with
    | error err => exact .inl rfl
    | ok found =>
      dsimp only
      obtain hsame | hexec := store_file s (w 1) (.deleteClusterLocked found.2 clusterID) 500 file
        fun _ => .ok .empty
      · exact .inl hsame
      · exact .inr ⟨found.2, ⟨_, rfl, hexec⟩, deleteCluster_rewrites hdecode hopen hexec⟩

theorem Agrees.setStatus (h : Agrees s (viewOf s file) cfg k) {w : World}
    {status lastError : String} (hset : setStatus s w nodeID status lastError file = .ok file') :
    Agrees s (viewOf s file') cfg k := by
  obtain ⟨n, -, hr⟩ := updateNodeStatus_rewrites hdecode hopen hset
  apply h.patch hr rfl
  intro _ hconfig hread
  exact ⟨hconfig, readNode_same_password hread rfl⟩

theorem Agrees.trySetStatus (h : Agrees s (viewOf s file) cfg k) (w : World)
    (status lastError : String) :
    Agrees s (viewOf s (trySetStatus s w nodeID status lastError file)) cfg k := by
  unfold Activation.trySetStatus
  cases hset : Activation.setStatus s w nodeID status lastError file with
  | error err => exact h
  | ok file' => exact Agrees.setStatus hdecode hopen h hset

end Edits

end

end LearnPg.Api.Following
