import LearnPg.Api.Nodes
import LearnPg.Workspace.Dsn
import LearnPg.Workspace.Erasure
import LearnPg.Workspace.Hosts
import LearnPg.Workspace.Writes

/-! What of the nodes' passwords the responses depend on. All but one mask the
password field; the DSN goes out as it is stored. -/
namespace LearnPg.Api

open Workspace.Data Workspace.Secrets Workspace.Store Workspace.Places Workspace.Writes
  Workspace.Edits Workspace.Erasure Workspace.Dsn Workspace LearnPg.Basis.Sections

/-- Requests answered with projects, clusters or nodes of the workspace, masked. -/
inductive MaskedRead where
  | projectList
  | project (id : String)
  | node (id : String)
  | updateProject (id : String) (req : ProjectUpdateRequest)
  | updateCluster (id : String) (req : ClusterUpdateRequest)
  | updateNode (id : String) (req : NodeUpdateRequest)

/-- Requests answered with what they created. -/
inductive Create where
  | project (req : ProjectCreateRequest)
  | cluster (projectID : String) (req : ClusterCreateRequest)
  | node (clusterID : String) (req : NodeCreateRequest)

inductive Read where
  | workspaceProjects
  | masked (read : MaskedRead)
  | create (create : Create)

section

variable (s : WorkspaceStore) (w : Nat → World) (file : File)

def respondMasked : MaskedRead → Except ApiError Body
  | .projectList => serveProjectList s (w 0) file
  | .project id => serveProjectGet s (w 0) id file
  | .node id => serveNodeGet s (w 0) id file
  | .updateProject id req => (serveProjectUpdate s w id req file).2
  | .updateCluster id req => (serveClusterUpdate s w id req file).2
  | .updateNode id req => (serveNodeUpdate s w id req file).2

def respondCreate : Create → Except ApiError Body
  | .project req => (serveProjectCreate s (w 0) req file).2
  | .cluster projectID req => (serveClusterCreate s (w 0) projectID req file).2
  | .node clusterID req => (serveNodeCreate s w clusterID req file).2

def respond : Read → Except ApiError Body
  | .workspaceProjects => serveWorkspaceProjects s (w 0) file
  | .masked read => respondMasked s w file read
  | .create create => respondCreate s w file create

end

def mapFile (f : Node → Node) : File → File
  | .legacy projects => .legacy (mapNodes f projects)
  | .envelope env => .envelope { env with projects := mapNodes f env.projects }
  | file => file

def blankNode (n : Node) : Node := { n with password := "", dsn := setPassword [] n.dsn }

/-- Two files that differ in the nodes' passwords only, the password field and the
one in the DSN. -/
def SameButPasswords (file file' : File) : Prop := mapFile blankNode file = mapFile blankNode file'

/-- The projects in a file, passwords as they are stored. -/
def parse : File → Except String (Slice Project)
  | .missing | .blank => .ok (.of [])
  | .malformed err => .error err
  | .legacy projects => .ok (normalizeProjects projects)
  | .envelope env => .ok (normalizeProjects env.projects)

/-- The nodes of the workspace that a masked response shows. -/
def shown (projects : Slice Project) : MaskedRead → List Node
  | .projectList => allNodes projects
  | .project id | .updateProject id _ =>
    if id = "" then [] else ((projectByID projects id).map projectNodes).getD []
  | .node id => if id = "" then [] else ((locateNode projects id).map (·.2.2)).toList
  | .updateCluster id _ =>
    if id = "" then []
    else match locateCluster projects id with
    | none => []
    | some (cluster, projectID) =>
      if (clusterByIDs projects projectID id).isSome then cluster.nodes.items else []
  | .updateNode id _ =>
    if id = "" then []
    else match locateNode projects id with
    | none => []
    | some (projectID, clusterID, _) => (nodeByIDs projects projectID clusterID id).toList

/-- The condition under which a response does not depend on passwords. -/
def NothingShown (file : File) : Read → Prop
  | .workspaceProjects => ∀ projects, parse file = .ok projects → allNodes projects = []
  | .masked read => ∀ projects, parse file = .ok projects →
    ∀ n ∈ shown projects read, dsnPassword n.dsn = none
  | .create _ => True

/-- A change of nodes that does not look at the password and keeps the id. -/
structure Blind (k : Node → Node) : Prop where
  password : ∀ n pw, k { n with password := pw } = k n
  id : ∀ n, (k n).id = n.id

def seenBy (k : Node → Node) (file : File) : Except String (Slice Project) :=
  (parse file).map (mapNodes k)

section Store

variable {s : WorkspaceStore} {w : World} {file : File} {k : Node → Node}

theorem Blind.readNode (hk : Blind k) (n : Node) : k (readNode s n) = k n := by
  unfold Workspace.Places.readNode
  cases s.encKey with
  | none => rfl
  | some key =>
    dsimp only
    unfold decryptNode
    split
    · split
      · exact hk.password n _
      · rfl
    · rfl

theorem Blind.writtenAs (hk : Blind k) {n n' : Node} (h : WrittenAs s n n') : k n' = k n := by
  unfold WrittenAs at h
  split at h
  · rw [h]
  next key _ =>
    obtain ⟨nonce, h⟩ := h
    unfold encryptNode at h
    split at h
    · cases h
      rfl
    · obtain ⟨ct, -, h⟩ := bind_ok.mp h
      cases h
      exact hk.password n ct

theorem readEnvelope_parse : (readEnvelopeNoLock s w file).map (·.projects) =
    (check w.readError >>= fun _ => parse file).map (mapNodes (readNode s)) := by
  unfold readEnvelopeNoLock
  cases w.readError with
  | some err => rfl
  | none =>
    cases file with
    | missing | blank | malformed => rfl
    | legacy projects => exact congrArg Except.ok (decrypt_eq _)
    | envelope env => exact congrArg Except.ok (decrypt_eq _)

theorem map_map {ε α β γ : Type} (f : α → β) (g : β → γ) (x : Except ε α) :
    (x.map f).map g = x.map fun a => g (f a) := by
  cases x <;> rfl

theorem Blind.mapNodes_read (hk : Blind k) (projects : Slice Project) :
    mapNodes k (mapNodes (Workspace.Places.readNode s) projects) = mapNodes k projects := by
  rw [mapNodes_mapNodes]
  simp only [hk.readNode]

theorem readAll_parse : readAll s w file =
    (check w.readError >>= fun _ => parse file).map (mapNodes (Workspace.Places.readNode s)) := by
  rw [← readEnvelope_parse]
  unfold readAll
  cases readEnvelopeNoLock s w file <;> rfl

theorem readAll_seenBy (hk : Blind k) : (readAll s w file).map (mapNodes k) =
    check w.readError >>= fun _ => seenBy k file := by
  rw [readAll_parse, map_map]
  simp only [hk.mapNodes_read]
  cases w.readError with
  | some err => rfl
  | none => rfl

def writeCalls (w : World) : Except String Unit := do
  check w.mkdirError
  check w.writeError
  check w.renameError

/-- An edit of projects with the calls around it, on what a blind change leaves. -/
def written (w : World) (edit : Slice Project → Except String (Slice Project))
    (projects : Except String (Slice Project)) : Except String (Slice Project) := do
  check w.readError
  let projects ← projects
  let next ← edit projects
  writeCalls w
  return normalizeProjects next

theorem write_seenBy (hk : Blind k) (hkey : KeyFits s) (hw : RandomWorks w) (env : Envelope) :
    (writeEnvelopeLocked s w env >>= seenBy k) = do
      writeCalls w
      return mapNodes k (normalizeProjects env.projects) := by
  obtain ⟨projects, hprojects⟩ := encrypt_total hkey hw env.projects
  have hsame : mapNodes k projects = mapNodes k env.projects :=
    (encrypt_onNodes hprojects).mapNodes_eq fun _ _ => hk.writtenAs
  unfold writeEnvelopeLocked writeCalls
  rw [hprojects]
  cases w.mkdirError with
  | some err => rfl
  | none =>
    cases w.writeError with
    | some err => rfl
    | none =>
      cases w.renameError with
      | some err => rfl
      | none =>
        change Except.ok (mapNodes k (normalizeProjects projects)) = Except.ok _
        rw [← normalize_mapNodes, hsame, normalize_mapNodes]

theorem exec_seenBy (hk : Blind k) (hkey : KeyFits s) (hw : RandomWorks w)
    {edit edit' : Slice Project → Except String (Slice Project)}
    (hedit : ∀ projects, edit' (mapNodes k projects) = (edit projects).map (mapNodes k)) :
    ((locked s w (onProjects edit)).exec file >>= seenBy k) =
      written w edit' (seenBy k file) := by
  have hread : written w edit' (seenBy k file) =
      (readAll s w file).map (mapNodes k) >>= fun projects => edit' projects >>= fun next => do
        writeCalls w
        return normalizeProjects next := by
    rw [readAll_seenBy hk, bind_assoc]
    rfl
  rw [hread]
  unfold readAll
  change (readEnvelopeNoLock s w file >>= fun env => onProjects edit env >>=
    writeEnvelopeLocked s w) >>= seenBy k = _
  cases readEnvelopeNoLock s w file with
  | error err => rfl
  | ok env =>
    change onProjects edit env >>= writeEnvelopeLocked s w >>= seenBy k =
      edit' (mapNodes k env.projects) >>= _
    unfold onProjects
    rw [hedit]
    cases edit env.projects with
    | error err => rfl
    | ok next =>
      apply (write_seenBy hk hkey hw { env with projects := next }).trans
      simp only [← normalize_mapNodes]
      rfl

end Store

def onDsn (δ : String → String) (n : Node) : Node := { n with dsn := δ n.dsn }

theorem onDsn_dsn (δ : String → String) (n : Node) : (onDsn δ n).dsn = δ n.dsn := rfl

def veil (δ : String → String) (n : Node) : Node := onDsn δ (maskNode n)

def Body.mapNodes (f : Node → Node) : Body → Body
  | .snapshot version ps => .snapshot version (Workspace.Places.mapNodes f ps)
  | .projects ps => .projects (Workspace.Places.mapNodes f ps)
  | .project p => .project (mapProject f p)
  | .cluster c => .cluster (mapCluster f c)
  | .node n => .node (f n)
  | .empty => .empty

theorem blind_mask : Blind maskNode := ⟨fun _ _ => rfl, fun _ => rfl⟩

theorem blind_veil (δ : String → String) : Blind (veil δ) := ⟨fun _ _ => rfl, fun _ => rfl⟩

section Veil

variable {s : WorkspaceStore} {w : Nat → World} {file file' : File} {δ : String → String}

theorem except_map_eq {ε α β γ : Type} {f : α → γ} {g : β → γ} {x : Except ε α} {y : Except ε β}
    (h : x.map f = y.map g) :
    (∃ e, x = .error e ∧ y = .error e) ∨ ∃ a b, x = .ok a ∧ y = .ok b ∧ f a = g b := by
  cases x with
  | error e =>
    cases y with
    | error e' =>
      cases h
      exact .inl ⟨e, rfl, rfl⟩
    | ok b => cases h
  | ok a =>
    cases y with
    | error e' => cases h
    | ok b => exact .inr ⟨a, b, rfl, rfl, Except.ok.inj h⟩

theorem option_map_eq {α β γ : Type} {f : α → γ} {g : β → γ} {x : Option α} {y : Option β}
    (h : x.map f = y.map g) : x = none ∧ y = none ∨ ∃ a b, x = some a ∧ y = some b ∧ f a = g b := by
  cases x with
  | none =>
    cases y with
    | none => exact .inl ⟨rfl, rfl⟩
    | some b => cases h
  | some a =>
    cases y with
    | none => cases h
    | some b => exact .inr ⟨a, b, rfl, rfl, Option.some.inj h⟩

theorem readAll_veil (h : seenBy maskNode file' = seenBy (veil δ) file) (w : World) :
    (readAll s w file').map (mapNodes maskNode) = (readAll s w file).map (mapNodes (veil δ)) := by
  rw [readAll_seenBy blind_mask, readAll_seenBy (blind_veil δ), h]

theorem maskCluster_map {f g : Node → Node} (hg : ∀ n, maskNode (g n) = f n) (c : Cluster) :
    maskCluster (mapCluster g c) = { c with nodes := .of (c.nodes.items.map f) } := by
  unfold maskCluster mapCluster
  simp only [items_map, List.map_map, Function.comp_def, hg]

theorem maskProject_map {f g : Node → Node} (hg : ∀ n, maskNode (g n) = f n) (p : Project) :
    maskProject (mapProject g p) = { p with clusters := .of (p.clusters.items.map fun c =>
      { c with nodes := .of (c.nodes.items.map f) }) } := by
  unfold maskProject mapProject
  simp only [items_map, List.map_map, Function.comp_def, maskCluster_map hg]

theorem maskCluster_veil {c c' : Cluster} (h : mapCluster maskNode c' = mapCluster (veil δ) c) :
    maskCluster c' = mapCluster (onDsn δ) (maskCluster c) := by
  have hmask := maskCluster_map (g := maskNode) (f := maskNode) (fun _ => rfl) c'
  have hveil := maskCluster_map (g := veil δ) (f := veil δ) (fun _ => rfl) c
  rw [h, hveil] at hmask
  apply hmask.symm.trans
  unfold maskCluster mapCluster
  rw [map_of, List.map_map]
  rfl

theorem maskProject_mask (p : Project) : maskProject (mapProject maskNode p) = maskProject p :=
  maskProject_map (fun _ => rfl) p

theorem maskProject_onDsn (p : Project) :
    maskProject (mapProject (veil δ) p) = mapProject (onDsn δ) (maskProject p) := by
  have hveil := maskProject_map (g := veil δ) (f := veil δ) (fun _ => rfl) p
  rw [hveil]
  unfold maskProject mapProject maskCluster mapCluster
  simp only [map_of, List.map_map, Function.comp_def]
  rfl

theorem maskProject_veil {p p' : Project} (h : mapProject maskNode p' = mapProject (veil δ) p) :
    maskProject p' = mapProject (onDsn δ) (maskProject p) := by
  rw [← maskProject_mask, h, maskProject_onDsn]

/-- An edit leaves two files alike that were alike before. -/
theorem store_veil (hkey : KeyFits s) {w : World} (hw : RandomWorks w)
    (h : seenBy maskNode file' = seenBy (veil δ) file) {r : Request}
    {edit : Slice Project → Except String (Slice Project)}
    (hr : txn s w r = locked s w (onProjects edit))
    (edit' : Slice Project → Except String (Slice Project))
    (hmask : ∀ ps, edit' (mapNodes maskNode ps) = (edit ps).map (mapNodes maskNode))
    (hveil : ∀ ps, edit' (mapNodes (veil δ) ps) = (edit ps).map (mapNodes (veil δ)))
    {status : Nat} {next : File → Except ApiError Body}
    (hnext : ∀ file file', seenBy maskNode file' = seenBy (veil δ) file →
      next file' = (next file).map (Body.mapNodes (onDsn δ))) :
    (store s w r status file' next).2 =
      (store s w r status file next).2.map (Body.mapNodes (onDsn δ)) := by
  have hboth : ((txn s w r).exec file' >>= seenBy maskNode) =
      ((txn s w r).exec file >>= seenBy (veil δ)) := by
    rw [hr, exec_seenBy blind_mask hkey hw hmask, exec_seenBy (blind_veil δ) hkey hw hveil, h]
  unfold store
  cases hexec : (txn s w r).exec file with
  | error err =>
    cases hexec' : (txn s w r).exec file' with
    | error err' =>
      rw [hexec, hexec'] at hboth
      cases hboth
      rfl
    | ok next' =>
      obtain ⟨env, rfl⟩ := Hosts.exec_envelope hexec'
      rw [hexec, hexec'] at hboth
      cases hboth
  | ok next =>
    cases hexec' : (txn s w r).exec file' with
    | error err' =>
      obtain ⟨env, rfl⟩ := Hosts.exec_envelope hexec
      rw [hexec, hexec'] at hboth
      cases hboth
    | ok next' =>
      rw [hexec, hexec'] at hboth
      exact hnext next next' hboth

theorem findNode_veil (h : seenBy maskNode file' = seenBy (veil δ) file) (w : World)
    (nodeID : String) :
    (findNode s w file' nodeID).map (fun found => (found.1, found.2.1, maskNode found.2.2)) =
      (findNode s w file nodeID).map fun found => (found.1, found.2.1, veil δ found.2.2) := by
  unfold findNode
  split
  · rfl
  obtain ⟨err, herr', herr⟩ | ⟨ps', ps, hps', hps, hsame⟩ :=
    except_map_eq (readAll_veil (s := s) h w)
  · rw [herr', herr]
    rfl
  · rw [hps', hps]
    dsimp only
    have hlocate := congrArg (locateNode · nodeID) hsame
    rw [locateNode_mapNodes blind_mask.id, locateNode_mapNodes (blind_veil δ).id] at hlocate
    obtain ⟨hnone', hnone⟩ | ⟨found', found, hfound', hfound, heq⟩ := option_map_eq hlocate
    · rw [hnone', hnone]
      rfl
    · rw [hfound', hfound]
      exact congrArg Except.ok heq

theorem findCluster_veil (h : seenBy maskNode file' = seenBy (veil δ) file) (w : World)
    (clusterID : String) :
    (findClusterByID s w file' clusterID).map
        (fun found => (mapCluster maskNode found.1, found.2)) =
      (findClusterByID s w file clusterID).map
        fun found => (mapCluster (veil δ) found.1, found.2) := by
  unfold findClusterByID
  obtain ⟨err, herr', herr⟩ | ⟨ps', ps, hps', hps, hsame⟩ :=
    except_map_eq (readAll_veil (s := s) h w)
  · rw [herr', herr]
    rfl
  · rw [hps', hps]
    dsimp only
    have hlocate := congrArg (locateCluster · clusterID) hsame
    rw [locateCluster_mapNodes, locateCluster_mapNodes] at hlocate
    obtain ⟨hnone', hnone⟩ | ⟨found', found, hfound', hfound, heq⟩ := option_map_eq hlocate
    · rw [hnone', hnone]
      rfl
    · rw [hfound', hfound]
      exact congrArg Except.ok heq

theorem read_veil {β γ : Type} {g g' : β → γ} {f : Slice Project → β}
    (h : seenBy maskNode file' = seenBy (veil δ) file) (w : World)
    (hf : ∀ ps' ps, mapNodes maskNode ps' = mapNodes (veil δ) ps → g (f ps') = g' (f ps)) :
    ((readAll s w file').map f).map g = ((readAll s w file).map f).map g' := by
  obtain ⟨err, herr', herr⟩ | ⟨ps', ps, hps', hps, hsame⟩ :=
    except_map_eq (readAll_veil (s := s) h w)
  · rw [herr', herr]
    rfl
  · rw [hps', hps]
    exact congrArg Except.ok (hf ps' ps hsame)

theorem getProject_veil (h : seenBy maskNode file' = seenBy (veil δ) file) (w : World)
    (id : String) :
    (getProject s w file' id).map (Option.map (mapProject maskNode)) =
      (getProject s w file id).map (Option.map (mapProject (veil δ))) := by
  refine read_veil h w fun ps' ps hsame => ?_
  have hlookup := congrArg (projectByID · id) hsame
  rwa [projectByID_mapNodes, projectByID_mapNodes] at hlookup

theorem getNode_veil (h : seenBy maskNode file' = seenBy (veil δ) file) (w : World)
    (projectID clusterID nodeID : String) :
    (getNode s w file' projectID clusterID nodeID).map (Option.map maskNode) =
      (getNode s w file projectID clusterID nodeID).map (Option.map (veil δ)) := by
  refine read_veil h w fun ps' ps hsame => ?_
  have hlookup := congrArg (nodeByIDs · projectID clusterID nodeID) hsame
  rwa [nodeByIDs_mapNodes blind_mask.id, nodeByIDs_mapNodes (blind_veil δ).id] at hlookup

theorem updateProject_veil (hkey : KeyFits s) (hw : ∀ i, RandomWorks (w i))
    (h : seenBy maskNode file' = seenBy (veil δ) file) (id : String) (req : ProjectUpdateRequest) :
    (serveProjectUpdate s w id req file').2 =
      (serveProjectUpdate s w id req file).2.map (Body.mapNodes (onDsn δ)) := by
  unfold serveProjectUpdate
  split
  · rfl
  refine store_veil hkey (hw 0) h rfl (updateProject id fun p => .ok (req.patch p))
    (fun ps => updateProject_mapNodes _ fun _ => rfl)
    (fun ps => updateProject_mapNodes _ fun _ => rfl) fun file file' h => ?_
  obtain ⟨err, herr', herr⟩ | ⟨p', p, hp', hp, hsame⟩ :=
    except_map_eq (getProject_veil (s := s) h (w 1) id)
  · rw [herr', herr]
    rfl
  · rw [hp', hp]
    obtain ⟨rfl, rfl⟩ | ⟨q', q, rfl, rfl, hproject⟩ := option_map_eq hsame
    · rfl
    · exact congrArg (fun p => Except.ok (Body.project p)) (maskProject_veil hproject)

theorem updateCluster_veil (hkey : KeyFits s) (hw : ∀ i, RandomWorks (w i))
    (h : seenBy maskNode file' = seenBy (veil δ) file) (id : String) (req : ClusterUpdateRequest) :
    (serveClusterUpdate s w id req file').2 =
      (serveClusterUpdate s w id req file).2.map (Body.mapNodes (onDsn δ)) := by
  unfold serveClusterUpdate
  split
  · rfl
  obtain ⟨err, herr', herr⟩ | ⟨⟨c', projectID'⟩, ⟨c, projectID⟩, hc', hc, hsame⟩ :=
    except_map_eq (findCluster_veil (s := s) h (w 0) id)
  · rw [herr', herr]
    rfl
  rw [hc', hc]
  obtain rfl := (Prod.mk.inj hsame).2
  refine store_veil hkey (hw 1) h rfl
    (updateCluster projectID' id fun c => .ok (req.patch c))
    (fun ps => updateCluster_mapNodes _ fun _ => rfl)
    (fun ps => updateCluster_mapNodes _ fun _ => rfl) fun file file' h => ?_
  obtain ⟨err, herr', herr⟩ | ⟨found', found, hfound', hfound, hsame⟩ :=
    except_map_eq (findCluster_veil (s := s) h (w 2) id)
  · rw [herr', herr]
    rfl
  · rw [hfound', hfound]
    exact congrArg (fun c => Except.ok (Body.cluster c))
      (maskCluster_veil (Prod.mk.inj hsame).1)

theorem updateNode_veil (hkey : KeyFits s) (hw : ∀ i, RandomWorks (w i))
    (h : seenBy maskNode file' = seenBy (veil δ) file) (id : String) (req : NodeUpdateRequest) :
    (serveNodeUpdate s w id req file').2 =
      (serveNodeUpdate s w id req file).2.map (Body.mapNodes (onDsn δ)) := by
  unfold serveNodeUpdate
  obtain ⟨err, herr', herr⟩ | ⟨⟨p', c', n'⟩, ⟨p, c, n⟩, hn', hn, hsame⟩ :=
    except_map_eq (findNode_veil (s := s) h (w 0) id)
  · rw [herr', herr]
    rfl
  rw [hn', hn]
  obtain ⟨rfl, hrest⟩ := Prod.mk.inj hsame
  obtain ⟨rfl, -⟩ := Prod.mk.inj hrest
  refine store_veil hkey (hw 1) h rfl
    (updateNode p' c' id fun n => .ok (maskNode (req.patch n)))
    (fun ps => updateNode_mapNodes _ (fun _ => rfl) fun _ => rfl)
    (fun ps => updateNode_mapNodes _ (fun _ => rfl) fun _ => rfl) fun file file' h => ?_
  obtain ⟨err, herr', herr⟩ | ⟨m', m, hm', hm, hsame⟩ :=
    except_map_eq (getNode_veil (s := s) h (w 2) p' c' id)
  · rw [herr', herr]
    rfl
  · rw [hm', hm]
    obtain ⟨rfl, rfl⟩ | ⟨q', q, rfl, rfl, hnode⟩ := option_map_eq hsame
    · rfl
    · exact congrArg (fun n => Except.ok (Body.node n)) hnode

theorem respondMasked_veil (hkey : KeyFits s) (hw : ∀ i, RandomWorks (w i))
    (h : seenBy maskNode file' = seenBy (veil δ) file) (read : MaskedRead) :
    respondMasked s w file' read =
      (respondMasked s w file read).map (Body.mapNodes (onDsn δ)) := by
  cases read with
  | projectList =>
    unfold respondMasked serveProjectList
    dsimp only
    obtain ⟨err, herr', herr⟩ | ⟨ps', ps, hps', hps, hsame⟩ :=
      except_map_eq (readAll_veil (s := s) h (w 0))
    · rw [herr', herr]
      rfl
    · rw [hps', hps]
      have hitems := congrArg (fun ps => ps.items.map maskProject) hsame
      simp only [mapNodes, items_map, List.map_map, Function.comp_def, maskProject_mask,
        maskProject_onDsn] at hitems
      have hbody : Body.projects (.of (ps'.items.map maskProject)) =
          Body.mapNodes (onDsn δ) (.projects (.of (ps.items.map maskProject))) := by
        change Body.projects (.of (ps'.items.map maskProject)) =
          .projects (.of ((ps.items.map maskProject).map (mapProject (onDsn δ))))
        rw [hitems, List.map_map]
        rfl
      exact congrArg Except.ok hbody
  | project id =>
    unfold respondMasked serveProjectGet
    dsimp only
    split
    · rfl
    obtain ⟨err, herr', herr⟩ | ⟨p', p, hp', hp, hsame⟩ :=
      except_map_eq (getProject_veil (s := s) h (w 0) id)
    · rw [herr', herr]
      rfl
    · rw [hp', hp]
      obtain ⟨rfl, rfl⟩ | ⟨q', q, rfl, rfl, hproject⟩ := option_map_eq hsame
      · rfl
      · exact congrArg (fun p => Except.ok (Body.project p)) (maskProject_veil hproject)
  | node id =>
    unfold respondMasked serveNodeGet
    dsimp only
    obtain ⟨err, herr', herr⟩ | ⟨found', found, hfound', hfound, hsame⟩ :=
      except_map_eq (findNode_veil (s := s) h (w 0) id)
    · rw [herr', herr]
      rfl
    · rw [hfound', hfound]
      exact congrArg (fun found => Except.ok (Body.node found.2.2)) hsame
  | updateProject id req => exact updateProject_veil hkey hw h id req
  | updateCluster id req => exact updateCluster_veil hkey hw h id req
  | updateNode id req => exact updateNode_veil hkey hw h id req

end Veil

section Create

variable {s : WorkspaceStore} {file : File} {g : Node → Node}

theorem parse_mapFile (g : Node → Node) (file : File) :
    parse (mapFile g file) = (parse file).map (mapNodes g) := by
  cases file with
  | missing | blank | malformed => rfl
  | legacy projects => exact congrArg Except.ok normalize_mapNodes
  | envelope env => exact congrArg Except.ok normalize_mapNodes

theorem readAll_mapFile (w : World) : readAll s w (mapFile g file) =
    (check w.readError >>= fun _ => parse file).map
      (mapNodes fun n => Workspace.Places.readNode s (g n)) := by
  rw [readAll_parse, parse_mapFile]
  cases w.readError with
  | some err => rfl
  | none =>
    change ((parse file).map (mapNodes g)).map _ = (parse file).map _
    rw [map_map]
    simp only [mapNodes_mapNodes]

theorem writeAll_outcome (hkey : KeyFits s) {w : World} (hw : RandomWorks w)
    (plan : Slice Project) (file : File) :
    (writeAll s w plan file).map (fun _ => ()) = writeCalls w := by
  obtain ⟨projects, hprojects⟩ := encrypt_total hkey hw (normalizeProjects plan)
  unfold writeAll writeEnvelopeLocked writeCalls
  dsimp only
  rw [hprojects]
  cases w.mkdirError with
  | some err => rfl
  | none =>
    cases w.writeError with
    | some err => rfl
    | none => cases w.renameError <;> rfl

theorem split_outcome (hkey : KeyFits s) {w : World} (hw : RandomWorks w)
    (hid : ∀ n, (g n).id = n.id) {edit : Slice Project → Except String (Slice Project)}
    (hedit : ∀ k : Node → Node, (∀ n, (k n).id = n.id) → ∀ ps,
      (edit (mapNodes k ps)).map (fun _ => ()) = (edit ps).map fun _ => ()) (file : File) :
    ((Txn.split (fun file => readAll s w file >>= edit) (writeAll s w)).exec
        (mapFile g file)).map (fun _ => ()) =
      ((Txn.split (fun file => readAll s w file >>= edit) (writeAll s w)).exec file).map
        fun _ => () := by
  have hexec (x : Except String (Slice Project)) (file : File) :
      (x >>= fun plan => writeAll s w plan file).map (fun _ => ()) =
        x.map (fun _ => ()) >>= fun _ => writeCalls w := by
    cases x with
    | error err => rfl
    | ok plan => exact writeAll_outcome hkey hw plan file
  unfold Txn.exec
  dsimp only
  rw [hexec, hexec, readAll_mapFile, readAll_parse]
  cases (check w.readError >>= fun _ => parse file) with
  | error err => rfl
  | ok ps =>
    change (edit (mapNodes _ ps)).map _ >>= _ = (edit (mapNodes _ ps)).map _ >>= _
    rw [hedit _ (fun n => (readNode_id _).trans (hid n)), hedit _ readNode_id]

theorem store_outcome {w : World} {r : Request} {file file' : File}
    (h : ((txn s w r).exec file').map (fun _ => ()) = ((txn s w r).exec file).map fun _ => ())
    (status : Nat) (answer : Except ApiError Body) :
    (store s w r status file' fun _ => answer).2 =
      (store s w r status file fun _ => answer).2 := by
  unfold store
  obtain ⟨err, herr', herr⟩ | ⟨next', next, hnext', hnext, -⟩ := except_map_eq h
  · rw [herr', herr]
  · rw [hnext', hnext]

theorem upsert_outcome (hkey : KeyFits s) {w : World} (hw : RandomWorks w)
    (hid : ∀ n, (g n).id = n.id) (p : Project) (file : File) :
    ((txn s w (.upsert p)).exec (mapFile g file)).map (fun _ => ()) =
      ((txn s w (.upsert p)).exec file).map fun _ => () := by
  apply split_outcome hkey hw hid
  intro k _ ps
  split <;> rfl

theorem appendCluster_outcome (hkey : KeyFits s) {w : World} (hw : RandomWorks w)
    (hid : ∀ n, (g n).id = n.id) (projectID : String) (cluster : Cluster) (file : File) :
    ((txn s w (.appendCluster projectID cluster)).exec (mapFile g file)).map (fun _ => ()) =
      ((txn s w (.appendCluster projectID cluster)).exec file).map fun _ => () := by
  unfold txn appendCluster
  dsimp only
  by_cases hblank : isBlank projectID = true
  · simp only [if_pos hblank]
    rfl
  · simp only [if_neg hblank]
    apply split_outcome hkey hw hid
    intro k _ ps
    apply editById_outcome (mapProject k) Project.id Project.id projectID fun _ => rfl
    intro p
    split <;> rfl

theorem appendNode_outcome (hkey : KeyFits s) {w : World} (hw : RandomWorks w)
    (hid : ∀ n, (g n).id = n.id) (projectID clusterID : String) (node : Node) (file : File) :
    ((txn s w (.appendNode projectID clusterID node)).exec (mapFile g file)).map (fun _ => ()) =
      ((txn s w (.appendNode projectID clusterID node)).exec file).map fun _ => () := by
  unfold txn appendNode
  dsimp only
  by_cases hblank : isBlank projectID = true ∨ isBlank clusterID = true
  · simp only [if_pos hblank]
    rfl
  · simp only [if_neg hblank]
    apply split_outcome hkey hw hid
    intro k _ ps
    apply editById_outcome (mapProject k) Project.id Project.id projectID fun _ => rfl
    intro p
    have hcluster (p : Project) (f : Cluster → Except String (List Cluster)) :
        (editCluster clusterID f p).map (fun _ => ()) =
          (editSlice (fun c : Cluster => if c.id = clusterID then some (f c) else none)
            ("cluster not found: " ++ clusterID) p.clusters).map fun _ => () := by
      unfold editCluster
      cases editSlice (fun c : Cluster => if c.id = clusterID then some (f c) else none)
        ("cluster not found: " ++ clusterID) p.clusters <;> rfl
    rw [hcluster, hcluster]
    apply editById_outcome (mapCluster k) Cluster.id Cluster.id clusterID fun _ => rfl
    intro c
    split <;> rfl

theorem findCluster_outcome (w : World) (clusterID : String) (file : File) :
    (findClusterByID s w (mapFile g file) clusterID).map (·.2) =
      (findClusterByID s w file clusterID).map (·.2) := by
  unfold findClusterByID
  rw [readAll_mapFile, readAll_parse]
  cases (check w.readError >>= fun _ => parse file) with
  | error err => rfl
  | ok ps =>
    dsimp only [Except.map]
    rw [locateCluster_mapNodes, locateCluster_mapNodes]
    cases locateCluster ps clusterID <;> rfl

theorem respondCreate_mapFile {w : Nat → World} (hkey : KeyFits s) (hw : ∀ i, RandomWorks (w i))
    (hid : ∀ n, (g n).id = n.id) (create : Create) (file : File) :
    respondCreate s w (mapFile g file) create = respondCreate s w file create := by
  cases create with
  | project req =>
    unfold respondCreate serveProjectCreate
    dsimp only
    split
    · rfl
    split
    · rfl
    exact store_outcome (upsert_outcome hkey (hw 0) hid _ file) _ _
  | cluster projectID req =>
    unfold respondCreate serveClusterCreate
    dsimp only
    split
    · rfl
    split
    · rfl
    split
    · rfl
    exact store_outcome (appendCluster_outcome hkey (hw 0) hid projectID _ file) _ _
  | node clusterID req =>
    unfold respondCreate serveNodeCreate
    dsimp only
    split
    · rfl
    obtain ⟨err, herr', herr⟩ | ⟨found', found, hfound', hfound, hsame⟩ :=
      except_map_eq (findCluster_outcome (g := g) (s := s) (w 0) clusterID file)
    · rw [herr', herr]
    rw [hfound', hfound]
    dsimp only
    rw [hsame]
    split
    · rfl
    split
    · rfl
    exact store_outcome (appendNode_outcome hkey (hw 1) hid found.2 clusterID _ file) _ _

end Create

end LearnPg.Api
