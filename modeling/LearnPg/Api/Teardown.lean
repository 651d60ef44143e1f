import LearnPg.Api.AllOrNothing
import LearnPg.Workspace.Identity

/-! The teardown of a cluster stops the instances of its nodes and deletes it from the
workspace. What it stops is put together from the stored nodes, so it undoes a
provisioning run only as far as these still tell what was started. -/
namespace LearnPg.Api

open Workspace.Data Workspace.Store Workspace.Identity Provision Basis.Calls

inductive TeardownBody where
  | unreadable
  | malformed
  | request (cleanupData : Bool)

/-- The provider is inferred from the host, the volume from the container. -/
def stopInfo (node : Node) : InstanceInfo :=
  let providerID :=
    if node.host ≠ "localhost" ∧ node.host ≠ "127.0.0.1" ∧ node.host ≠ "" then "ssh" else "docker"
  let containerID := if node.containerID = "" then node.id else node.containerID
  ⟨providerID, containerID, node.host, node.port, containerID ++ "-data", ""⟩

/-- An instance that does not stop is passed over. -/
def stopNodes : List Node → Prog Unit
  | [] => return ()
  | node :: nodes => do
    let _ ← Service.stopInstance (stopInfo node)
    stopNodes nodes

/-- What follows once the cluster is found. -/
def teardownCluster (cluster : Cluster) (projectID clusterID : String) (cleanupData : Bool) :
    Prog (Except ApiError Bool) := do
  stopNodes cluster.nodes.items
  match ← invoke (.deleteClusterLocked projectID clusterID) with
  | some err => return .error ⟨500, err⟩
  | none => return .ok cleanupData

/-- What follows once the request is read. -/
def teardownByID (clusterID : String) (cleanupData : Bool) : Prog (Except ApiError Bool) := do
  match ← invoke (.findClusterByID clusterID) with
  | .error err => return .error ⟨500, err⟩
  | .ok none => return .error ⟨404, "cluster not found"⟩
  | .ok (some (cluster, projectID)) => teardownCluster cluster projectID clusterID cleanupData

/-- `part` is what the path has between `/api/clusters/` and `/teardown`. -/
def serveClusterTeardown (method part : String) (body : TeardownBody) :
    Prog (Except ApiError Bool) :=
  let clusterID := trimSpace part
  if method ≠ "POST" then return .error ⟨405, "POST required"⟩
  else if clusterID = "" then return .error ⟨400, "cluster id is required"⟩
  else match body with
  | .unreadable => return .error ⟨400, "failed to read body"⟩
  | .malformed => return .error ⟨400, "invalid JSON"⟩
  | .request cleanupData => teardownByID clusterID cleanupData

/-- A call that succeeds. -/
def Works (s : WorkspaceStore) (f : Fate) (e : Env) : Call → Prop
  | .command c => (handle s f e (.command c)).1 = none
  | .removeAll dir => (handle s f e (.removeAll dir)).1 = none
  | .findFreePort port => (handle s f e (.findFreePort port)).1 ≠ 0
  | .statVersion dir => ∀ err, (handle s f e (.statVersion dir)).1 ≠ .failed err
  | _ => True

def Refuses (s : WorkspaceStore) (f : Fate) (e : Env) : Call → Prop
  | .deleteClusterLocked projectID clusterID =>
    (handle s f e (.deleteClusterLocked projectID clusterID)).1 ≠ none
  | _ => True

section Stops

variable {s : WorkspaceStore} {f : Fate} {e t u : Env} {rs rs' : List Resource} {m m' : Prop}

theorem command_done {c : Command} (h : (handle s f e (.command c)).1 = none) :
    (handle s f e (.command c)).2.made = c.effect e.made := by
  unfold handle at h ⊢
  dsimp only at h ⊢
  split_ifs at h ⊢ with hcancelled hdone
  · rfl
  · exact absurd (.inl h) hdone

theorem removeAll_done {dir : String} (h : (handle s f e (.removeAll dir)).1 = none) :
    (handle s f e (.removeAll dir)).2.made = e.made.filter (· ≠ .dataDir dir) := by
  unfold handle at h ⊢
  dsimp only at h ⊢
  rw [if_pos h]

theorem not_leaks_of_works {c : Call} (h : Works s f e c) : ¬ Leaks s f e c := by
  cases c with
  | command c =>
    have herr : (handle s f e (.command c)).1 = none := h
    change ¬ commandLeaks _ _ c
    rw [herr, command_done herr]
    cases c <;> simp [commandLeaks, Command.effect]
  | findFreePort port => exact fun hleak => h hleak.1
  | statVersion dir => exact fun hleak => hleak.1.elim h
  | removeAll dir =>
    change Resource.dataDir dir ∉ _
    rw [removeAll_done h]
    simp
  | _ => exact not_false

/-- The resources `rs` are removed if the run is clean, and no others in any case. -/
structure Clears (rs : List Resource) (e t : Env) (m : Prop) : Prop where
  subset : ∀ x ∈ t.made, x ∈ e.made
  others : ∀ x ∈ e.made, x ∉ rs → x ∈ t.made
  clean : m → ∀ x ∈ rs, x ∉ t.made

theorem Clears.trans (h : Clears rs e t m) (h' : Clears rs' t u m') :
    Clears (rs ++ rs') e u (m ∧ m') where
  subset := fun x hx => h.subset x (h'.subset x hx)
  others := by
    intro x hx hnot
    rw [List.mem_append, not_or] at hnot
    exact h'.others x (h.others x hx hnot.1) hnot.2
  clean := by
    rintro ⟨hm, hm'⟩
    rw [List.forall_mem_append]
    exact ⟨fun x hx hu => h.clean hm x hx (h'.subset x hu), h'.clean hm'⟩

/-- What stopping the nodes is to remove. -/
def stopped (nodes : List Node) : List Resource :=
  nodes.flatMap fun node => resources (stopInfo node)

theorem stopNodes_clears (nodes : List Node) : Runs s f (stopNodes nodes) e fun _ t m =>
    t.file = e.file ∧ Clears (stopped nodes) e t m := by
  induction nodes generalizing e with
  | nil =>
    exact does_pure ⟨rfl, fun x hx => hx, fun x hx _ => hx, fun _ => List.forall_mem_nil _⟩
  | cons node nodes ih =>
    refine does_bind (stopInstance_removes _) fun _ t m ht => ?_
    have hclears : Clears _ e t m := ⟨ht.subset, ht.others, ht.clean.mp⟩
    exact ih.imp fun _ u m' hu => ⟨hu.1.trans ht.frame.file, hclears.trans hu.2⟩

theorem mem_stopped {nodes : List Node} {x : Resource} (hx : x ∈ stopped nodes) :
    ∃ name, x = .container name ∨ x = .volume name := by
  obtain ⟨node, -, hx⟩ := List.mem_flatMap.mp hx
  have hprovider : (stopInfo node).providerID ≠ "local" := by
    unfold stopInfo
    dsimp only
    split <;> decide
  unfold resources at hx
  rw [if_neg hprovider] at hx
  split at hx
  · simp only [List.mem_cons, List.not_mem_nil, or_false] at hx
    obtain rfl | rfl := hx
    · exact ⟨_, .inl rfl⟩
    · exact ⟨_, .inr rfl⟩
  · cases hx

theorem stopNodes_refuses (nodes : List Node) :
    (stopNodes nodes).Meets (handle s f) (Refuses s f) e := by
  induction nodes generalizing e with
  | nil => trivial
  | cons node nodes ih =>
    refine meets_bind.mpr ⟨?_, ih⟩
    unfold Service.stopInstance
    split
    · exact ⟨trivial, trivial, trivial, trivial⟩
    split
    · refine meets_bind.mpr ⟨⟨trivial, trivial⟩, ?_⟩
      split
      · trivial
      · exact ⟨trivial, trivial⟩
    · trivial

/-- The reply to a deletion and the workspace after it. -/
theorem delete_handled (projectID clusterID : String) :
    (handle s f e (.deleteClusterLocked projectID clusterID)).2.made = e.made ∧
      ((handle s f e (.deleteClusterLocked projectID clusterID)).2.file = e.file ↔
        (handle s f e (.deleteClusterLocked projectID clusterID)).1 ≠ none) := by
  unfold handle
  dsimp only
  split
  next err _ => exact ⟨rfl, iff_of_true rfl (Option.some_ne_none err)⟩
  next file hexec =>
    refine ⟨rfl, iff_of_false (fun hsame => ?_) (not_not_intro rfl)⟩
    have hsame : file = e.file := hsame
    have hshrinks := deleteClusterLocked_shrinks hexec
    rw [hsame] at hshrinks
    exact Nat.lt_irrefl _ hshrinks

variable {cluster : Cluster} {projectID clusterID : String} {cleanupData : Bool}

theorem teardownCluster_clears :
    Runs s f (teardownCluster cluster projectID clusterID cleanupData) e fun _ t m =>
      Clears (stopped cluster.nodes.items) e t m := by
  refine does_bind (stopNodes_clears _) fun _ t m ht => ?_
  have hdelete : Runs s f (invoke (.deleteClusterLocked projectID clusterID)) t fun _ u m' =>
      m' ∧ u.made = t.made :=
    runs_invoke ⟨not_false, (delete_handled _ _).1⟩
  have hclears : Runs s f (invoke (.deleteClusterLocked projectID clusterID)) t fun _ u m' =>
      Clears (stopped cluster.nodes.items) e u (m ∧ m') := by
    refine hdelete.imp fun err u m' hu => ?_
    rw [and_iff_left hu.1]
    exact ⟨hu.2 ▸ ht.2.subset, hu.2 ▸ ht.2.others, hu.2 ▸ ht.2.clean⟩
  refine does_bind_silent hclears fun err => ?_
  cases err with
  | some err => exact ⟨_, rfl⟩
  | none => exact ⟨_, rfl⟩

theorem teardownCluster_refused :
    (teardownCluster cluster projectID clusterID cleanupData).Does (handle s f) (Refuses s f) e
      fun _ t m => t.file = e.file ↔ m := by
  have hstops : (stopNodes cluster.nodes.items).Does (handle s f) (Refuses s f) e
      fun _ t m => m ∧ t.file = e.file :=
    ⟨stopNodes_refuses _, (stopNodes_clears cluster.nodes.items).1⟩
  refine does_bind_clean hstops fun _ t ht => ?_
  have hdelete : (invoke (.deleteClusterLocked projectID clusterID)).Does (handle s f)
      (Refuses s f) t fun _ u m => u.file = t.file ↔ m :=
    does_ask (delete_handled _ _).2
  rw [ht] at hdelete
  refine does_bind_silent hdelete fun err => ?_
  cases err with
  | some err => exact ⟨_, rfl⟩
  | none => exact ⟨_, rfl⟩

end Stops

def Finds (s : WorkspaceStore) (f : Fate) (e : Env) (cluster : Cluster) : Prop :=
  ∃ projects found projectID, readAll s (f.store e.clock) e.file = .ok projects ∧
    locateCluster projects cluster.id = some (found, projectID) ∧
    found.nodes.items.map stopInfo = cluster.nodes.items.map stopInfo

/-- A teardown all of whose stops succeed leaves nothing of the run alive; one of which a
stop fails leaves the cluster in the workspace. -/
def TearsDown (s : WorkspaceStore) (f : Fate) (teardown : Prog (Except ApiError Bool))
    (e : Env) : Prop :=
  (teardown.Meets (handle s f) (Works s f) e → (teardown.run (handle s f) e).2.made = []) ∧
    (¬ teardown.Meets (handle s f) (Works s f) e →
      (teardown.run (handle s f) e).2.file = e.file)

def OnDocker : ProvisionRequest → Prop
  | .single (some req) => orDefaultStr req.providerType "docker" = "docker"
  | _ => False

section Runs

variable {s : WorkspaceStore} {f : Fate} {e : Env} {cluster : Cluster} {part : String}
  {cleanupData : Bool}

theorem teardownByID_does {cond : Env → Call → Prop} {found : Cluster}
    {clusterID projectID : String} {Q : Except ApiError Bool → Env → Prop → Prop}
    (hreply : handle s f e (.findClusterByID clusterID) = (.ok (some (found, projectID)), e.tick))
    (hcond : cond e (.findClusterByID clusterID))
    (h : (teardownCluster found projectID clusterID cleanupData).Does (handle s f) cond e.tick Q) :
    (teardownByID clusterID cleanupData).Does (handle s f) cond e Q := by
  have hfind : (invoke (.findClusterByID clusterID)).Does (handle s f) cond e
      fun r t m => m ∧ r = .ok (some (found, projectID)) ∧ t = e.tick := by
    refine does_ask ?_
    rw [hreply]
    exact ⟨hcond, rfl, rfl⟩
  refine does_bind_clean hfind ?_
  rintro r t ⟨rfl, rfl⟩
  exact h

/-- What the teardown of a cluster that is found removes, and when it is refused. -/
theorem teardownByID_found (cleanupData : Bool) (hfinds : Finds s f e cluster) :
    Runs s f (teardownByID cluster.id cleanupData) e
        (fun _ t m => Clears (stopped cluster.nodes.items) e t m) ∧
      (teardownByID cluster.id cleanupData).Does (handle s f) (Refuses s f) e
        fun _ t m => t.file = e.file ↔ m := by
  obtain ⟨projects, found, projectID, hread, hlocate, hsame⟩ := hfinds
  have hreply : handle s f e (.findClusterByID cluster.id) =
      (.ok (some (found, projectID)), e.tick) := by
    unfold handle
    dsimp only
    rw [hread]
    simp [Except.map, hlocate]
  have hstopped : stopped cluster.nodes.items = stopped found.nodes.items := by
    unfold stopped
    rw [← List.flatMap_map, ← hsame, List.flatMap_map]
  rw [hstopped]
  refine ⟨teardownByID_does hreply not_false ?_, ?_⟩
  · exact teardownCluster_clears.imp fun _ t m h => ⟨h.subset, h.others, h.clean⟩
  · exact teardownByID_does hreply trivial teardownCluster_refused

theorem Clears.survives {nodes : List Node} {t u : Env} {m : Prop} {x : Resource}
    (h : Clears (stopped nodes) t u m) (hx : x ∈ t.made)
    (hother : ∀ name, x ≠ .container name ∧ x ≠ .volume name) : u.made ≠ [] := by
  have hstays : x ∈ u.made := by
    refine h.others x hx fun hstopped => ?_
    obtain ⟨name, rfl | rfl⟩ := mem_stopped hstopped
    · exact (hother name).1 rfl
    · exact (hother name).2 rfl
  exact List.ne_nil_of_mem hstays

theorem Clears.empties {t u : Env} {m : Prop} {rs : List Resource} (h : Clears rs t u m) (hm : m)
    (honly : ∀ x ∈ t.made, x ∈ rs) : u.made = [] :=
  List.eq_nil_iff_forall_not_mem.mpr fun x hx => h.clean hm x (honly x (h.subset x hx)) hx

section Outcomes

variable {cfg : PgConfig} {before t u : Env} {m : Prop} {clusterID nodeID : String}

theorem singleCluster_stopped {req : ProvisionSingleRequest} {info : InstanceInfo}
    (hhost : info.host = "127.0.0.1") (hnamed : info.containerID ≠ "") :
    stopped (singleCluster cfg req clusterID nodeID info).nodes.items =
      [.container info.containerID, .volume (info.containerID ++ "-data")] := by
  have hinfo : stopInfo (singleNode cfg nodeID info) =
      ⟨"docker", info.containerID, info.host, info.port, info.containerID ++ "-data", ""⟩ := by
    simp [stopInfo, singleNode, provisionedNode, hhost, hnamed]
  change resources (stopInfo (singleNode cfg nodeID info)) ++ [] = _
  rw [hinfo, List.append_nil]
  rfl

theorem single_cleared_iff {req : ProvisionSingleRequest} (hbefore : before.saved = [])
    (hsuccess : SingleSuccess s cfg req clusterID nodeID before t) (hsaved : cluster ∈ t.saved)
    (h : Clears (stopped cluster.nodes.items) t u m) (hm : m) :
    u.made = [] ↔ OnDocker (.single (some req)) := by
  obtain ⟨info, hhost, ⟨hprovider, hinst⟩, hstored⟩ := hsuccess
  rw [hstored.saved, hbefore, List.nil_append, List.mem_singleton] at hsaved
  subst hsaved
  change _ ↔ orDefaultStr req.providerType "docker" = "docker"
  rw [← hprovider]
  obtain hdocker | hlocal := hinst
  · have honly := hdocker.only
    rw [hdocker.volume] at honly
    rw [singleCluster_stopped hhost hdocker.named] at h
    exact iff_of_true (h.empties hm honly) hdocker.provider
  · have hdata : .dataDir info.dataDir ∈ t.made := by
      rw [hlocal.only]
      exact List.mem_singleton_self _
    rw [hlocal.provider]
    exact iff_of_false (h.survives hdata (by simp)) (by decide)

theorem replica_not_cleared {req : ReplicaProvisionRequest}
    {replType taskID primaryNodeID standbyNodeID : String}
    (hsuccess : ReplicaSuccess s cfg req replType taskID clusterID primaryNodeID standbyNodeID
      before t) (h : Clears (stopped cluster.nodes.items) t u m) : u.made ≠ [] := by
  obtain ⟨primaryInfo, replicaInfo, hproject, -⟩ := hsuccess
  exact h.survives hproject (by simp)

/-- Stopping every node leaves nothing exactly when the run was a single one on docker. -/
theorem cleared_iff {request : ProvisionRequest} (hbefore : before.saved = [])
    (hsuccess : Succeeds s f cfg before request t) (hsaved : cluster ∈ t.saved)
    (h : Clears (stopped cluster.nodes.items) t u m) (hm : m) :
    u.made = [] ↔ OnDocker request := by
  rcases request with ⟨_ | req⟩ | ⟨_ | req⟩ | ⟨_ | req⟩
  · exact hsuccess.elim
  · exact single_cleared_iff hbefore hsuccess hsaved h hm
  · exact hsuccess.elim
  · exact iff_of_false (replica_not_cleared hsuccess h) not_false
  · exact hsuccess.elim
  · exact iff_of_false (replica_not_cleared hsuccess h) not_false

theorem saved_named {request : ProvisionRequest} (hbefore : before.saved = [])
    (hsuccess : Succeeds s f cfg before request t) (hsaved : cluster ∈ t.saved) :
    cluster.id ≠ "" := by
  obtain ⟨projectID, stored, hstored, hid⟩ := hsuccess.stored
  rw [hstored.saved, hbefore, List.nil_append, List.mem_singleton] at hsaved
  rw [hsaved, hid]
  simp [minted]

end Outcomes

end Runs

/-- A teardown of a cluster that a provisioning run has stored undoes that run exactly
when every stop succeeds and the run was a single one on docker, or a stop fails and the
workspace refuses the deletion. -/
theorem teardown_undoes_iff (s : WorkspaceStore) (f : Fate) (cfg : PgConfig) (service : Service)
    (method : String) (request : ProvisionRequest) (file : File)
    (tasks : String → Option ProvisionTask) (cluster : Cluster)
    (hsaved : cluster ∈
      ((request.serve cfg service method).run (handle s f) (.start file tasks)).2.saved)
    (g : Fate) (e : Env) (part : String) (cleanupData : Bool)
    (hmade : e.made =
      ((request.serve cfg service method).run (handle s f) (.start file tasks)).2.made)
    (hpart : trimSpace part = cluster.id) (hfinds : Finds s g e cluster) :
    let teardown := serveClusterTeardown "POST" part (.request cleanupData)
    TearsDown s g teardown e ↔
      (teardown.Meets (handle s g) (Works s g) e ∧ OnDocker request) ∨
        (¬ teardown.Meets (handle s g) (Works s g) e ∧
          teardown.Meets (handle s g) (Refuses s g) e) := by
  intro teardown
  have hsettles : Runs s f (request.serve cfg service method) (.start file tasks) _ :=
    serve_settles method request rfl
  have hsuccess : Succeeds s f cfg (.start file tasks) request
      ((request.serve cfg service method).run (handle s f) (.start file tasks)).2 := by
    unfold Runs Program.Does Settles at hsettles
    split at hsettles
    · exact hsettles
    · rw [hsettles.1] at hsaved
      cases hsaved
  have hserve : teardown = teardownByID cluster.id cleanupData := by
    have hid := saved_named rfl hsuccess hsaved
    simp only [teardown, serveClusterTeardown]
    rw [hpart, if_neg (not_not.mpr rfl), if_neg hid]
  rw [hserve]
  obtain ⟨hclears, hrefused⟩ := teardownByID_found cleanupData hfinds
  have hclears : Clears _ _ _ _ :=
    ⟨hmade ▸ hclears.subset, hmade ▸ hclears.others, hclears.clean⟩
  unfold TearsDown
  by_cases hworks : (teardownByID cluster.id cleanupData).Meets (handle s g) (Works s g) e
  · have hclean := hworks.imp fun e c => not_leaks_of_works
    simp only [hworks, not_true, forall_const, false_implies, and_true, true_and, false_and,
      or_false]
    exact cleared_iff rfl hsuccess hsaved hclears hclean
  · simp only [hworks, not_false_eq_true, forall_const, false_implies, true_and, false_and,
      false_or]
    exact hrefused

theorem works_calm (s : WorkspaceStore) (e : Env) (c : Call) : Works s calm e c := by
  cases c with
  | command c => rfl
  | removeAll dir => rfl
  | findFreePort port => exact (by decide : (5432 : Int) ≠ 0)
  | statVersion dir => exact nofun
  | _ => trivial

def provisioned (request : ProvisionRequest) : Env :=
  ((request.serve serverConfig oneProcess "POST").run (handle plainStore calm)
    (.start oneProject fun _ => none)).2

def dockerPhysical : ProvisionRequest :=
  .physical (some ⟨"p1", "main", "", "docker", "16", 5432, 5433⟩)

def savedCluster (request : ProvisionRequest) : Cluster :=
  (provisioned request).saved.headD ⟨"", "", "", 0, "", "", none, .nil⟩

theorem teardown_undoes_iff_docker :
    let teardown := serveClusterTeardown "POST" "cluster-7" (.request true)
    TearsDown plainStore calm teardown (provisioned dockerSingle) ↔
      (teardown.Meets (handle plainStore calm) (Works plainStore calm) (provisioned dockerSingle) ∧
          OnDocker dockerSingle) ∨
        (¬ teardown.Meets (handle plainStore calm) (Works plainStore calm)
            (provisioned dockerSingle) ∧
          teardown.Meets (handle plainStore calm) (Refuses plainStore calm)
            (provisioned dockerSingle)) :=
  teardown_undoes_iff plainStore calm serverConfig oneProcess "POST" dockerSingle oneProject
    (fun _ => none) (savedCluster dockerSingle) (List.mem_singleton_self _) calm
    (provisioned dockerSingle) "cluster-7" true rfl rfl ⟨_, _, _, rfl, rfl, rfl⟩

/-- The compose project of a replica is not recorded in the workspace. -/
theorem compose_project_left :
    ¬ ∀ (s : WorkspaceStore) (f : Fate) (cfg : PgConfig) (service : Service) (method : String)
        (request : ProvisionRequest) (file : File) (tasks : String → Option ProvisionTask)
        (cluster : Cluster) (g : Fate) (e : Env) (part : String) (cleanupData : Bool),
      cluster ∈
        ((request.serve cfg service method).run (handle s f) (.start file tasks)).2.saved →
      e.made =
        ((request.serve cfg service method).run (handle s f) (.start file tasks)).2.made →
      trimSpace part = cluster.id → Finds s g e cluster →
      TearsDown s g (serveClusterTeardown "POST" part (.request cleanupData)) e := by
  intro h
  have htears := h plainStore calm serverConfig oneProcess "POST" dockerPhysical oneProject
    (fun _ => none) (savedCluster dockerPhysical) calm (provisioned dockerPhysical) "cluster-7"
    true (List.mem_singleton_self _) rfl rfl ⟨_, _, _, rfl, rfl, rfl⟩
  have hmade := htears.1 (meets_of_forall (works_calm plainStore))
  revert hmade
  decide

end LearnPg.Api
