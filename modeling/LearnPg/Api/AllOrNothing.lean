import LearnPg.Api.Provision
import LearnPg.Provision.Cleanup

/-! A provisioning run that ends in an error leaves nothing behind exactly when none
of its calls leaks. -/
namespace LearnPg.Api

open Workspace.Data Workspace.Store Provision Basis.Calls

/-- Of the tasks only that of the run has changed, and the workspace not at all. -/
structure OwnTask (taskID : String) (e t : Env) : Prop where
  file : t.file = e.file
  saved : t.saved = e.saved
  others : ∀ id, id ≠ taskID → t.tasks id = e.tasks id

def Failed (taskID : String) (t : Env) : Prop :=
  ∃ task, t.tasks taskID = some task ∧ task.status = "failed"

structure Stored (s : WorkspaceStore) (projectID : String) (cluster : Cluster) (e t : Env) :
    Prop where
  exec : ∃ w, (txn s w (.appendCluster projectID cluster)).exec e.file = .ok t.file
  saved : t.saved = e.saved ++ [cluster]

/-- What `genID` makes of the clock. -/
def minted (f : Fate) (kind : String) (clock : Nat) : String :=
  kind ++ "-" ++ toString (f.reply clock .unixNano)

section Tasks

variable {s : WorkspaceStore} {f : Fate} {e t u : Env} {id : String} {task : ProvisionTask}

theorem OwnTask.trans (h : OwnTask id e t) (h' : OwnTask id t u) : OwnTask id e u :=
  ⟨h'.file.trans h.file, h'.saved.trans h.saved,
    fun i hi => (h'.others i hi).trans (h.others i hi)⟩

theorem ownTask_of_frame (h : Provision.Frame e t) : OwnTask id e t :=
  ⟨h.file, h.saved, fun i _ => congrFun h.tasks i⟩

theorem mergeTask_status (now : Int) (old : Option ProvisionTask) (task : ProvisionTask) :
    (mergeTask now old task).status = task.status := by
  cases old with
  | none => rfl
  | some old => rfl

theorem genID_runs (kind : String) : Runs s f (genID kind) e fun id t m =>
    m ∧ (Idle e t ∧ t.clock = e.clock + 1) ∧ id = minted f kind e.clock := by
  have hnow : Runs s f (invoke .unixNano) e fun now t m =>
      m ∧ (Idle e t ∧ t.clock = e.clock + 1) ∧ now = f.reply e.clock .unixNano :=
    runs_invoke ⟨not_false, ⟨⟨⟨rfl, rfl, rfl⟩, rfl⟩, rfl⟩, rfl⟩
  refine does_bind_clean hnow fun now t ht => does_pure ⟨trivial, ht.1, ?_⟩
  rw [ht.2]
  rfl

theorem unixMilli_runs : Runs s f (invoke .unixMilli) e fun _ t m => m ∧ Idle e t :=
  runs_invoke ⟨not_false, ⟨rfl, rfl, rfl⟩, rfl⟩

theorem setProvisionTask_runs (task : ProvisionTask) :
    Runs s f (invoke (.setProvisionTask task)) e fun _ t m => m ∧ OwnTask task.taskID e t ∧
      t.made = e.made ∧ ∃ stored, t.tasks task.taskID = some stored ∧
        stored.status = task.status := by
  have hself : (handle s f e (.setProvisionTask task)).2.tasks task.taskID =
      some (mergeTask (f.store e.clock).unixMilli (e.tasks task.taskID) task) :=
    Function.update_self task.taskID _ e.tasks
  have hothers (id : String) (hid : id ≠ task.taskID) :
      (handle s f e (.setProvisionTask task)).2.tasks id = e.tasks id :=
    Function.update_of_ne hid _ e.tasks
  exact runs_invoke ⟨not_false, ⟨rfl, rfl, hothers⟩, rfl, _, hself, mergeTask_status _ _ task⟩

theorem setRunning_runs (task : ProvisionTask) (progress : Nat) (message : String) :
    Runs s f (setRunning task progress message) e fun _ t m =>
      m ∧ OwnTask task.taskID e t ∧ t.made = e.made := by
  refine does_bind_clean unixMilli_runs fun now t ht => ?_
  refine (setProvisionTask_runs _).imp fun _ u m hu => ⟨hu.1, ?_, hu.2.2.1.trans ht.2⟩
  exact (ownTask_of_frame ht.1).trans hu.2.1

theorem setFailed_runs (task : ProvisionTask) (message error : String) :
    Runs s f (setFailed task message error) e fun _ t m =>
      m ∧ OwnTask task.taskID e t ∧ t.made = e.made ∧ Failed task.taskID t := by
  refine does_bind_clean unixMilli_runs fun startedAt t ht => ?_
  refine does_bind_clean unixMilli_runs fun finishedAt u hu => ?_
  have hidle := ht.trans hu
  refine (setProvisionTask_runs _).imp fun _ v m hv => ?_
  exact ⟨hv.1, (ownTask_of_frame hidle.1).trans hv.2.1, hv.2.2.1.trans hidle.2, hv.2.2.2⟩

theorem setSucceeded_runs (task : ProvisionTask) (message : String) (nodeIDs : List String) :
    Runs s f (setSucceeded task message nodeIDs) e fun _ t m =>
      m ∧ OwnTask task.taskID e t ∧ t.made = e.made := by
  refine does_bind_clean unixMilli_runs fun startedAt t ht => ?_
  refine does_bind_clean unixMilli_runs fun finishedAt u hu => ?_
  have hidle := ht.trans hu
  refine (setProvisionTask_runs _).imp fun _ v m hv => ?_
  exact ⟨hv.1, (ownTask_of_frame hidle.1).trans hv.2.1, hv.2.2.1.trans hidle.2⟩

end Tasks

section Handlers

variable {s : WorkspaceStore} {f : Fate} {cfg : PgConfig} {service : Service} {e t : Env}
  {m : Prop}

/-- The outcome of a run whose task has an id already: success, or an error with the
task failed and nothing left exactly when the run is clean. -/
def Ends (taskID : String) (Success : Env → Prop) (e : Env)
    (r : Except ApiError ProvisionResponse) (t : Env) (m : Prop) : Prop :=
  match r with
  | .ok _ => Success t
  | .error _ => OwnTask taskID e t ∧ Failed taskID t ∧ (m ↔ t.made = [])

theorem setFailed_ends {Success : Env → Prop} {err : ApiError} {before : Env}
    {task : ProvisionTask} (message error : String) (hown : OwnTask task.taskID before e)
    (hm : m ↔ e.made = []) :
    Runs s f (setFailed task message error >>= fun _ => pure (.error err)) e fun r t m' =>
      Ends task.taskID Success before r t (m ∧ m') := by
  refine does_bind (setFailed_runs task message error) fun _ t m' ht => ?_
  refine does_pure ⟨hown.trans ht.2.1, ht.2.2.2, ?_⟩
  rw [and_true, and_iff_left ht.1, hm, ht.2.2.1]

theorem appendCluster_runs (projectID : String) (cluster : Cluster) :
    Runs s f (invoke (.appendCluster projectID cluster)) e fun err t m =>
      m ∧ t.made = e.made ∧ t.tasks = e.tasks ∧
        if err = none then Stored s projectID cluster e t
        else t.file = e.file ∧ t.saved = e.saved := by
  refine runs_invoke ⟨not_false, ?_⟩
  cases hexec : (txn s (f.store e.clock) (.appendCluster projectID cluster)).exec e.file with
  | error err =>
    have hreply : handle s f e (.appendCluster projectID cluster) = (some err, e.tick) := by
      unfold handle
      dsimp only
      rw [hexec]
    rw [hreply]
    exact ⟨rfl, rfl, rfl, rfl⟩
  | ok file =>
    have hreply : handle s f e (.appendCluster projectID cluster) =
        (none, { e.tick with file, saved := e.saved ++ [cluster] }) := by
      unfold handle
      dsimp only
      rw [hexec]
    rw [hreply]
    exact ⟨rfl, rfl, ⟨_, hexec⟩, rfl⟩

theorem Stored.after {projectID : String} {cluster : Cluster} {before : Env}
    (h : Stored s projectID cluster e t) (hown : e.file = before.file ∧ e.saved = before.saved) :
    Stored s projectID cluster before t := by
  obtain ⟨⟨w, hw⟩, hsaved⟩ := h
  rw [hown.1] at hw
  rw [hown.2] at hsaved
  exact ⟨⟨w, hw⟩, hsaved⟩

theorem Stored.until {projectID : String} {cluster : Cluster} {u : Env}
    (h : Stored s projectID cluster e t) (hown : u.file = t.file ∧ u.saved = t.saved) :
    Stored s projectID cluster e u := by
  obtain ⟨⟨w, hw⟩, hsaved⟩ := h
  rw [← hown.1] at hw
  rw [← hown.2] at hsaved
  exact ⟨⟨w, hw⟩, hsaved⟩

/-- The cluster of a started instance is stored. -/
def SingleSuccess (s : WorkspaceStore) (cfg : PgConfig) (req : ProvisionSingleRequest)
    (clusterID nodeID : String) (e t : Env) : Prop :=
  ∃ info, info.host = "127.0.0.1" ∧
    Instance (orDefaultStr req.providerType "docker") info t.made ∧
    Stored s req.projectID (singleCluster cfg req clusterID nodeID info) e t

/-- The first instance of a cluster is started, and what follows goes on from there. -/
theorem startFirst_runs {Success : Env → Prop} {spec : InstanceSpec} {providerID : String}
    {progress progress' : Nat} {message message' failure : String}
    {next : InstanceInfo → Prog (Except ApiError ProvisionResponse)} (task : ProvisionTask)
    (hmade : e.made = [])
    (hnext : ∀ info t, OwnTask task.taskID e t → info.host = "127.0.0.1" →
      Instance providerID info t.made → Runs s f (next info) t (Ends task.taskID Success e)) :
    Runs s f (do
      setRunning task progress message
      setRunning task progress' message'
      match ← service.startSingle spec providerID with
      | .error err =>
        setFailed task (failure ++ err) err
        return .error ⟨500, failure ++ err⟩
      | .ok info => next info) e (Ends task.taskID Success e) := by
  refine does_bind_clean (setRunning_runs task _ _) fun _ e1 h1 => ?_
  refine does_bind_clean (setRunning_runs task _ _) fun _ e2 h2 => ?_
  have hown2 := h1.1.trans h2.1
  have hmade2 := h2.2.trans (h1.2.trans hmade)
  refine does_bind (startSingle_runs _ _ hmade2) fun started e3 m h3 => ?_
  have hown3 := hown2.trans (ownTask_of_frame h3.1)
  cases started with
  | error err => exact setFailed_ends _ _ hown3 h3.2
  | ok info =>
    refine does_of_true h3.2.1 ?_
    exact hnext info e3 hown3 h3.2.2.1 h3.2.2.2

theorem provisionSingle_runs (req : ProvisionSingleRequest) (task : ProvisionTask)
    (nodeID : String) (hmade : e.made = []) :
    Runs s f (provisionSingle cfg service req task nodeID) e
      (Ends task.taskID (SingleSuccess s cfg req task.clusterID nodeID e) e) := by
  refine startFirst_runs task hmade fun info e3 hown3 hhost hinstance => ?_
  refine does_bind_clean (setRunning_runs task _ _) fun _ e4 h4 => ?_
  have hown4 := hown3.trans h4.1
  refine does_bind_clean (appendCluster_runs _ _) fun err e5 h5 => ?_
  have hmade5 := h5.1.trans h4.2
  cases err with
  | some err =>
    have hown5 : OwnTask task.taskID e e5 :=
      hown4.trans ⟨h5.2.2.1, h5.2.2.2, fun i _ => congrFun h5.2.1 i⟩
    refine does_bind (stopInstance_removes info) fun _ e6 m h6 => ?_
    have hempty := h6.empty_iff fun x hx => hinstance.only x (hmade5 ▸ hx)
    exact setFailed_ends _ _ (hown5.trans (ownTask_of_frame h6.frame)) hempty
  | none =>
    refine does_bind_clean (setRunning_runs task _ _) fun _ e6 h6 => ?_
    refine does_bind_clean (runs_inert trivial) fun connected e7 h7 => ?_
    refine does_bind_clean (setSucceeded_runs task _ _) fun _ e8 h8 => ?_
    have hown8 := (h6.1.trans (ownTask_of_frame h7.1.1)).trans h8.1
    have hmade8 : e8.made = e3.made := h8.2.trans (h7.1.2.trans (h6.2.trans hmade5))
    have hstored := (h5.2.2.after ⟨hown4.file, hown4.saved⟩).until ⟨hown8.file, hown8.saved⟩
    exact does_pure ⟨info, hhost, hmade8 ▸ hinstance, hstored⟩

/-- The cluster of a primary and a started replica is stored. -/
def ReplicaSuccess (s : WorkspaceStore) (cfg : PgConfig) (req : ReplicaProvisionRequest)
    (replType taskID clusterID primaryNodeID standbyNodeID : String) (e t : Env) : Prop :=
  ∃ primaryInfo replicaInfo, .composeProject replicaInfo.composeProject ∈ t.made ∧
    Stored s req.projectID (replicaCluster cfg req replType taskID clusterID primaryNodeID
      standbyNodeID primaryInfo replicaInfo) e t

section Replica

variable {req : ReplicaProvisionRequest} {replType providerID : String} {task : ProvisionTask}
  {primaryNodeID standbyNodeID : String} {primaryInfo : InstanceInfo} {before : Env}

theorem saveReplica_runs {replicaInfo : ReplicaInfo} {made : List Resource}
    (hprimary : Instance providerID primaryInfo made)
    (hreplica : ReplicaInstance made replicaInfo e.made) (hown : OwnTask task.taskID before e) :
    Runs s f (saveReplica cfg req replType task primaryNodeID standbyNodeID primaryInfo replicaInfo)
      e (Ends task.taskID (ReplicaSuccess s cfg req replType task.taskID task.clusterID
        primaryNodeID standbyNodeID before) before) := by
  refine does_bind_clean (setRunning_runs task _ _) fun _ e1 h1 => ?_
  have hown1 := hown.trans h1.1
  refine does_bind_clean (appendCluster_runs _ _) fun err e2 h2 => ?_
  have hmade2 := h2.1.trans h1.2
  cases err with
  | some err =>
    have hown2 : OwnTask task.taskID before e2 :=
      hown1.trans ⟨h2.2.2.1, h2.2.2.2, fun i _ => congrFun h2.2.1 i⟩
    refine does_bind (composeDown_removes _) fun _ e3 m h3 => ?_
    refine does_bind (stopInstance_removes primaryInfo) fun _ e4 m' h4 => ?_
    have hremoves := h3.trans h4 (resources_disjoint primaryInfo _)
    have hempty := hremoves.empty_iff (hprimary.only_project (hmade2.symm ▸ hreplica.only))
    simp only [← and_assoc]
    exact setFailed_ends _ _ (hown2.trans (ownTask_of_frame hremoves.frame)) hempty
  | none =>
    refine does_bind_clean (setRunning_runs task _ _) fun _ e3 h3 => ?_
    refine does_bind_clean (runs_inert trivial) fun connected e4 h4 => ?_
    refine does_bind_clean (setSucceeded_runs task _ _) fun _ e5 h5 => ?_
    have hown5 := (h3.1.trans (ownTask_of_frame h4.1.1)).trans h5.1
    have hmade5 : e5.made = e.made := h5.2.trans (h4.1.2.trans (h3.2.trans hmade2))
    have hstored := (h2.2.2.after ⟨hown1.file, hown1.saved⟩).until ⟨hown5.file, hown5.saved⟩
    exact does_pure ⟨primaryInfo, replicaInfo, hmade5 ▸ hreplica.project, hstored⟩

theorem addReplica_runs {primaryPort : Int} (hprimary : Instance providerID primaryInfo e.made)
    (hown : OwnTask task.taskID before e) :
    Runs s f (addReplica cfg service req replType task primaryNodeID standbyNodeID primaryPort
      primaryInfo) e (Ends task.taskID (ReplicaSuccess s cfg req replType task.taskID task.clusterID
        primaryNodeID standbyNodeID before) before) := by
  refine does_bind_clean (setRunning_runs task _ _) fun _ e1 h1 => ?_
  refine does_bind_clean (waitForPort_runs _ _ _) fun err e2 h2 => ?_
  have hown2 := (hown.trans h1.1).trans (ownTask_of_frame h2.1)
  have hmade2 := h2.2.trans h1.2
  cases err with
  | some err =>
    refine does_bind (stopInstance_removes primaryInfo) fun _ e3 m h3 => ?_
    have hempty := h3.empty_iff fun x hx => hprimary.only x (hmade2 ▸ hx)
    exact setFailed_ends _ _ (hown2.trans (ownTask_of_frame h3.frame)) hempty
  | none =>
    refine does_bind_clean (setRunning_runs task _ _) fun _ e3 h3 => ?_
    have hown3 := hown2.trans h3.1
    have hmade3 := h3.2.trans hmade2
    rw [if_neg (not_not.mpr (by decide))]
    have hnew (project : String) : .composeProject project ∉ e3.made :=
      hmade3 ▸ hprimary.no_project project
    refine does_bind (startReplica_runs _ _ primaryInfo hnew) fun started e4 m h4 => ?_
    cases started with
    | error err =>
      obtain ⟨project, mid, hframe, honly, hremoves⟩ := h4
      refine does_bind (stopInstance_removes primaryInfo) fun _ e5 m' h5 => ?_
      have hboth := hremoves.trans h5 (resources_disjoint primaryInfo project)
      have hempty := hboth.empty_iff (hprimary.only_project (hmade3 ▸ honly))
      have hown5 := hown3.trans (ownTask_of_frame (hframe.trans hboth.frame))
      simp only [← and_assoc]
      exact setFailed_ends _ _ hown5 hempty
    | ok replicaInfo =>
      refine does_of_true h4.1 ?_
      exact saveReplica_runs (hmade3 ▸ hprimary) h4.2.2 (hown3.trans (ownTask_of_frame h4.2.1))

theorem provisionReplica_runs (hmade : e.made = []) :
    Runs s f (provisionReplica cfg service req replType task primaryNodeID standbyNodeID) e
      (Ends task.taskID (ReplicaSuccess s cfg req replType task.taskID task.clusterID
        primaryNodeID standbyNodeID e) e) := by
  refine startFirst_runs task hmade fun primaryInfo e3 hown3 _ hinstance => ?_
  exact addReplica_runs hinstance hown3

end Replica

/-- Nothing of the run is left: no resource, no cluster, and the task, if the run came
to have one, is recorded as failed. -/
def Undone (e t : Env) : Prop :=
  t.made = [] ∧ t.file = e.file ∧
    (t = e ∨ ∃ taskID, Failed taskID t ∧ ∀ id, id ≠ taskID → t.tasks id = e.tasks id)

/-- What a run that ends in success has stored and made. The first id that it mints
is its task's, the next ones its cluster's and its nodes'. -/
def Succeeds (s : WorkspaceStore) (f : Fate) (cfg : PgConfig) (e : Env) :
    ProvisionRequest → Env → Prop
  | .single (some req) => SingleSuccess s cfg req (minted f "cluster" (e.clock + 1))
    (minted f "node" (e.clock + 2)) e
  | .physical (some req) => ReplicaSuccess s cfg { req with type := "physical" } "physical"
    (minted f "task" e.clock) (minted f "cluster" (e.clock + 1)) (minted f "node" (e.clock + 2))
    (minted f "node" (e.clock + 3)) e
  | .logical (some req) => ReplicaSuccess s cfg { req with type := "logical" } "logical"
    (minted f "task" e.clock) (minted f "cluster" (e.clock + 1)) (minted f "node" (e.clock + 2))
    (minted f "node" (e.clock + 3)) e
  | _ => fun _ => False

/-- A run that succeeds has stored its cluster, under the id that it minted. -/
theorem Succeeds.stored {request : ProvisionRequest} (h : Succeeds s f cfg e request t) :
    ∃ projectID cluster, Stored s projectID cluster e t ∧
      cluster.id = minted f "cluster" (e.clock + 1) := by
  rcases request with ⟨_ | req⟩ | ⟨_ | req⟩ | ⟨_ | req⟩
  · exact h.elim
  · obtain ⟨info, -, -, hstored⟩ := h
    exact ⟨_, _, hstored, rfl⟩
  · exact h.elim
  · obtain ⟨primaryInfo, replicaInfo, -, hstored⟩ := h
    exact ⟨_, _, hstored, rfl⟩
  · exact h.elim
  · obtain ⟨primaryInfo, replicaInfo, -, hstored⟩ := h
    exact ⟨_, _, hstored, rfl⟩

/-- The outcome of a whole run. -/
def Settles (Success : Env → Prop) (e : Env) (r : Except ApiError ProvisionResponse) (t : Env)
    (m : Prop) : Prop :=
  match r with
  | .ok _ => Success t
  | .error _ => t.saved = e.saved ∧ (Undone e t ↔ m)

theorem refused_settles {Success : Env → Prop} {err : ApiError} (hmade : e.made = []) :
    Runs s f (pure (.error err)) e (Settles Success e) :=
  does_pure ⟨rfl, iff_of_true ⟨hmade, rfl, .inl rfl⟩ trivial⟩

theorem Ends.settles {Success Success' : Env → Prop} {taskID : String} {u : Env}
    {r : Except ApiError ProvisionResponse} (hidle : Idle e t)
    (hsuccess : Success u → Success' u) (h : Ends taskID Success t r u m) :
    Settles Success' e r u m := by
  cases r with
  | ok resp => exact hsuccess h
  | error err =>
    have hown := (ownTask_of_frame hidle.1).trans h.1
    exact ⟨hown.saved, fun hundone => h.2.2.mpr hundone.1,
      fun hm => ⟨h.2.2.mp hm, hown.file, .inr ⟨taskID, h.2.1, hown.others⟩⟩⟩

theorem serveProvisionSingle_settles (method : String) (req : ProvisionSingleRequest)
    (hmade : e.made = []) :
    Runs s f (serveProvisionSingle cfg service method (some req)) e
      (Settles (SingleSuccess s cfg req (minted f "cluster" (e.clock + 1))
        (minted f "node" (e.clock + 2)) e) e) := by
  unfold serveProvisionSingle
  split
  · exact refused_settles hmade
  dsimp only
  split
  · exact refused_settles hmade
  refine does_bind_clean (genID_runs _) fun taskID e1 h1 => ?_
  refine does_bind_clean (genID_runs _) fun clusterID e2 h2 => ?_
  refine does_bind_clean (genID_runs _) fun nodeID e3 h3 => ?_
  have hidle := (h1.1.1.trans h2.1.1).trans h3.1.1
  refine (provisionSingle_runs req _ nodeID (hidle.2.trans hmade)).imp fun r t m ht => ?_
  refine ht.settles hidle fun hsuccess => ?_
  obtain ⟨info, hhost, hmade, hstored⟩ := hsuccess
  have hcluster : clusterID = minted f "cluster" (e.clock + 1) := h1.1.2 ▸ h2.2
  have hnode : nodeID = minted f "node" (e.clock + 2) := by
    rw [h3.2, h2.1.2, h1.1.2]
  rw [← hcluster, ← hnode]
  exact ⟨info, hhost, hmade, hstored.after ⟨hidle.1.file, hidle.1.saved⟩⟩

theorem serveProvisionReplica_settles (method : String) {req : ReplicaProvisionRequest}
    {replType : String} (htype : toLower (trimSpace req.type) = replType) (hmade : e.made = []) :
    Runs s f (serveProvisionReplica cfg service method req) e
      (Settles (ReplicaSuccess s cfg req replType (minted f "task" e.clock)
        (minted f "cluster" (e.clock + 1)) (minted f "node" (e.clock + 2))
        (minted f "node" (e.clock + 3)) e) e) := by
  unfold serveProvisionReplica
  dsimp only
  rw [htype]
  split
  · exact refused_settles hmade
  split
  · exact refused_settles hmade
  split
  · exact refused_settles hmade
  refine does_bind_clean (genID_runs _) fun taskID e1 h1 => ?_
  refine does_bind_clean (genID_runs _) fun clusterID e2 h2 => ?_
  refine does_bind_clean (genID_runs _) fun primaryNodeID e3 h3 => ?_
  refine does_bind_clean (genID_runs _) fun standbyNodeID e4 h4 => ?_
  have hidle := ((h1.1.1.trans h2.1.1).trans h3.1.1).trans h4.1.1
  refine (provisionReplica_runs (hidle.2.trans hmade)).imp fun r t m ht => ?_
  refine ht.settles hidle fun hsuccess => ?_
  obtain ⟨primaryInfo, replicaInfo, hmade, hstored⟩ := hsuccess
  have hcluster : clusterID = minted f "cluster" (e.clock + 1) := h1.1.2 ▸ h2.2
  have hprimary : primaryNodeID = minted f "node" (e.clock + 2) := by
    rw [h3.2, h2.1.2, h1.1.2]
  have hstandby : standbyNodeID = minted f "node" (e.clock + 3) := by
    rw [h4.2, h3.1.2, h2.1.2, h1.1.2]
  rw [← h1.2, ← hcluster, ← hprimary, ← hstandby]
  exact ⟨primaryInfo, replicaInfo, hmade, hstored.after ⟨hidle.1.file, hidle.1.saved⟩⟩

theorem serve_settles (method : String) (request : ProvisionRequest) (hmade : e.made = []) :
    Runs s f (request.serve cfg service method) e (Settles (Succeeds s f cfg e request) e) := by
  have hphysical : toLower (trimSpace "physical") = "physical" := by decide
  have hlogical : toLower (trimSpace "logical") = "logical" := by decide
  rcases request with ⟨_ | req⟩ | ⟨_ | req⟩ | ⟨_ | req⟩
  · unfold ProvisionRequest.serve serveProvisionSingle
    dsimp only
    split
    · exact refused_settles hmade
    · exact refused_settles hmade
  · exact serveProvisionSingle_settles method req hmade
  · exact refused_settles hmade
  · exact serveProvisionReplica_settles method hphysical hmade
  · exact refused_settles hmade
  · exact serveProvisionReplica_settles method hlogical hmade

end Handlers

/-- A provisioning run that ends in an error has undone everything exactly when no call
of it leaks. -/
theorem provision_undone_iff (s : WorkspaceStore) (f : Fate) (cfg : PgConfig)
    (service : Service) (method : String) (request : ProvisionRequest) (file : File)
    (tasks : String → Option ProvisionTask) (err : ApiError)
    (herr : ((request.serve cfg service method).run (handle s f) (.start file tasks)).1 =
      .error err) :
    Undone (.start file tasks)
        ((request.serve cfg service method).run (handle s f) (.start file tasks)).2 ↔
      (request.serve cfg service method).Meets (handle s f) (fun e c => ¬ Leaks s f e c)
        (.start file tasks) := by
  have hsettles : Runs s f (request.serve cfg service method) (.start file tasks) _ :=
    serve_settles method request rfl
  unfold Runs Program.Does at hsettles
  rw [herr] at hsettles
  exact hsettles.2

def calmReply : (c : Call) → Reply c
  | .unixNano | .unixMilli | .unix => (7 : Int)
  | .findFreePort _ => (5432 : Int)
  | .ctxErr | .command _ | .mkdirAll _ | .removeAll _ | .writeCompose .. => none
  | .appendCluster .. | .deleteClusterLocked .. => none
  | .hasLocalImage _ | .dial .. | .tryConnectNode _ => true
  | .isPortInUse _ => false
  | .findAvailablePort => .ok 5432
  | .statVersion _ => .notExist
  | .setProvisionTask _ => ()
  | .findClusterByID _ => .ok none

def calm : Fate := ⟨fun _ c => calmReply c, fun _ => false, none, fun _ => quiet⟩

def disconnected : Fate := { calm with cancelAt := some 12 }

def serverConfig : PgConfig := ⟨5432, "postgres", "postgres", "postgres"⟩

def oneProcess : Service := ⟨1, id⟩

def dockerSingle : ProvisionRequest := .single (some ⟨"p1", "main", "docker", "16", "docker"⟩)

def oneProject : File :=
  .envelope ⟨currentWorkspaceSchemaVersion, .of [⟨"p1", "shop", .of [], .of []⟩], .nil⟩

theorem provision_undone_iff_disconnected :
    ∃ err, ((dockerSingle.serve serverConfig oneProcess "POST").run
        (handle plainStore disconnected) (.start oneProject fun _ => none)).1 = .error err ∧
      (Undone (.start oneProject fun _ => none)
          ((dockerSingle.serve serverConfig oneProcess "POST").run
            (handle plainStore disconnected) (.start oneProject fun _ => none)).2 ↔
        (dockerSingle.serve serverConfig oneProcess "POST").Meets (handle plainStore disconnected)
          (fun e c => ¬ Leaks plainStore disconnected e c) (.start oneProject fun _ => none)) :=
  ⟨_, rfl, provision_undone_iff plainStore disconnected serverConfig oneProcess "POST" dockerSingle
    oneProject (fun _ => none) _ rfl⟩

/-- The clean-up runs under the context that the disconnect has cancelled. -/
theorem disconnect_leaks :
    ¬ ∀ (s : WorkspaceStore) (f : Fate) (cfg : PgConfig) (service : Service) (method : String)
        (request : ProvisionRequest) (file : File) (tasks : String → Option ProvisionTask)
        (err : ApiError),
      ((request.serve cfg service method).run (handle s f) (.start file tasks)).1 = .error err →
      Undone (.start file tasks)
        ((request.serve cfg service method).run (handle s f) (.start file tasks)).2 := by
  intro h
  have hundone := h plainStore disconnected serverConfig oneProcess "POST" dockerSingle oneProject
    (fun _ => none) _ rfl
  have hmade := hundone.1
  revert hmade
  decide

end LearnPg.Api
