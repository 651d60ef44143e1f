import LearnPg.Api.Operations

/-! Ids in every reachable workspace: they are distinct as long as each operation brings
fresh ones, which only `upsert` sees to, by replacing the project that has the id. The id
in the path of `PUT /api/workspace/projects/{id}` is taken to be UTF-8, as the other texts
are: the file keeps no other. -/
namespace LearnPg.Api

open Workspace.Data Workspace.Store Workspace.Places Workspace.Identity Provision Basis.Calls
  Basis.Runs

/-- The ids that an operation brings, from the client or from its clock. -/
def Operation.brings (w : Nat → World) : Operation → List Id
  | .saveProject project => projectIds project
  | .saveProjects projects => projectsIds projects
  | .putProject part project => projectIds { project with id := trimSpace part }
  | .createProject req => [(.project, req.id)]
  | .createCluster _ req => (.cluster, req.id) :: req.nodes.items.flatMap nodeIds
  | .createNode _ req => [(.node, req.id)]
  | .provision fate _ _ (.single _) =>
    [(.cluster, minted fate "cluster" 1), (.node, minted fate "node" 2)]
  | .provision fate .. =>
    [(.cluster, minted fate "cluster" 1), (.node, minted fate "node" 2),
      (.node, minted fate "node" 3)]
  | .importHost .. | .importDSN .. => [(.node, mintedNode (w 0))]
  | .createHost _ => [(.host, "host-" ++ toString (w 1).unixNano)]
  | _ => []

/-- The ids of what an operation that brings ids leaves in place. -/
def Operation.spares (file : File) : Operation → List Id
  | .saveProject project => otherProjects file project.id
  | .putProject part _ => otherProjects file (trimSpace part)
  | .createProject req => otherProjects file req.id
  | .saveProjects _ => []
  | .createHost _ => fileIds file
  | _ => projectsIds (storedProjects file)

def BringsFresh (file : File) (step : (Nat → World) × Operation) : Prop :=
  Fresh (step.2.brings step.1) (step.2.spares file)

/-- Successful operations, each with what the system does to its calls. -/
def workspace (s : WorkspaceStore) (cfg : PgConfig) (start : File) :
    Machine File ((Nat → World) × Operation) :=
  ⟨start, fun file step => step.2.serve s cfg step.1 file⟩

section

variable {s : WorkspaceStore} {cfg : PgConfig} {w : Nat → World} {file file' : File}

theorem succeeded_some {α : Type} {result : File × Except ApiError α}
    (h : succeeded result = some file') : result.1 = file' ∧ ∃ a, result.2 = .ok a := by
  unfold succeeded at h
  cases hresult : result.2 with
  | error err =>
    rw [hresult] at h
    cases h
  | ok a =>
    rw [hresult] at h
    exact ⟨Option.some.inj h, a, rfl⟩

theorem stored_some {α : Type} {w : World} {r : Request} {status : Nat} {failure : String}
    {next : File → Except ApiError α}
    (h : succeeded (stored s w r status failure file next) = some file') :
    (txn s w r).exec file = .ok file' := by
  obtain ⟨hfile, a, ha⟩ := succeeded_some h
  unfold stored at hfile ha
  cases hexec : (txn s w r).exec file with
  | error err =>
    rw [hexec] at ha
    cases ha
  | ok next =>
    rw [hexec] at hfile
    exact congrArg Except.ok hfile

theorem store_eq_stored {w : World} {r : Request} {status : Nat}
    {next : File → Except ApiError Body} :
    Api.store s w r status file next = stored s w r status "" file next := by
  unfold Api.store stored
  cases (txn s w r).exec file with
  | error err =>
    dsimp only
    rw [String.empty_append]
  | ok next => rfl

theorem store_some {w : World} {r : Request} {status : Nat} {next : File → Except ApiError Body}
    (h : succeeded (Api.store s w r status file next) = some file') :
    (txn s w r).exec file = .ok file' := by
  rw [store_eq_stored] at h
  exact stored_some h

theorem setStatus_loses {w : World} {nodeID status lastError : String}
    (h : Activation.setStatus s w nodeID status lastError file = .ok file') :
    Loses (fileIds file) (fileIds file') :=
  exec_loses (r := .updateNodeStatus nodeID status lastError) h trivial

theorem trySetStatus_loses {w : World} {nodeID status lastError : String} :
    Loses (fileIds file) (fileIds (Activation.trySetStatus s w nodeID status lastError file)) := by
  unfold Activation.trySetStatus
  split
  next hset => exact setStatus_loses hset
  next => exact List.Sublist.refl _

theorem activate_loses {nodeID : String} {m : Connection.State} {answer : Except String Unit} :
    Loses (fileIds file)
      (fileIds (Activation.serveNodeActivateAlone s w answer nodeID file m).1) := by
  unfold Activation.serveNodeActivateAlone
  split
  · exact List.Sublist.refl _
  dsimp only
  split
  · exact List.Sublist.refl _
  next hset =>
    have hconnecting := setStatus_loses hset
    split <;> exact trySetStatus_loses.trans hconnecting

theorem deactivate_loses {w : World} {nodeID : String} {m : Connection.State} :
    Loses (fileIds file) (fileIds (Activation.serveNodeDeactivateAlone s w nodeID file m).1) := by
  unfold Activation.serveNodeDeactivateAlone
  split
  · exact List.Sublist.refl _
  · exact trySetStatus_loses

theorem delete_loses {f : Fate} {e : Env} (projectID clusterID : String) : Loses (fileIds e.file)
    (fileIds (handle s f e (.deleteClusterLocked projectID clusterID)).2.file) := by
  unfold handle
  dsimp only
  split
  · exact List.Sublist.refl _
  next hexec => exact exec_loses hexec trivial

theorem teardownByID_loses {f : Fate} {e : Env} (clusterID : String) (cleanupData : Bool) :
    Runs s f (teardownByID clusterID cleanupData) e fun _ t _ =>
      Loses (fileIds e.file) (fileIds t.file) := by
  refine does_bind_clean (runs_inert trivial) fun found e1 h1 => ?_
  rw [← h1.1.1.file]
  rcases found with err | _ | ⟨cluster, projectID⟩
  · exact does_pure (List.Sublist.refl _)
  · exact does_pure (List.Sublist.refl _)
  refine does_bind (stopNodes_clears _) fun _ e2 _ h2 => ?_
  rw [← h2.1]
  have hdelete : Runs s f (invoke (.deleteClusterLocked projectID clusterID)) e2 fun _ t _ =>
      Loses (fileIds e2.file) (fileIds t.file) :=
    runs_invoke (delete_loses _ _)
  refine does_bind_silent hdelete fun err => ?_
  cases err with
  | some err => exact ⟨_, rfl⟩
  | none => exact ⟨_, rfl⟩

theorem teardown_loses {f : Fate} {e : Env} (method part : String) (body : TeardownBody) :
    Runs s f (serveClusterTeardown method part body) e fun _ t _ =>
      Loses (fileIds e.file) (fileIds t.file) := by
  unfold serveClusterTeardown
  dsimp only
  split_ifs
  · exact does_pure (List.Sublist.refl _)
  · exact does_pure (List.Sublist.refl _)
  cases body with
  | unreadable => exact does_pure (List.Sublist.refl _)
  | malformed => exact does_pure (List.Sublist.refl _)
  | request cleanupData => exact teardownByID_loses _ cleanupData

/-! What handlers that succeed have done with the store. -/

/-- A provisioning run that succeeds appends one cluster, with the ids that it minted. -/
theorem provision_appends {f : Fate} {service : Service} {method : String}
    {request : ProvisionRequest}
    (h : (Operation.provision f service method request).serve s cfg w file = some file') :
    ∃ w' projectID cluster, (txn s w' (.appendCluster projectID cluster)).exec file = .ok file' ∧
      clusterIds cluster = (Operation.provision f service method request).brings w := by
  have hsettles : Runs s f (request.serve cfg service method) (.start file fun _ => none) _ :=
    serve_settles method request rfl
  obtain ⟨rfl, resp, hresp⟩ := succeeded_some h
  dsimp only at hresp
  unfold Runs Program.Does at hsettles
  rw [hresp] at hsettles
  rcases request with ⟨_ | req⟩ | ⟨_ | req⟩ | ⟨_ | req⟩
  · exact hsettles.elim
  · obtain ⟨info, -, -, ⟨w', hexec⟩, -⟩ := hsettles
    exact ⟨w', _, _, hexec, rfl⟩
  · exact hsettles.elim
  · obtain ⟨primaryInfo, replicaInfo, -, ⟨w', hexec⟩, -⟩ := hsettles
    exact ⟨w', _, _, hexec, rfl⟩
  · exact hsettles.elim
  · obtain ⟨primaryInfo, replicaInfo, -, ⟨w', hexec⟩, -⟩ := hsettles
    exact ⟨w', _, _, hexec, rfl⟩

theorem provision_adds {f : Fate} {service : Service} {method : String}
    {request : ProvisionRequest}
    (h : (Operation.provision f service method request).serve s cfg w file = some file') :
    Adds ((Operation.provision f service method request).brings w)
      (projectsIds (storedProjects file)) (fileIds file') := by
  obtain ⟨w', projectID, cluster, hexec, hids⟩ := provision_appends h
  rw [← hids]
  exact appendCluster_adds hexec

theorem createCluster_appends {projectID : String} {req : ClusterCreateRequest}
    (h : (Operation.createCluster projectID req).serve s cfg w file = some file') :
    ∃ cluster, (txn s (w 0) (.appendCluster projectID cluster)).exec file = .ok file' ∧
      clusterIds cluster = (Operation.createCluster projectID req).brings w := by
  change succeeded (serveClusterCreate s (w 0) projectID req file) = _ at h
  unfold serveClusterCreate at h
  dsimp only at h
  split_ifs at h
  · cases h
  · cases h
  · cases h
  · exact ⟨_, store_some h, rfl⟩
  · exact ⟨_, store_some h, rfl⟩

theorem deleteCluster_deletes {clusterID : String}
    (h : (Operation.deleteCluster clusterID).serve s cfg w file = some file') :
    ∃ c projectID, findClusterByID s (w 0) file clusterID = .ok (c, projectID) ∧
      (txn s (w 1) (.deleteClusterLocked projectID clusterID)).exec file = .ok file' := by
  change succeeded (serveClusterDelete s w clusterID file) = _ at h
  unfold serveClusterDelete at h
  split at h
  · cases h
  split at h
  · cases h
  next c projectID hfind => exact ⟨c, projectID, hfind, store_some h⟩

theorem updateProject_patches {id : String} {req : ProjectUpdateRequest}
    (h : (Operation.updateProject id req).serve s cfg w file = some file') :
    (txn s (w 0) (.updateProjectLocked id fun p => .ok (req.patch p))).exec file = .ok file' := by
  change succeeded (serveProjectUpdate s w id req file) = _ at h
  unfold serveProjectUpdate at h
  split at h
  · cases h
  · exact store_some h

theorem Operation.serve_moves {op : Operation} (h : op.serve s cfg w file = some file') :
    Moves (op.brings w) (op.spares file) (fileIds file) (fileIds file') := by
  cases op with
  | saveProject project => exact .inr (upsert_adds (stored_some h))
  | saveProjects projects =>
    have hadds := writeAll_adds (stored_some h)
    exact .inr hadds
  | putProject part project =>
    change succeeded (serveWorkspaceProjectPut s (w 0) part project file) = _ at h
    unfold serveWorkspaceProjectPut at h
    dsimp only at h
    split at h
    · cases h
    · exact .inr (upsert_adds (stored_some h))
  | dropProject part =>
    change succeeded (serveWorkspaceProjectDelete s (w 0) part file) = _ at h
    unfold serveWorkspaceProjectDelete at h
    dsimp only at h
    split at h
    · cases h
    · exact .inl ⟨rfl, exec_loses (stored_some h) trivial⟩
  | createProject req =>
    change succeeded (serveProjectCreate s (w 0) req file) = _ at h
    unfold serveProjectCreate at h
    dsimp only at h
    split_ifs at h
    · cases h
    · cases h
    · exact .inr (upsert_adds (store_some h))
  | updateProject id req =>
    refine .inl ⟨rfl, exec_loses (updateProject_patches h) fun p q hq => ?_⟩
    cases hq
    rfl
  | deleteProject id =>
    change succeeded (serveProjectDelete s (w 0) id file) = _ at h
    unfold serveProjectDelete at h
    split at h
    · cases h
    · exact .inl ⟨rfl, exec_loses (stored_some h) trivial⟩
  | createCluster projectID req =>
    obtain ⟨cluster, hexec, hids⟩ := createCluster_appends h
    rw [← hids]
    exact .inr (appendCluster_adds hexec)
  | updateCluster clusterID req =>
    change succeeded (serveClusterUpdate s w clusterID req file) = _ at h
    unfold serveClusterUpdate at h
    split at h
    · cases h
    split at h
    · cases h
    · refine .inl ⟨rfl, exec_loses (store_some h) fun c d hd => ?_⟩
      cases hd
      rfl
  | deleteCluster clusterID =>
    obtain ⟨c, projectID, -, hexec⟩ := deleteCluster_deletes h
    exact .inl ⟨rfl, exec_loses hexec trivial⟩
  | teardownCluster fate method part body =>
    obtain ⟨rfl, -⟩ := succeeded_some h
    have hloses : Runs s fate (serveClusterTeardown method part body)
        (.start file fun _ => none) _ := teardown_loses method part body
    exact .inl ⟨rfl, hloses⟩
  | createNode clusterID req =>
    change succeeded (serveNodeCreate s w clusterID req file) = _ at h
    unfold serveNodeCreate at h
    split at h
    · cases h
    split at h
    · cases h
    split_ifs at h
    · cases h
    · cases h
    · exact .inr (appendNode_adds (store_some h))
  | updateNode nodeID req =>
    change succeeded (serveNodeUpdate s w nodeID req file) = _ at h
    unfold serveNodeUpdate at h
    split at h
    · cases h
    · refine .inl ⟨rfl, exec_loses (store_some h) fun n m hm => ?_⟩
      cases hm
      rfl
  | deleteNode nodeID =>
    change succeeded (serveNodeDelete s w nodeID file) = _ at h
    unfold serveNodeDelete at h
    split at h
    · cases h
    · exact .inl ⟨rfl, exec_loses (store_some h) trivial⟩
  | activateNode nodeID m answer =>
    obtain ⟨rfl, -⟩ := succeeded_some h
    exact .inl ⟨rfl, activate_loses⟩
  | deactivateNode nodeID m =>
    obtain ⟨rfl, -⟩ := succeeded_some h
    exact .inl ⟨rfl, deactivate_loses⟩
  | provision fate service method request => exact .inr (provision_adds h)
  | importHost req connects =>
    change succeeded (serveDiscoveryHostImport s cfg w req connects file) = _ at h
    unfold serveDiscoveryHostImport at h
    dsimp only at h
    split_ifs at h
    · cases h
    · cases h
    · exact .inr (appendNode_adds (stored_some h))
  | importDSN req parsed connects =>
    cases parsed with
    | error err => cases h
    | ok dsn => exact .inr (appendNode_adds (stored_some h))
  | createHost req =>
    change succeeded (serveHostCreate s w req file) = _ at h
    unfold serveHostCreate at h
    dsimp only at h
    split_ifs at h
    · cases h
    · cases h
    · cases h
    · exact .inr (appendHost_adds (stored_some h))
  | updateHost id req =>
    change succeeded (serveHostUpdate s w id req file) = _ at h
    unfold serveHostUpdate at h
    split_ifs at h
    · cases h
    · cases h
    · refine .inl ⟨rfl, exec_loses (stored_some h) fun x y hy => ?_⟩
      cases hy
      rfl
  | deleteHost id =>
    change succeeded (serveHostDelete s (w 0) id file) = _ at h
    unfold serveHostDelete at h
    split at h
    · cases h
    · exact .inl ⟨rfl, exec_loses (stored_some h) trivial⟩

theorem Operation.spares_sublist (op : Operation) (file : File) :
    (op.spares file).Sublist (fileIds file) := by
  have hprojects : (projectsIds (storedProjects file)).Sublist (fileIds file) :=
    List.sublist_append_left _ _
  have hothers (id : String) : (otherProjects file id).Sublist (fileIds file) :=
    (List.eraseP_sublist.flatMap _).trans hprojects
  cases op with
  | saveProject | putProject | createProject => exact hothers _
  | saveProjects => exact List.nil_sublist _
  | createHost => exact List.Sublist.refl _
  | _ => exact hprojects

end

/-- In a run of successful operations from an empty workspace, all ids are distinct in
every state exactly when every operation brings fresh ones. -/
theorem identifiers_distinct_iff (s : WorkspaceStore) (cfg : PgConfig) (start : File)
    (hempty : fileIds start = []) (steps : List ((Nat → World) × Operation)) (file : File)
    (hrun : (workspace s cfg start).run steps = some file) :
    (∀ before reached, before <+: steps → (workspace s cfg start).run before = some reached →
        Distinct reached) ↔
      (workspace s cfg start).Meets BringsFresh start steps := by
  have hstart : Distinct start := by
    rw [← nodup_fileIds, hempty]
    exact List.nodup_nil
  refine reached_iff_meets (fun s' a t hs hstep => ?_) hstart hrun
  exact distinct_iff_fresh (Operation.serve_moves hstep) (a.2.spares_sublist s') hs

/-- An operation in a system where no call fails and the clock stands still. -/
def still (op : Operation) : (Nat → World) × Operation := (fun _ => quiet, op)

def newProject : Operation := .createProject ⟨"p1", "shop"⟩

def newCluster : Operation := .createCluster "p1" ⟨"c1", "main", "physical", 30, .of []⟩

theorem identifiers_distinct_iff_newCluster :
    ∃ file, (workspace plainStore serverConfig .missing).run [still newProject, still newCluster] =
        some file ∧
      ((∀ before reached, before <+: [still newProject, still newCluster] →
          (workspace plainStore serverConfig .missing).run before = some reached →
          Distinct reached) ↔
        (workspace plainStore serverConfig .missing).Meets BringsFresh .missing
          [still newProject, still newCluster]) :=
  ⟨_, rfl, identifiers_distinct_iff plainStore serverConfig .missing rfl
    [still newProject, still newCluster] _ rfl⟩

/-- The store appends a cluster without looking for its id. -/
theorem cluster_id_repeated :
    ¬ ∀ (s : WorkspaceStore) (cfg : PgConfig) (ops : List Operation) (file : File),
      (workspace s cfg .missing).run (ops.map still) = some file → Distinct file := by
  intro h
  have hdistinct := h plainStore serverConfig [newProject, newCluster, newCluster] _ rfl .cluster
  revert hdistinct
  decide

end LearnPg.Api
