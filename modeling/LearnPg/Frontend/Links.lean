import LearnPg.Api.Identifiers
import LearnPg.Frontend.App
import LearnPg.Workspace.Links

/-! The links of components to clusters, in the workspace file and in the app's list of
projects. Clusters are removed in both without a look at the links. -/
namespace LearnPg.Frontend.Links

open Workspace.Data Workspace.Store Workspace.Places Workspace.Links Provision Basis.Calls
  Basis.Runs Api App

/-- The file of the backend and the list of an app, with the project it shows. -/
structure Workspaces where
  file : File
  projects : List Listed
  selectedProjectId : String

def Workspaces.selectedProject (st : Workspaces) : Option Project :=
  ((st.projects.find? (·.project.id = st.selectedProjectId)).or st.projects.head?).map (·.project)

/-- What happens next: an operation of the backend, something done in the app, or a
transfer of the list from one to the other. -/
inductive Label where
  | backend (w : Nat → World) (op : Operation)
  | select (projectId : String)
  | removeCluster (clusterId : String)
  | toggleLink (componentId clusterId : String)
  | createComponent (projectId componentId : String)
  | removeComponent (componentId : String)
  | updateComponent (componentId : String) (name componentType : Option String)
  | load (w : World)
  | save (w : Nat → World)

/-- Project renames, cluster creations, deletions and teardowns. -/
def onClusters : Operation → Bool
  | .updateProject .. | .createCluster .. | .provision .. | .deleteCluster _
  | .teardownCluster .. => true
  | _ => false

def patchComponent (name componentType : Option String) (c : Component) : Component :=
  { c with name := name.getD c.name, componentType := componentType.getD c.componentType }

def Workspaces.editSelected (st : Workspaces) (edit : ProjectEdit) : Workspaces :=
  match st.selectedProject with
  | none => st
  | some selected => { st with projects := (Edit.project selected.id edit).apply st.projects }

def step (s : WorkspaceStore) (cfg : PgConfig) (st : Workspaces) : Label → Option Workspaces
  | .backend w op =>
    if onClusters op then (op.serve s cfg w st.file).map fun file => { st with file } else none
  | .select projectId => some { st with selectedProjectId := projectId }
  | .removeCluster clusterId => some (st.editSelected (.removeCluster clusterId))
  | .toggleLink componentId clusterId =>
    -- the view has a button for each cluster of the project it shows
    if st.selectedProject.any fun selected => decide (clusterId ∈ ownClusters selected) then
      some (st.editSelected (.toggleLink componentId clusterId))
    else none
  | .createComponent projectId componentId =>
    some { st with
      projects := (Edit.project projectId (.createComponent componentId)).apply st.projects }
  | .removeComponent componentId => some (st.editSelected (.removeComponent componentId))
  | .updateComponent componentId name componentType =>
    some (st.editSelected (.updateComponent componentId (patchComponent name componentType)))
  | .load w =>
    match serveWorkspaceProjects s w st.file with
    | .ok (.snapshot _ projects) =>
      (loadProjectsFromBackend (.body (some true) (some projects.items))).map fun remote =>
        { st with projects := fresh remote }
    | _ => none
  | .save w =>
    ((Operation.saveProjects (.of (st.projects.map (·.project)))).serve s cfg w st.file).map
      fun file => { st with file }

def machine (s : WorkspaceStore) (cfg : PgConfig) (start : Workspaces) :
    Machine Workspaces Label :=
  ⟨start, step s cfg⟩

def NoneDangles (st : Workspaces) : Prop :=
  LinksResolve (storedProjects st.file).items ∧ LinksResolve (st.projects.map (·.project))

/-- No link needs the cluster that a deletion by this id takes out of the file. -/
def Deletable (s : WorkspaceStore) (file : File) (clusterID : String) : Prop :=
  ∀ found p, locateCluster (readProjects s file) clusterID = some found →
    projectByID (readProjects s file) found.2 = some p → Spares p clusterID

/-- In the projects that an edit of the one shown reaches. -/
def Workspaces.OnSelected (st : Workspaces) (cond : Project → Prop) : Prop :=
  ∀ selected, st.selectedProject = some selected →
    ∀ l ∈ st.projects, l.project.id = selected.id → cond l.project

/-- A component with the id is given a link only where the project has the cluster. -/
def LinksOwn (componentId clusterId : String) (p : Project) : Prop :=
  ∀ m ∈ p.components.items, m.id = componentId → clusterId ∉ m.linkedClusterIDs.items →
    clusterId ∈ ownClusters p

def Safe (s : WorkspaceStore) (st : Workspaces) : Label → Prop
  | .backend _ (.deleteCluster clusterID) => Deletable s st.file clusterID
  | .backend _ (.teardownCluster _ _ part _) => Deletable s st.file (trimSpace part)
  | .removeCluster clusterId => st.OnSelected fun p => clusterId ∉ links p
  | .toggleLink componentId clusterId => st.OnSelected (LinksOwn componentId clusterId)
  | _ => True

section Backend

variable {s : WorkspaceStore} {cfg : PgConfig} {w : Nat → World} {file file' : File}
  {clusterID : String}

theorem delete_resolves {w : World} {found : Cluster × String}
    (hfound : locateCluster (readProjects s file) clusterID = some found)
    (h : (txn s w (.deleteClusterLocked found.2 clusterID)).exec file = .ok file')
    (hbefore : LinksResolve (storedProjects file).items) :
    LinksResolve (storedProjects file').items ↔ Deletable s file clusterID := by
  rw [deleteClusterLocked_resolves h hbefore]
  unfold Deletable projectByID
  constructor
  · intro hspares found' p hfound' hp
    rw [hfound] at hfound'
    cases hfound'
    exact hspares p hp
  · exact fun hspares p hp => hspares found p hfound hp

theorem deleteCluster_served
    (h : (Operation.deleteCluster clusterID).serve s cfg w file = some file')
    (hbefore : LinksResolve (storedProjects file).items) :
    LinksResolve (storedProjects file').items ↔ Deletable s file clusterID := by
  obtain ⟨c, projectID, hfind, hexec⟩ := deleteCluster_deletes h
  obtain ⟨projects, hread, hfound⟩ := findClusterByID_ok hfind
  rw [readAll_eq hread] at hfound
  exact delete_resolves hfound hexec hbefore

/-- A teardown that succeeds has deleted the cluster it found. -/
theorem teardownByID_deletes {f : Fate} {e : Env} (cleanupData : Bool) :
    Runs s f (teardownByID clusterID cleanupData) e fun r t _ => ∀ a, r = .ok a →
      ∃ w found, locateCluster (readProjects s e.file) clusterID = some found ∧
        (txn s w (.deleteClusterLocked found.2 clusterID)).exec e.file = .ok t.file := by
  refine does_bind_clean (runs_inert trivial) fun found e1 h1 => ?_
  have hreply := h1.2
  rcases found with err | _ | ⟨cluster, projectID⟩
  · exact does_pure nofun
  · exact does_pure nofun
  have hfound : locateCluster (readProjects s e.file) clusterID = some (cluster, projectID) := by
    obtain ⟨projects, hread, hlocate⟩ := map_ok hreply.symm
    rw [← readAll_eq hread, hlocate]
  refine does_bind (stopNodes_clears _) fun _ e2 _ h2 => ?_
  have hdelete : Runs s f (invoke (.deleteClusterLocked projectID clusterID)) e2 fun err t _ =>
      err = none → ∃ w, (txn s w (.deleteClusterLocked projectID clusterID)).exec e2.file =
        .ok t.file := by
    apply runs_invoke
    unfold handle
    dsimp only
    split
    · exact nofun
    next file hexec => exact fun _ => ⟨_, hexec⟩
  refine does_bind hdelete fun err t _ ht => ?_
  cases err with
  | some err => exact does_pure nofun
  | none =>
    obtain ⟨w, hexec⟩ := ht rfl
    rw [h2.1, h1.1.1.file] at hexec
    exact does_pure fun a _ => ⟨w, _, hfound, hexec⟩

theorem teardownCluster_served {fate : Fate} {method part : String} {body : TeardownBody}
    (h : (Operation.teardownCluster fate method part body).serve s cfg w file = some file')
    (hbefore : LinksResolve (storedProjects file).items) :
    LinksResolve (storedProjects file').items ↔ Deletable s file (trimSpace part) := by
  obtain ⟨rfl, cleaned, hok⟩ := succeeded_some h
  dsimp only at hok
  have hdeletes : ∃ w found, locateCluster (readProjects s file) (trimSpace part) = some found ∧
      (txn s w (.deleteClusterLocked found.2 (trimSpace part))).exec file =
        .ok ((serveClusterTeardown method part body).run (handle s fate)
          (.start file fun _ => none)).2.file := by
    unfold serveClusterTeardown at hok ⊢
    dsimp only at hok ⊢
    split_ifs at hok ⊢
    · cases hok
    · cases hok
    cases body with
    | unreadable | malformed => cases hok
    | request cleanupData =>
      have hruns : Runs s fate (teardownByID (trimSpace part) cleanupData)
        (.start file fun _ => none) _ := teardownByID_deletes cleanupData
      exact hruns cleaned hok
  obtain ⟨w, found, hfound, hexec⟩ := hdeletes
  exact delete_resolves hfound hexec hbefore

theorem provision_served {fate : Fate} {service : Service} {method : String}
    {request : ProvisionRequest}
    (h : (Operation.provision fate service method request).serve s cfg w file = some file')
    (hbefore : LinksResolve (storedProjects file).items) :
    LinksResolve (storedProjects file').items := by
  obtain ⟨w', projectID, cluster, hexec, -⟩ := provision_appends h
  exact appendCluster_resolves hexec hbefore

theorem createCluster_served {projectID : String} {req : ClusterCreateRequest}
    (h : (Operation.createCluster projectID req).serve s cfg w file = some file')
    (hbefore : LinksResolve (storedProjects file).items) :
    LinksResolve (storedProjects file').items := by
  obtain ⟨cluster, hexec, -⟩ := createCluster_appends h
  exact appendCluster_resolves hexec hbefore

theorem updateProject_served {id : String} {req : ProjectUpdateRequest}
    (h : (Operation.updateProject id req).serve s cfg w file = some file')
    (hbefore : LinksResolve (storedProjects file).items) :
    LinksResolve (storedProjects file').items := by
  refine updateProjectLocked_resolves (updateProject_patches h) (fun p q hq => ?_) hbefore
  cases hq
  exact ⟨rfl, rfl⟩

end Backend

section Frontend

variable {st : Workspaces} {p : Project} {componentId clusterId : String}

theorem edit_resolves (projectId : String) {edit : ProjectEdit} {cond : Project → Prop}
    {projects : List Listed}
    (hedit : ∀ p, Resolves p → (Resolves (edit.apply p) ↔ cond p))
    (hbefore : LinksResolve (projects.map (·.project))) :
    LinksResolve (((Edit.project projectId edit).apply projects).map (·.project)) ↔
      ∀ l ∈ projects, l.project.id = projectId → cond l.project := by
  simp only [LinksResolve, List.forall_mem_map, Edit.apply, onProject] at hbefore ⊢
  apply forall₂_congr
  intro l hl
  by_cases hid : l.project.id = projectId
  · simp [hid, hedit l.project (hbefore l hl)]
  · simp [hid, hbefore l hl]

theorem editSelected_resolves {edit : ProjectEdit} {cond : Project → Prop}
    (hedit : ∀ p, Resolves p → (Resolves (edit.apply p) ↔ cond p)) (hbefore : NoneDangles st) :
    NoneDangles (st.editSelected edit) ↔ st.OnSelected cond := by
  unfold Workspaces.editSelected Workspaces.OnSelected NoneDangles
  cases hselected : st.selectedProject with
  | none => exact iff_of_true hbefore nofun
  | some selected =>
    dsimp only
    rw [edit_resolves _ hedit hbefore.2, and_iff_right hbefore.1]
    simp

theorem removeCluster_resolves (hp : Resolves p) :
    Resolves ((ProjectEdit.removeCluster clusterId).apply p) ↔ clusterId ∉ links p := by
  have hown : ownClusters ((ProjectEdit.removeCluster clusterId).apply p) =
      (ownClusters p).filter (· ≠ clusterId) := by
    simp [ownClusters, ProjectEdit.apply, App.without, List.filter_map, Function.comp_def]
  have hlinks : links ((ProjectEdit.removeCluster clusterId).apply p) = links p := rfl
  unfold Resolves
  rw [hown, hlinks]
  constructor
  · intro hall hlink
    simpa using hall clusterId hlink
  · intro hunlinked id hlink
    rw [List.mem_filter]
    refine ⟨hp id hlink, decide_eq_true ?_⟩
    rintro rfl
    exact hunlinked hlink

theorem mem_links {id : String} :
    id ∈ links p ↔ ∃ m ∈ p.components.items, id ∈ m.linkedClusterIDs.items := by
  unfold links
  rw [List.mem_flatMap]

theorem toggleLink_resolves (hp : Resolves p) :
    Resolves ((ProjectEdit.toggleLink componentId clusterId).apply p) ↔
      LinksOwn componentId clusterId p := by
  unfold Resolves LinksOwn
  simp only [mem_links, ProjectEdit.apply, onId, items_of, List.mem_map]
  constructor
  · intro hall m hm hid hnot
    apply hall clusterId
    refine ⟨_, ⟨m, hm, rfl⟩, ?_⟩
    simp [hid, toggle, hnot, Slice.append]
  · rintro hown id ⟨_, ⟨m, hm, rfl⟩, hlink⟩
    have hlinked (hlink : id ∈ m.linkedClusterIDs.items) : id ∈ ownClusters p :=
      hp id (mem_links.mpr ⟨m, hm, hlink⟩)
    split at hlink
    next hid =>
      unfold toggle at hlink
      dsimp only at hlink
      split at hlink
      · exact hlinked (List.mem_of_mem_filter hlink)
      next hnot =>
        obtain hmem | rfl := List.mem_append.mp hlink |>.imp_right List.mem_singleton.mp
        · exact hlinked hmem
        · exact hown m hm hid hnot
    next => exact hlinked hlink

theorem components_resolve {edit : ProjectEdit} (hclusters : (edit.apply p).clusters = p.clusters)
    (hcomponents : ∀ m ∈ (edit.apply p).components.items, ∀ id ∈ m.linkedClusterIDs.items,
      id ∈ links p)
    (hp : Resolves p) : Resolves (edit.apply p) := by
  intro id hlink
  obtain ⟨m, hm, hid⟩ := mem_links.mp hlink
  unfold ownClusters
  rw [hclusters]
  exact hp id (hcomponents m hm id hid)

theorem createComponent_resolves (hp : Resolves p) :
    Resolves ((ProjectEdit.createComponent componentId).apply p) := by
  apply components_resolve rfl _ hp
  intro m hm id hid
  obtain hm | hm := List.mem_append.mp hm
  · exact mem_links.mpr ⟨m, hm, hid⟩
  · rw [List.mem_singleton.mp hm] at hid
    cases hid

theorem removeComponent_resolves (hp : Resolves p) :
    Resolves ((ProjectEdit.removeComponent componentId).apply p) := by
  apply components_resolve rfl _ hp
  intro m hm id hid
  exact mem_links.mpr ⟨m, List.mem_of_mem_filter hm, hid⟩

theorem updateComponent_resolves (name componentType : Option String) (hp : Resolves p) :
    Resolves ((ProjectEdit.updateComponent componentId
      (patchComponent name componentType)).apply p) := by
  apply components_resolve rfl _ hp
  intro m hm id hid
  obtain ⟨m', hm', rfl⟩ := List.mem_map.mp hm
  apply mem_links.mpr
  refine ⟨m', hm', ?_⟩
  split at hid <;> exact hid

/-- An edit of the project that is shown that keeps links resolving. -/
theorem editSelected_keeps {edit : ProjectEdit}
    (hedit : ∀ p, Resolves p → Resolves (edit.apply p)) (hbefore : NoneDangles st) :
    NoneDangles (st.editSelected edit) := by
  have hiff (p : Project) (hp : Resolves p) : Resolves (edit.apply p) ↔ True :=
    iff_true_intro (hedit p hp)
  exact (editSelected_resolves hiff hbefore).mpr fun _ _ _ _ _ => trivial

end Frontend

section

variable {s : WorkspaceStore} {cfg : PgConfig}

theorem backend_noneDangles {st : Workspaces} {w : Nat → World} {op : Operation} {file : File}
    (hop : onClusters op) (h : op.serve s cfg w st.file = some file) (hbefore : NoneDangles st) :
    NoneDangles { st with file } ↔ Safe s st (.backend w op) := by
  unfold NoneDangles
  rw [and_iff_left hbefore.2]
  cases op with
  | deleteCluster clusterID => exact deleteCluster_served h hbefore.1
  | teardownCluster fate method part body => exact teardownCluster_served h hbefore.1
  | updateProject id req => exact iff_of_true (updateProject_served h hbefore.1) trivial
  | createCluster projectID req => exact iff_of_true (createCluster_served h hbefore.1) trivial
  | provision fate service method request =>
    exact iff_of_true (provision_served h hbefore.1) trivial
  | _ => cases hop

theorem load_noneDangles {st st' : Workspaces} {w : World}
    (h : step s cfg st (.load w) = some st') (hbefore : NoneDangles st) : NoneDangles st' := by
  simp only [step, serveWorkspaceProjects] at h
  cases hread : readEnvelopeNoLock s w st.file with
  | error err =>
    rw [hread] at h
    cases h
  | ok env =>
    rw [hread] at h
    cases h
    refine ⟨hbefore.1, ?_⟩
    have hprojects : LinksResolve env.projects.items := by
      rw [projects_of_read hread]
      exact linksResolve_readProjects.mpr hbefore.1
    rw [← linksResolve_normalize] at hprojects
    simpa [fresh, normalizeProjects, Function.comp_def] using hprojects

theorem step_noneDangles {st st' : Workspaces} {a : Label} (hbefore : NoneDangles st)
    (h : step s cfg st a = some st') : NoneDangles st' ↔ Safe s st a := by
  cases a with
  | backend w op =>
    simp only [step] at h
    split at h
    next hop =>
      obtain ⟨file, hfile, rfl⟩ := Option.map_eq_some_iff.mp h
      exact backend_noneDangles hop hfile hbefore
    next => cases h
  | select projectId =>
    cases h
    exact iff_of_true hbefore trivial
  | removeCluster clusterId =>
    cases h
    exact editSelected_resolves (fun p hp => removeCluster_resolves hp) hbefore
  | toggleLink componentId clusterId =>
    simp only [step] at h
    split at h
    · cases h
      exact editSelected_resolves (fun p hp => toggleLink_resolves hp) hbefore
    · cases h
  | createComponent projectId componentId =>
    cases h
    have hedit (p : Project) (hp : Resolves p) :
        Resolves ((ProjectEdit.createComponent componentId).apply p) ↔ True :=
      iff_true_intro (createComponent_resolves hp)
    have hafter := (edit_resolves projectId hedit hbefore.2).mpr fun _ _ _ => trivial
    exact iff_of_true ⟨hbefore.1, hafter⟩ trivial
  | removeComponent componentId =>
    cases h
    exact iff_of_true (editSelected_keeps (fun p => removeComponent_resolves) hbefore) trivial
  | updateComponent componentId name componentType =>
    cases h
    exact iff_of_true (editSelected_keeps (fun p => updateComponent_resolves _ _) hbefore) trivial
  | load w => exact iff_of_true (load_noneDangles h hbefore) trivial
  | save w =>
    obtain ⟨file, hfile, rfl⟩ := Option.map_eq_some_iff.mp h
    refine iff_of_true ⟨?_, hbefore.2⟩ trivial
    have hwrite : writeAll s (w 0) _ st.file = .ok file := stored_some hfile
    exact (linksResolve_writeAll hwrite).mpr hbefore.2

/-- From a workspace without dangling links, no link dangles in any state of a run
exactly when no cluster is removed that a link still needs, and a link is made only
where the project has the cluster. -/
theorem links_resolve_iff {start st : Workspaces} {steps : List Label}
    (hstart : NoneDangles start) (hrun : (machine s cfg start).run steps = some st) :
    (∀ before reached, before <+: steps → (machine s cfg start).run before = some reached →
        NoneDangles reached) ↔
      (machine s cfg start).Meets (Safe s) start steps :=
  reached_iff_meets (fun _ _ _ => step_noneDangles) hstart hrun

end

def linkedShop : Project :=
  ⟨"p1", "shop", .of [⟨"c1", "main", "physical", 30, "", "", none, .of []⟩],
    .of [⟨"m1", "agent", "collector", .of ["c1"]⟩]⟩

def linkedWorkspace : Workspaces :=
  ⟨.envelope ⟨currentWorkspaceSchemaVersion, .of [linkedShop], .nil⟩, [⟨linkedShop, false⟩], "p1"⟩

theorem links_resolve_iff_removeCluster :
    (∀ before reached, before <+: [Label.removeCluster "c1"] →
        (machine plainStore serverConfig linkedWorkspace).run before = some reached →
        NoneDangles reached) ↔
      (machine plainStore serverConfig linkedWorkspace).Meets (Safe plainStore) linkedWorkspace
        [.removeCluster "c1"] :=
  links_resolve_iff ⟨by decide, by decide⟩ rfl

/-- A deletion in the backend leaves the link of a component to the cluster. -/
theorem deleted_cluster_linked :
    ¬ ∀ (s : WorkspaceStore) (cfg : PgConfig) (start st : Workspaces) (steps : List Label),
      NoneDangles start → (machine s cfg start).run steps = some st → NoneDangles st := by
  intro h
  have hdangles := (h plainStore serverConfig linkedWorkspace _
    [.backend (fun _ => quiet) (.deleteCluster "c1")] ⟨by decide, by decide⟩ rfl).1
  revert hdangles
  decide

/-- So does `removeCluster` in the app. -/
example : ¬ LinksResolve
    ((linkedWorkspace.editSelected (.removeCluster "c1")).projects.map (·.project)) := by
  decide

end LearnPg.Frontend.Links
