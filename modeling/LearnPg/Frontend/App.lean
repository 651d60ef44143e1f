import LearnPg.Basis.Runs
import LearnPg.Workspace.Data

/-! The app's own state: its list of projects, the effect that saves the list 250 ms
after a change, the loads, and the creations under way. A handler runs on the list
as it was last set. -/
namespace LearnPg.Frontend.App
open Workspace.Data LearnPg.Basis.Runs

/-- A project of the list, and, for the statements only, whether a template was
confirmed in preview mode to build it. -/
structure Listed where
  project : Project
  preview : Bool

/-! Edits, named after the handlers. -/

def onProject (projectId : String) (change : Project → Project) (projects : List Listed) :
    List Listed :=
  projects.map fun p =>
    if p.project.id = projectId then { p with project := change p.project } else p

def onId {α : Type} (idOf : α → String) (id : String) (change : α → α) (xs : Slice α) :
    Slice α :=
  .of (xs.items.map fun x => if idOf x = id then change x else x)

def without {α : Type} (idOf : α → String) (id : String) (xs : Slice α) : Slice α :=
  .of (xs.items.filter fun x => idOf x ≠ id)

/-- A change of one project. A patch stands for the fields it spreads over its target. -/
inductive ProjectEdit where
  | updateProject (name : Option String)
  | createCluster (clusterId : String) (node : Node)
  | removeCluster (clusterId : String)
  | updateCluster (clusterId : String) (patch : Cluster → Cluster)
  | updateNode (clusterId nodeId : String) (patch : Node → Node)
  | addNode (clusterId : String) (makeDefaultNode : Nat → Node)
  | removeNode (clusterId nodeId : String)
  | createComponent (componentId : String)
  | removeComponent (componentId : String)
  | updateComponent (componentId : String) (patch : Component → Component)
  | toggleLink (componentId clusterId : String)

def newCluster (clusterId : String) (node : Node) (idx : Nat) : Cluster where
  id := clusterId
  name := "集群 " ++ toString idx
  replicationType := "physical"
  alertThresholdSec := 30
  provisionMode := ""
  provisionTaskID := ""
  runtime := none
  nodes := .of [node]

def newComponent (componentId : String) (idx : Nat) : Component where
  id := componentId
  name := "组件 " ++ toString idx
  componentType := "collector"
  linkedClusterIDs := .of []

def toggle (clusterId : String) (linked : Slice String) : Slice String :=
  if clusterId ∈ linked.items then .of (linked.items.filter (· ≠ clusterId))
  else linked.append clusterId

def ProjectEdit.apply (p : Project) : ProjectEdit → Project
  | updateProject name => { p with name := name.getD p.name }
  | createCluster clusterId node =>
    { p with
      clusters := p.clusters.append
        (newCluster clusterId node (p.clusters.items.length + 1)) }
  | removeCluster clusterId =>
    { p with clusters := without Cluster.id clusterId p.clusters }
  | updateCluster clusterId patch =>
    { p with clusters := onId Cluster.id clusterId patch p.clusters }
  | updateNode clusterId nodeId patch =>
    { p with
      clusters := onId Cluster.id clusterId
        (fun c => { c with nodes := onId Node.id nodeId patch c.nodes }) p.clusters }
  | addNode clusterId makeDefaultNode =>
    { p with
      clusters := onId Cluster.id clusterId
        (fun c => { c with
          nodes := c.nodes.append (makeDefaultNode (c.nodes.items.length + 1)) }) p.clusters }
  | removeNode clusterId nodeId =>
    { p with
      clusters := onId Cluster.id clusterId
        (fun c =>
          let filtered := without Node.id nodeId c.nodes
          { c with nodes := if filtered.items = [] then c.nodes else filtered }) p.clusters }
  | createComponent componentId =>
    { p with
      components := p.components.append
        (newComponent componentId (p.components.items.length + 1)) }
  | removeComponent componentId =>
    { p with components := without Component.id componentId p.components }
  | updateComponent componentId patch =>
    { p with components := onId Component.id componentId patch p.components }
  | toggleLink componentId clusterId =>
    { p with
      components := onId Component.id componentId
        (fun c => { c with linkedClusterIDs := toggle clusterId c.linkedClusterIDs })
        p.components }

/-- A change of the list. `createTemplate` is the project put up for a real creation,
`previewTemplate` the one a template built for a look. -/
inductive Edit where
  | createProject (projectId : String)
  | createTemplate (projectId name : String)
  | previewTemplate (projectId : String) (built : Project)
  | removeProject (projectId : String)
  | project (projectId : String) (edit : ProjectEdit)

def emptyProject (projectId name : String) : Project := ⟨projectId, name, .of [], .of []⟩

def defaultName (projects : List Listed) : String := "项目 " ++ toString (projects.length + 1)

def Edit.apply (projects : List Listed) : Edit → List Listed
  | createProject projectId =>
    projects ++ [⟨emptyProject projectId (defaultName projects), false⟩]
  | createTemplate projectId name =>
    let name := if name = "" then defaultName projects else name
    projects ++ [⟨emptyProject projectId name, false⟩]
  | previewTemplate projectId built => projects ++ [⟨{ built with id := projectId }, true⟩]
  | removeProject projectId => projects.filter fun p => p.project.id ≠ projectId
  | project projectId edit => onProject projectId edit.apply projects

/-! Loads. -/

/-- What becomes of a request for the projects. -/
inductive Response where
  | networkFailure
  | httpError (status : Nat)
  | malformed
  | body (success : Option Bool) (projects : Option (List Project))

def loadProjectsFromBackend : Response → Option (List Project)
  | .body (some true) (some projects) => some (projects.map normalizeProject)
  | _ => none

/-- A list of projects, and, for the statements only, the load it stems from, if any,
and the edits made since. -/
structure Copy where
  projects : List Listed
  origin : Option (List Project)
  edits : List Edit

def Copy.edit (c : Copy) (e : Edit) : Copy :=
  { c with projects := e.apply c.projects, edits := c.edits ++ [e] }

def fresh (projects : List Project) : List Listed := projects.map fun p => ⟨p, false⟩

def Copy.loaded (projects : List Project) : Copy := ⟨fresh projects, some projects, []⟩

/-! The app. -/

/-- How far the creation of a cluster has come: what it waits for. -/
inductive Stage where
  | seeding | provisioning | reloading
deriving DecidableEq, Repr

/-- What passed between the app and the backend: the lists loaded and the bodies put. -/
inductive Traffic where
  | loaded (projects : List Project)
  | put (body : Copy)

/-- `timer` is the list that the running timeout will save; `dirty` says that the
autosave effect has not run since the list or `bootstrapped` changed. -/
structure State where
  projects : Copy
  bootstrapped : Bool
  dirty : Bool
  timer : Option Copy
  creations : List (String × Stage)
  traffic : List Traffic

inductive Label where
  | bootstrap (r : Response)
  | reload (r : Response)
  | edit (e : Edit)
  | createTemplate (projectId name : String)
  | seeded (i : Nat) (ok : Bool)
  | provisioned (i : Nat) (ok hasTask : Bool)
  | created (i : Nat) (r : Response)
  | effect
  | timeout

def State.setProjects (st : State) (c : Copy) : State := { st with projects := c, dirty := true }

def State.log (st : State) (t : Traffic) : State := { st with traffic := st.traffic ++ [t] }

def State.load (st : State) (r : Response) : State :=
  match loadProjectsFromBackend r with
  | some remote => (st.log (.loaded remote)).setProjects (.loaded remote)
  | none => st

/-- `saveProjectsToBackend`: the request goes out; what comes back only sets a text. -/
def State.save (st : State) (c : Copy) : State := st.log (.put c)

def State.rollback (st : State) (projectId : String) : State :=
  st.setProjects (st.projects.edit (.removeProject projectId))

def step (st : State) : Label → Option State
  | .bootstrap r =>
    if st.bootstrapped then none
    else some { st.load r with bootstrapped := true, dirty := true }
  | .reload r => some (st.load r)
  | .edit e => some (st.setProjects (st.projects.edit e))
  | .createTemplate projectId name =>
    let optimistic := st.projects.edit (.createTemplate projectId name)
    let st := { st with creations := st.creations ++ [(projectId, Stage.seeding)] }
    some ((st.setProjects optimistic).save optimistic)
  | .seeded i ok =>
    match st.creations[i]? with
    | some (projectId, .seeding) =>
      if ok then some { st with creations := st.creations.set i (projectId, .provisioning) }
      else some ({ st with creations := st.creations.eraseIdx i }.rollback projectId)
    | _ => none
  | .provisioned i ok hasTask =>
    match st.creations[i]? with
    | some (projectId, .provisioning) =>
      if !hasTask && !ok then
        some ({ st with creations := st.creations.eraseIdx i }.rollback projectId)
      else if ok then some { st with creations := st.creations.set i (projectId, .reloading) }
      else some { st with creations := st.creations.eraseIdx i }
    | _ => none
  | .created i r =>
    match st.creations[i]? with
    | some (_, .reloading) => some ({ st with creations := st.creations.eraseIdx i }.load r)
    | _ => none
  | .effect =>
    if st.dirty then
      some { st with dirty := false, timer := if st.bootstrapped then some st.projects else none }
    else none
  | .timeout =>
    match st.timer with
    | some c => some ({ st with timer := none }.save c)
    | none => none

def machine : Machine State Label where
  init := ⟨⟨[], none, []⟩, false, false, none, [], []⟩
  step

theorem snoc_split {α : Type} {xs pre post : List α} {x y : α}
    (h : xs ++ [x] = pre ++ y :: post) :
    (pre = xs ∧ y = x ∧ post = []) ∨ ∃ init, post = init ++ [x] ∧ xs = pre ++ y :: init := by
  rcases List.eq_nil_or_concat post with rfl | ⟨init, last, rfl⟩
  · obtain ⟨hpre, hlast⟩ := List.append_inj' h rfl
    exact .inl ⟨hpre.symm, (List.singleton_inj.mp hlast).symm, rfl⟩
  · rw [List.concat_eq_append, ← List.cons_append, ← List.append_assoc] at h
    obtain ⟨hxs, hlast⟩ := List.append_inj' h rfl
    refine .inr ⟨init, ?_, hxs⟩
    rw [List.concat_eq_append, List.singleton_inj.mp hlast]

/-! What a step can do to the lists and to the traffic. -/

def Label.Quiet : Label → Prop
  | createTemplate _ _ | timeout => False
  | _ => True

/-- A step leaves the lists alone, loads, edits, saves at once or saves by the timer. -/
inductive Move (st t : State) : Label → Prop where
  | idle {a : Label} (quiet : a.Quiet) (projects : t.projects = st.projects)
      (timer : t.timer = st.timer) (traffic : t.traffic = st.traffic)
      (ready : t.bootstrapped = true → st.bootstrapped = true ∨
        ∃ r, a = .bootstrap r ∧ loadProjectsFromBackend r = none) : Move st t a
  | load {a : Label} (quiet : a.Quiet) (remote : List Project)
      (projects : t.projects = .loaded remote) (timer : t.timer = st.timer)
      (traffic : t.traffic = st.traffic ++ [.loaded remote]) : Move st t a
  | edit {a : Label} (quiet : a.Quiet) (e : Edit) (projects : t.projects = st.projects.edit e)
      (timer : t.timer = st.timer) (traffic : t.traffic = st.traffic)
      (ready : t.bootstrapped = st.bootstrapped) : Move st t a
  | create (projectId name : String)
      (projects : t.projects = st.projects.edit (.createTemplate projectId name))
      (timer : t.timer = st.timer) (traffic : t.traffic = st.traffic ++ [.put t.projects])
      (ready : t.bootstrapped = st.bootstrapped) : Move st t (.createTemplate projectId name)
  | effect (projects : t.projects = st.projects)
      (timer : t.timer = if st.bootstrapped then some st.projects else none)
      (traffic : t.traffic = st.traffic) (ready : t.bootstrapped = st.bootstrapped) :
      Move st t .effect
  | timeout (c : Copy) (was : st.timer = some c) (projects : t.projects = st.projects)
      (timer : t.timer = none) (traffic : t.traffic = st.traffic ++ [.put c])
      (ready : t.bootstrapped = st.bootstrapped) : Move st t .timeout

theorem load_cases (st : State) (r : Response) :
    (loadProjectsFromBackend r = none ∧ st.load r = st) ∨
      ∃ remote, loadProjectsFromBackend r = some remote ∧
        st.load r = (st.log (.loaded remote)).setProjects (.loaded remote) := by
  rw [State.load]
  cases h : loadProjectsFromBackend r with
  | none => exact .inl ⟨rfl, rfl⟩
  | some remote => exact .inr ⟨remote, rfl, rfl⟩

theorem step_cases {st t : State} {a : Label} (h : step st a = some t) : Move st t a := by
  cases a with
  | bootstrap r =>
    simp only [step] at h
    split at h
    · cases h
    cases h
    obtain ⟨hnone, hload⟩ | ⟨remote, -, hload⟩ := load_cases st r
    · rw [hload]
      exact .idle trivial rfl rfl rfl fun _ => .inr ⟨r, rfl, hnone⟩
    · rw [hload]
      exact .load trivial remote rfl rfl rfl
  | reload r =>
    cases h
    obtain ⟨-, hload⟩ | ⟨remote, -, hload⟩ := load_cases st r
    · rw [hload]
      exact .idle trivial rfl rfl rfl .inl
    · rw [hload]
      exact .load trivial remote rfl rfl rfl
  | edit e =>
    cases h
    exact .edit trivial e rfl rfl rfl rfl
  | createTemplate projectId name =>
    cases h
    exact .create projectId name rfl rfl rfl rfl
  | seeded i ok =>
    simp only [step] at h
    split at h
    · split at h
      · cases h
        exact .idle trivial rfl rfl rfl .inl
      · cases h
        exact .edit trivial _ rfl rfl rfl rfl
    · cases h
  | provisioned i ok hasTask =>
    simp only [step] at h
    split at h
    · split at h
      · cases h
        exact .edit trivial _ rfl rfl rfl rfl
      split at h
      · cases h
        exact .idle trivial rfl rfl rfl .inl
      · cases h
        exact .idle trivial rfl rfl rfl .inl
    · cases h
  | created i r =>
    simp only [step] at h
    split at h
    · cases h
      obtain ⟨-, hload⟩ | ⟨remote, -, hload⟩ :=
        load_cases { st with creations := st.creations.eraseIdx i } r
      · rw [hload]
        exact .idle trivial rfl rfl rfl .inl
      · rw [hload]
        exact .load trivial remote rfl rfl rfl
    · cases h
  | effect =>
    simp only [step] at h
    split at h
    · cases h
      exact .effect rfl rfl rfl rfl
    · cases h
  | timeout =>
    simp only [step] at h
    split at h
    next c hc =>
      cases h
      exact .timeout c hc rfl rfl rfl rfl
    · cases h

end LearnPg.Frontend.App
