import LearnPg.Workspace.Store

/-! One page of the frontend and the backend it loads its projects from and saves
them to: the page replaces the whole list, 250 ms after its last change, while
requests to the backend append clusters and nodes in two sections each. -/
namespace LearnPg.Frontend

open Workspace.Data Workspace.Store LearnPg.Basis.Runs LearnPg.Basis

/-- A request that appends: a provisioned cluster, or an imported node. -/
inductive Append where
  | cluster (projectID : String) (cluster : Cluster)
  | node (projectID clusterID : String) (node : Node)

def Append.request : Append → Request
  | .cluster projectID c => .appendCluster projectID c
  | .node projectID clusterID n => .appendNode projectID clusterID n

/-- A cluster or a node by its ids. -/
inductive Item where
  | cluster (projectID clusterID : String)
  | node (projectID clusterID nodeID : String)

def Append.item : Append → Item
  | .cluster projectID c => .cluster projectID c.id
  | .node projectID clusterID n => .node projectID clusterID n.id

def ProjectHolds (p : Project) : Item → Prop
  | .cluster projectID clusterID => p.id = projectID ∧ ∃ c ∈ p.clusters.items, c.id = clusterID
  | .node projectID clusterID nodeID => p.id = projectID ∧ ∃ c ∈ p.clusters.items,
      c.id = clusterID ∧ ∃ n ∈ c.nodes.items, n.id = nodeID

def Holds (projects : Slice Project) (item : Item) : Prop :=
  ∃ p ∈ projects.items, ProjectHolds p item

/-- A list of projects in the frontend, and, for the statements only, the appends
that the backend had reported when it read what the list comes from. -/
structure Copy (ι : Type) where
  projects : Slice Project
  seen : Set ι

/-- `timer` is the list that the running timeout will save; `dirty` says that the
autosave effect has not run since the list or `bootstrapped` changed. -/
structure Page (ι : Type) where
  projects : Copy ι
  bootstrapped : Bool
  dirty : Bool
  timer : Option (Copy ι)

/-- `prepared` and `removed` are for the statements only: the appends reported when
an append read the file, and what the user has removed. -/
structure Session (ι : Type) where
  backend : Sections.State ι File (Slice Project) String
  page : Page ι
  responses : List (Copy ι)
  puts : List (Copy ι)
  prepared : ι → Set ι
  removed : Set Item

inductive Label (ι : Type) where
  | append (i : ι)
  | serveGet (w : World)
  | servePut (j : Nat) (w : World)
  | mounted (j : Option Nat)
  | reload (j : Nat)
  | edit (next : Slice Project)
  | effect
  | timeout
  | save
  | openPage

def migrateWorkspaceProjects (projects : Slice Project) : Slice Project :=
  normalizeProjects projects

def newPage {ι : Type} : Page ι := ⟨⟨.of [], ∅⟩, false, false, none⟩

section Steps

variable {ι : Type}

def Session.reported (st : Session ι) : Set ι := { i | st.backend.pc i = .succeeded }

def Page.setProjects (page : Page ι) (projects : Copy ι) : Page ι :=
  { page with projects, dirty := true }

def Page.autosave (page : Page ι) : Page ι :=
  { page with dirty := false, timer := if page.bootstrapped then some page.projects else none }

def Session.replaceFile (st : Session ι) (file : Except String File) : Session ι :=
  match file with
  | .ok file => { st with backend := { st.backend with shared := file } }
  | .error _ => st

variable [DecidableEq ι]

def ops (s : WorkspaceStore) (appends : ι → Append × World) :
    ι → Sections.Txn File (Slice Project) String :=
  fun i => txn s (appends i).2 (appends i).1.request

def step (s : WorkspaceStore) (appends : ι → Append × World) (st : Session ι) :
    Label ι → Option (Session ι)
  | .append i =>
    (Sections.step (ops s appends) st.backend i).map fun backend =>
      { st with backend, prepared := Function.update st.prepared i st.reported }
  | .serveGet w =>
    match readAll s w st.backend.shared with
    | .error _ => some st
    | .ok projects =>
      let response := ⟨migrateWorkspaceProjects projects, st.reported⟩
      some { st with responses := st.responses ++ [response] }
  | .servePut j w =>
    st.puts[j]?.map fun put =>
      { st with puts := st.puts.eraseIdx j }.replaceFile
        (writeAll s w put.projects st.backend.shared)
  | .mounted none =>
    if st.page.bootstrapped then none
    else some { st with page := { st.page with bootstrapped := true, dirty := true } }
  | .mounted (some j) =>
    if st.page.bootstrapped then none
    else st.responses[j]?.map fun response =>
      { st with
        responses := st.responses.eraseIdx j
        page := { st.page.setProjects response with bootstrapped := true } }
  | .reload j =>
    st.responses[j]?.map fun response =>
      { st with
        responses := st.responses.eraseIdx j
        page := st.page.setProjects response }
  | .edit next =>
    some { st with
      page := st.page.setProjects { st.page.projects with projects := next }
      removed := st.removed ∪
        { item | Holds st.page.projects.projects item ∧ ¬ Holds next item } }
  | .effect => if st.page.dirty then some { st with page := st.page.autosave } else none
  | .timeout =>
    st.page.timer.map fun projects =>
      { st with page := { st.page with timer := none }, puts := st.puts ++ [projects] }
  | .save => some { st with puts := st.puts ++ [st.page.projects] }
  | .openPage => some { st with page := newPage, responses := [] }

def session (s : WorkspaceStore) (appends : ι → Append × World) (file : File) :
    Machine (Session ι) (Label ι) :=
  ⟨⟨⟨file, fun _ => .waiting⟩, newPage, [], [], fun _ => ∅, ∅⟩, step s appends⟩

end Steps

end LearnPg.Frontend
