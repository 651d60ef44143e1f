import LearnPg.Workspace.Locality

/-! What the creation of a project leaves of the workspace. -/
namespace LearnPg.Api.Creation

open Workspace.Data Workspace.Store Workspace.Places Workspace.Erasure Workspace.Writes
  Workspace.Locality

/-- A cluster, a node or a component, with the ids of what it is in. -/
inductive Item where
  | cluster (projectID : String) (c : Cluster)
  | node (projectID clusterID : String) (n : Node)
  | component (projectID : String) (m : Component)
  deriving DecidableEq

def clusterItems (projectID : String) (c : Cluster) : List Item :=
  .cluster projectID c :: c.nodes.items.map (.node projectID c.id)

def projectItems (p : Project) : List Item :=
  p.clusters.items.flatMap (clusterItems p.id) ++ p.components.items.map (.component p.id)

def bare (n : Node) : Node := { n with password := "" }

/-- A project as it is read, but for the passwords. -/
def shown (p : Project) : Project := mapProject bare (normalizeProject p)

def items (ps : List Project) : List Item := ps.flatMap fun p => projectItems (shown p)

def fileItems (file : File) : List Item := items (storedProjects file).items

section

variable {p q : Project} {ps pre post : List Project}

theorem upsertItem_new (h : ∀ q ∈ ps, q.id ≠ p.id) : upsertItem p ps = ps ++ [p] := by
  induction ps with
  | nil => rfl
  | cons q ps ih =>
    simp only [List.forall_mem_cons] at h
    rw [upsertItem, if_neg h.1, ih h.2]
    rfl

theorem upsertItem_around (hpre : ∀ q ∈ pre, q.id ≠ p.id) (hq : q.id = p.id) :
    upsertItem p (pre ++ q :: post) = pre ++ p :: post := by
  induction pre with
  | nil => exact if_pos hq
  | cons first pre ih =>
    simp only [List.forall_mem_cons] at hpre
    rw [List.cons_append, upsertItem, if_neg hpre.1, ih hpre.2]
    rfl

theorem items_append (ps qs : List Project) : items (ps ++ qs) = items ps ++ items qs :=
  List.flatMap_append

theorem items_around : items (pre ++ q :: post) =
    items pre ++ (projectItems (shown q) ++ items post) := by
  rw [items_append]
  rfl

theorem items_map {g : Project → Project} (hg : ∀ p, shown (g p) = shown p) :
    items (ps.map g) = items ps := by
  unfold items
  simp only [List.flatMap_map, hg]

theorem projectItems_shown :
    projectItems (shown p) = [] ↔ p.clusters.items = [] ∧ p.components.items = [] := by
  simp [projectItems, clusterItems, shown, mapProject, normalizeProject]
  exact fun _ => List.eq_nil_iff_forall_not_mem.symm

theorem subperm_upsert_iff (hp : projectItems (shown p) = []) (ps : List Project) :
    (items ps).Subperm (items (upsertItem p ps)) ↔
      ∀ q, ps.find? (·.id = p.id) = some q → projectItems (shown q) = [] := by
  cases hfind : ps.find? (·.id = p.id) with
  | none =>
    have hnew : ∀ q ∈ ps, q.id ≠ p.id := by
      simpa using List.find?_eq_none.mp hfind
    rw [upsertItem_new hnew, items_append]
    exact iff_of_true (List.sublist_append_left _ _).subperm nofun
  | some q =>
    obtain ⟨hq, pre, post, rfl, hpre⟩ := List.find?_eq_some_iff_append.mp hfind
    rw [upsertItem_around (by simpa using hpre) (by simpa using hq), items_around, items_around,
      hp, List.nil_append]
    constructor
    · intro hkeeps q' hq'
      cases hq'
      have hlength := hkeeps.length_le
      simp only [List.length_append] at hlength
      apply List.length_eq_zero_iff.mp
      omega
    · intro hempty
      rw [hempty q rfl]
      exact (List.Sublist.refl _).subperm

end

section

variable {s : WorkspaceStore} {w : World} {file file' : File} {projects : Slice Project}

theorem items_eq (projects : Slice Project) : items projects.items =
    (mapNodes bare (normalizeProjects projects)).items.flatMap projectItems := by
  simp [items, shown, mapNodes, normalizeProjects, List.flatMap_map]

def readProject (s : WorkspaceStore) (p : Project) : Project :=
  mapProject (readNode s) (normalizeProject p)

theorem shown_read (s : WorkspaceStore) (p : Project) : shown (readProject s p) = shown p := by
  have hbare (n : Node) : bare (readNode s n) = bare n := by
    obtain ⟨password, hsame⟩ : ∃ password, readNode s n = { n with password } := readNode_same n
    rw [hsame]
    rfl
  have hslice : mapNodes bare (normalizeProjects (mapNodes (readNode s)
      (normalizeProjects (.of [p])))) = mapNodes bare (normalizeProjects (.of [p])) := by
    rw [normalize_mapNodes, mapNodes_mapNodes, normalizeProjects_idem]
    simp only [hbare]
  simpa [mapNodes, normalizeProjects, shown, readProject] using hslice

theorem readAll_items (h : readAll s w file = .ok projects) :
    projects.items = (storedProjects file).items.map (readProject s) := by
  obtain ⟨env, henv, rfl⟩ := read_of_readAll h
  rw [projects_of_read henv]
  simp [mapNodes, normalizeProjects, readProject]

theorem written_items {plan : Slice Project}
    (h : OnNodes (WrittenAs s) (normalizeProjects plan) (storedProjects file')) :
    fileItems file' = items plan.items := by
  have hbare (n n' : Node) (hn : WrittenAs s n n') : bare n' = bare n := by
    obtain ⟨password, rfl⟩ := writtenAs_same hn
    rfl
  unfold fileItems
  rw [items_eq, items_eq, ← normalize_mapNodes, h.mapNodes_eq hbare, normalize_mapNodes,
    normalizeProjects_idem]

variable {req : ProjectCreateRequest} {body : Body}

/-- An accepted request has read the projects and written them with the new one. -/
theorem create_ok (h : (serveProjectCreate s w req file).2 = .ok body) :
    fileItems (serveProjectCreate s w req file).1 =
      items (upsertItem ⟨req.id, req.name, .of [], .of []⟩
        ((storedProjects file).items.map (readProject s))) := by
  unfold serveProjectCreate at h ⊢
  split
  next hid =>
    rw [if_pos hid] at h
    cases h
  next hid =>
    rw [if_neg hid] at h
    split
    next hname =>
      rw [if_pos hname] at h
      cases h
    next hname =>
      rw [if_neg hname] at h
      obtain ⟨file', hexec, -⟩ := store_ok h
      obtain ⟨plan, hplan, hwritten⟩ := exec_split hexec
      obtain ⟨projects, hread, hplan⟩ := bind_ok.mp hplan
      rw [if_neg hid] at hplan
      cases hplan
      unfold store
      dsimp only
      rw [hexec, written_items hwritten, items_of, readAll_items hread]

/-- Creation keeps every item exactly if it replaces no project, or one without any. -/
theorem creation_keeps_iff (h : (serveProjectCreate s w req file).2 = .ok body) :
    (fileItems file).Subperm (fileItems (serveProjectCreate s w req file).1) ↔
      ∀ p, projectByID (storedProjects file) req.id = some p →
        p.clusters.items = [] ∧ p.components.items = [] := by
  have hitems : items ((storedProjects file).items.map (readProject s)) = fileItems file :=
    items_map (shown_read s)
  have hcreated : projectItems (shown ⟨req.id, req.name, .of [], .of []⟩) = [] := rfl
  have hfind : ((storedProjects file).items.map (readProject s)).find? (·.id = req.id) =
      (projectByID (storedProjects file) req.id).map (readProject s) := by
    rw [List.find?_map]
    rfl
  rw [create_ok h, ← hitems, subperm_upsert_iff hcreated, hfind]
  simp only [Option.map_eq_some_iff, forall_exists_index, and_imp, forall_apply_eq_imp_iff₂,
    shown_read]
  exact forall₂_congr fun p _ => projectItems_shown

end

def shopWithCluster : File :=
  .envelope ⟨currentWorkspaceSchemaVersion,
    .of [⟨"p1", "shop", .of [⟨"c1", "main", "physical", 30, "", "", none, .of []⟩], .of []⟩],
    .nil⟩

theorem creation_keeps_other :
    (fileItems shopWithCluster).Subperm
      (fileItems (serveProjectCreate plainStore quiet ⟨"p2", "blog"⟩ shopWithCluster).1) := by
  have haccepted : (serveProjectCreate plainStore quiet ⟨"p2", "blog"⟩ shopWithCluster).2 =
      .ok (.project (maskProject ⟨"p2", "blog", .of [], .of []⟩)) := rfl
  exact (creation_keeps_iff haccepted).mpr nofun

/-- Creating the project once more takes its cluster away. -/
theorem creation_repeated :
    (serveProjectCreate plainStore quiet ⟨"p1", "shop"⟩ shopWithCluster).2 =
      .ok (.project (maskProject ⟨"p1", "shop", .of [], .of []⟩)) ∧
    ¬ (fileItems shopWithCluster).Subperm
      (fileItems (serveProjectCreate plainStore quiet ⟨"p1", "shop"⟩ shopWithCluster).1) := by
  refine ⟨rfl, fun h => ?_⟩
  have hlength := h.length_le
  revert hlength
  decide

end LearnPg.Api.Creation
