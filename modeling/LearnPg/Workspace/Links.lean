import LearnPg.Workspace.Edits
import LearnPg.Workspace.Writes

/-! The clusters that a project's components are linked to, by their ids, and which
operations of the store leave every link with a cluster of the project. -/
namespace LearnPg.Workspace.Links

open Data Secrets Store Places Edits Writes

def ownClusters (p : Project) : List String := p.clusters.items.map (·.id)

def links (p : Project) : List String := p.components.items.flatMap (·.linkedClusterIDs.items)

def Resolves (p : Project) : Prop := ∀ id ∈ links p, id ∈ ownClusters p

def LinksResolve (projects : List Project) : Prop := ∀ p ∈ projects, Resolves p

instance (p : Project) : Decidable (Resolves p) :=
  inferInstanceAs (Decidable (∀ id ∈ links p, id ∈ ownClusters p))

instance (projects : List Project) : Decidable (LinksResolve projects) :=
  inferInstanceAs (Decidable (∀ p ∈ projects, Resolves p))

/-- No link needs the first cluster with the id. -/
def Spares (p : Project) (clusterID : String) : Prop :=
  clusterID ∈ links p → 2 ≤ (ownClusters p).count clusterID

def readProjects (s : WorkspaceStore) (file : File) : Slice Project :=
  mapNodes (readNode s) (normalizeProjects (storedProjects file))

section

variable {s : WorkspaceStore} {w : World} {file file' : File} {env : Envelope}
  {projects written next : Slice Project} {p q : Project} {projectID clusterID : String}

theorem linksResolve_map {g : Project → Project} (ps : List Project)
    (hg : ∀ p, ownClusters (g p) = ownClusters p ∧ links (g p) = links p) :
    LinksResolve (ps.map g) ↔ LinksResolve ps := by
  simp [LinksResolve, Resolves, hg]

theorem linksResolve_mapNodes (f : Node → Node) :
    LinksResolve (mapNodes f projects).items ↔ LinksResolve projects.items := by
  rw [mapNodes, items_map]
  apply linksResolve_map
  intro p
  simp [ownClusters, links, mapProject, mapCluster]

theorem linksResolve_normalize :
    LinksResolve (normalizeProjects projects).items ↔ LinksResolve projects.items := by
  rw [normalizeProjects, items_of]
  apply linksResolve_map
  intro p
  simp [ownClusters, links, normalizeProject, normalizeCluster, normalizeComponent,
    List.flatMap_map]

theorem linksResolve_written (h : OnNodes (WrittenAs s) projects written) :
    LinksResolve written.items ↔ LinksResolve projects.items := by
  -- only the passwords differ
  let blind (n : Node) : Node := { n with password := "" }
  have hblind (n n' : Node) (hn : WrittenAs s n n') : blind n' = blind n := by
    obtain ⟨password, rfl⟩ := writtenAs_same hn
    rfl
  rw [← linksResolve_mapNodes blind, h.mapNodes_eq hblind, linksResolve_mapNodes]

theorem linksResolve_readProjects :
    LinksResolve (readProjects s file).items ↔ LinksResolve (storedProjects file).items := by
  rw [readProjects, linksResolve_mapNodes, linksResolve_normalize]

theorem linksResolve_write (h : writeEnvelopeLocked s w env = .ok file') :
    LinksResolve (storedProjects file').items ↔ LinksResolve env.projects.items :=
  linksResolve_written (projects_of_write h)

theorem linksResolve_writeAll (h : writeAll s w projects file = .ok file') :
    LinksResolve (storedProjects file').items ↔ LinksResolve projects.items := by
  rw [linksResolve_write h, linksResolve_normalize]

theorem readAll_eq (h : readAll s w file = .ok projects) : projects = readProjects s file := by
  obtain ⟨env, henv, rfl⟩ := read_of_readAll h
  exact projects_of_read henv

theorem onProjects_exec {edit : Slice Project → Except String (Slice Project)}
    (h : (locked s w (onProjects edit)).exec file = .ok file') :
    ∃ next, edit (readProjects s file) = .ok next ∧
      (LinksResolve (storedProjects file').items ↔ LinksResolve next.items) := by
  obtain ⟨env, env', hread, hnext, hwrite⟩ := locked_ok h
  obtain ⟨hedit, -⟩ := onProjects_ok hnext
  rw [projects_of_read hread] at hedit
  exact ⟨_, hedit, linksResolve_write hwrite⟩

theorem editProject_resolves {patch : Project → Except String Project}
    (h : editProject projectID (patched patch) projects = .ok next)
    (hbefore : LinksResolve projects.items) :
    ∃ p q, projects.items.find? (·.id = projectID) = some p ∧ patch p = .ok q ∧ Resolves p ∧
      (LinksResolve next.items ↔ Resolves q) := by
  obtain ⟨pre, p, post, zs, hitems, hpre, hid, hzs, rfl⟩ := editById_ok h
  obtain ⟨q, hq, rfl⟩ := patched_ok hzs
  have hfind : projects.items.find? (·.id = projectID) = some p := by
    rw [hitems, List.find?_eq_some_iff_append]
    exact ⟨by simp [hid], pre, post, rfl, by simpa using hpre⟩
  rw [hitems] at hbefore
  simp only [LinksResolve, List.forall_mem_append, List.forall_mem_cons] at hbefore
  refine ⟨p, q, hfind, hq, hbefore.2.1, ?_⟩
  rw [items_of, List.singleton_append]
  simp only [LinksResolve, List.forall_mem_append, List.forall_mem_cons]
  exact ⟨fun h => h.2.1, fun hq => ⟨hbefore.1, hq, hbefore.2.2⟩⟩

theorem deleteCluster_resolves (h : editCluster clusterID deleted p = .ok q) (hp : Resolves p) :
    Resolves q ↔ Spares p clusterID := by
  obtain ⟨clusters, hclusters, rfl⟩ := editCluster_ok h
  obtain ⟨pre, c, post, zs, hitems, hpre, hid, hzs, rfl⟩ := editById_ok hclusters
  cases hzs
  have hnone : clusterID ∉ pre.map (·.id) := by
    simpa using hpre
  have hcount : (ownClusters p).count clusterID = 1 + (post.map (·.id)).count clusterID := by
    simp [ownClusters, hitems, hid, List.count_eq_zero.mpr hnone, Nat.add_comm]
  unfold Resolves Spares at *
  rw [hcount]
  simp only [ownClusters, hitems, List.map_append, List.map_cons, List.mem_append, List.mem_cons,
    hid, items_of, List.nil_append] at hp ⊢
  have hpost : clusterID ∈ post.map (·.id) ↔ 2 ≤ 1 + (post.map (·.id)).count clusterID := by
    rw [← List.count_pos_iff]
    omega
  constructor
  · intro hq hlink
    exact hpost.mp ((hq _ hlink).resolve_left hnone)
  · intro hspares id hlink
    obtain hmem | rfl | hmem := hp id hlink
    · exact .inl hmem
    · exact .inr (hpost.mpr (hspares hlink))
    · exact .inr hmem

theorem deleteClusterLocked_resolves
    (h : (txn s w (.deleteClusterLocked projectID clusterID)).exec file = .ok file')
    (hbefore : LinksResolve (storedProjects file).items) :
    LinksResolve (storedProjects file').items ↔
      ∀ p, (readProjects s file).items.find? (·.id = projectID) = some p →
        Spares p clusterID := by
  obtain ⟨next, hnext, hafter⟩ := onProjects_exec h
  rw [← linksResolve_readProjects (s := s)] at hbefore
  obtain ⟨p, q, hfind, hq, hp, hresolves⟩ := editProject_resolves hnext hbefore
  rw [hafter, hresolves, deleteCluster_resolves hq hp, hfind]
  simp

theorem updateProjectLocked_resolves {patch : Project → Except String Project}
    (h : (txn s w (.updateProjectLocked projectID patch)).exec file = .ok file')
    (hpatch : ∀ p q, patch p = .ok q → q.clusters = p.clusters ∧ q.components = p.components)
    (hbefore : LinksResolve (storedProjects file).items) :
    LinksResolve (storedProjects file').items := by
  obtain ⟨next, hnext, hafter⟩ := onProjects_exec h
  rw [← linksResolve_readProjects (s := s)] at hbefore
  obtain ⟨p, q, -, hq, hp, hresolves⟩ := editProject_resolves hnext hbefore
  obtain ⟨hclusters, hcomponents⟩ := hpatch p q hq
  rw [hafter, hresolves]
  simpa [Resolves, links, ownClusters, hclusters, hcomponents] using hp

theorem appendCluster_resolves {cluster : Cluster}
    (h : (txn s w (.appendCluster projectID cluster)).exec file = .ok file')
    (hbefore : LinksResolve (storedProjects file).items) :
    LinksResolve (storedProjects file').items := by
  obtain ⟨next, hplan, hwrite⟩ := bind_ok.mp h
  unfold Store.appendCluster at hplan
  split at hplan
  · cases hplan
  obtain ⟨items, hitems, hplan⟩ := bind_ok.mp hplan
  rw [readAll_eq hitems] at hplan
  rw [← linksResolve_readProjects (s := s)] at hbefore
  obtain ⟨p, q, -, hq, hp, hresolves⟩ := editProject_resolves hplan hbefore
  rw [linksResolve_writeAll hwrite, hresolves]
  split at hq
  · cases hq
  cases hq
  intro id hlink
  have hmem := hp id hlink
  unfold ownClusters Slice.append
  rw [items_of, List.map_append]
  exact List.mem_append_left _ hmem

end

end LearnPg.Workspace.Links
