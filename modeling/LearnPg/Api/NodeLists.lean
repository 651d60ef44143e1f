import LearnPg.Api.Crud
import LearnPg.Api.Nodes
import LearnPg.Workspace.AtRest
import LearnPg.Workspace.Edits
import LearnPg.Workspace.Writes

/-! The nodes of the workspace as one list, in the order of the loops over them, and
which part of it an edit replaces by what. -/
namespace LearnPg.Api

open Workspace.Data Workspace.Secrets Workspace.Store Workspace.Places Workspace.Edits
  Workspace.Writes Workspace.AtRest

def Replaces {α : Type} (old new xs ys : List α) : Prop :=
  ∃ pre post, xs = pre ++ (old ++ post) ∧ ys = pre ++ (new ++ post)

section Lists

variable {α β ε : Type} {old new xs ys : List β}

theorem Replaces.within {xs' ys' : List β} (h : Replaces old new xs ys)
    (h' : Replaces xs ys xs' ys') : Replaces old new xs' ys' := by
  obtain ⟨pre, post, rfl, rfl⟩ := h
  obtain ⟨pre', post', rfl, rfl⟩ := h'
  exact ⟨pre' ++ pre, post ++ post', by simp, by simp⟩

theorem Replaces.mem (h : Replaces old new xs ys) {y : β} (hy : y ∈ ys) : y ∈ new ∨ y ∈ xs := by
  obtain ⟨pre, post, rfl, rfl⟩ := h
  simp only [List.mem_append] at hy ⊢
  tauto

theorem Replaces.mem_old (h : Replaces old new xs ys) {x : β} (hx : x ∈ old) : x ∈ xs := by
  obtain ⟨pre, post, rfl, rfl⟩ := h
  simp [hx]

theorem Replaces.countP (h : Replaces old new xs ys) (test : β → Bool) :
    ys.countP test + old.countP test = xs.countP test + new.countP test := by
  obtain ⟨pre, post, rfl, rfl⟩ := h
  simp only [List.countP_append]
  omega

theorem editFirst_replaces {f : α → Option (Except ε (List α))} (g : α → List β) {xs ys : List α}
    (h : editFirst f xs = some (.ok ys)) :
    ∃ x zs, f x = some (.ok zs) ∧ Replaces (g x) (zs.flatMap g) (xs.flatMap g) (ys.flatMap g) := by
  obtain ⟨pre, x, post, zs, rfl, -, hx, rfl⟩ := editFirst_ok h
  refine ⟨x, zs, hx, pre.flatMap g, post.flatMap g, ?_, ?_⟩
  · rw [List.flatMap_append, List.flatMap_cons]
  · rw [List.flatMap_append, List.flatMap_append]

theorem editById_replaces {key : α → String} {id : String} {f : α → Except ε (List α)}
    {missing : ε} (g : α → List β) {xs ys : Slice α}
    (h : editSlice (fun x => if key x = id then some (f x) else none) missing xs = .ok ys) :
    ∃ x zs, xs.items.find? (key · = id) = some x ∧ f x = .ok zs ∧
      Replaces (g x) (zs.flatMap g) (xs.items.flatMap g) (ys.items.flatMap g) := by
  obtain ⟨pre, x, post, zs, hitems, hpre, hid, hzs, rfl⟩ := editById_ok h
  refine ⟨x, zs, ?_, hzs, pre.flatMap g, post.flatMap g, ?_, ?_⟩
  · rw [hitems, List.find?_append, List.find?_eq_none.mpr (by simpa using hpre),
      List.find?_cons_of_pos (by simpa using hid)]
    rfl
  · rw [hitems, List.flatMap_append, List.flatMap_cons]
  · rw [items_of, List.flatMap_append, List.flatMap_append]

end Lists

section Edits

variable {projects next : Slice Project} {projectID clusterID nodeID : String}

theorem editNode_replaces {f : Node → Except String (List Node)} {c d : Cluster}
    (h : editNode nodeID f c = .ok d) :
    ∃ n ns, c.nodes.items.find? (·.id = nodeID) = some n ∧ f n = .ok ns ∧
      Replaces [n] ns c.nodes.items d.nodes.items := by
  obtain ⟨nodes, hnodes, rfl⟩ := editNode_ok h
  obtain ⟨n, ns, hn, hns, hreplaces⟩ := editById_replaces (fun n => [n]) hnodes
  simp only [List.flatMap_singleton'] at hreplaces
  exact ⟨n, ns, hn, hns, hreplaces⟩

theorem editCluster_replaces {f : Cluster → Except String (List Cluster)} {p q : Project}
    (h : editCluster clusterID f p = .ok q) :
    ∃ c cs, p.clusters.items.find? (·.id = clusterID) = some c ∧ f c = .ok cs ∧
      Replaces c.nodes.items (cs.flatMap (·.nodes.items)) (projectNodes p) (projectNodes q) := by
  obtain ⟨clusters, hclusters, rfl⟩ := editCluster_ok h
  exact editById_replaces (·.nodes.items) hclusters

theorem editProject_replaces {f : Project → Except String (List Project)}
    (h : editProject projectID f projects = .ok next) :
    ∃ p ps, projectByID projects projectID = some p ∧ f p = .ok ps ∧
      Replaces (projectNodes p) (ps.flatMap projectNodes) (allNodes projects) (allNodes next) :=
  editById_replaces projectNodes h

theorem editClusters_replaces {f : Cluster → Except String (List Cluster)}
    (h : editProject projectID (patched (editCluster clusterID f)) projects = .ok next) :
    ∃ c cs, clusterByIDs projects projectID clusterID = some c ∧ f c = .ok cs ∧
      Replaces c.nodes.items (cs.flatMap (·.nodes.items)) (allNodes projects) (allNodes next) := by
  obtain ⟨p, ps, hp, hps, hprojects⟩ := editProject_replaces h
  obtain ⟨q, hq, rfl⟩ := patched_ok hps
  obtain ⟨c, cs, hc, hcs, hclusters⟩ := editCluster_replaces hq
  refine ⟨c, cs, ?_, hcs, hclusters.within ?_⟩
  · unfold clusterByIDs
    rw [hp]
    exact hc
  · rw [List.flatMap_cons, List.flatMap_nil, List.append_nil] at hprojects
    exact hprojects

theorem editNodes_replaces {f : Node → Except String (List Node)}
    (h : editProject projectID (patched (editCluster clusterID (patched (editNode nodeID f))))
      projects = .ok next) :
    ∃ n ns, nodeByIDs projects projectID clusterID nodeID = some n ∧ f n = .ok ns ∧
      Replaces [n] ns (allNodes projects) (allNodes next) := by
  obtain ⟨c, cs, hc, hcs, hclusters⟩ := editClusters_replaces h
  obtain ⟨d, hd, rfl⟩ := patched_ok hcs
  obtain ⟨n, ns, hn, hns, hnodes⟩ := editNode_replaces hd
  refine ⟨n, ns, ?_, hns, hnodes.within ?_⟩
  · unfold nodeByIDs
    rw [hc]
    exact hn
  · rw [List.flatMap_cons, List.flatMap_nil, List.append_nil] at hclusters
    exact hclusters

theorem nodeByIDs_id {n : Node} (h : nodeByIDs projects projectID clusterID nodeID = some n) :
    n.id = nodeID := by
  obtain ⟨c, -, hn⟩ := Option.bind_eq_some_iff.mp h
  simpa using List.find?_some hn

theorem updateNodeStatus_replaces {status lastError : String}
    (h : updateNodeStatus nodeID status lastError projects = .ok next) :
    ∃ n, n.id = nodeID ∧ Replaces [n] [{ n with connectionStatus := status, lastError }]
      (allNodes projects) (allNodes next) := by
  unfold updateNodeStatus editSlice at h
  split at h
  · cases h
  next r hr =>
    cases r with
    | error e => cases h
    | ok items =>
      cases h
      obtain ⟨p, ps, hp, hprojects⟩ := editFirst_replaces projectNodes hr
      obtain ⟨r, hr, heq⟩ := Option.map_eq_some_iff.mp hp
      cases r with
      | error e => cases heq
      | ok clusters =>
        cases heq
        obtain ⟨c, cs, hc, hclusters⟩ := editFirst_replaces (·.nodes.items) hr
        obtain ⟨r, hr, heq⟩ := Option.map_eq_some_iff.mp hc
        cases r with
        | error e => cases heq
        | ok nodes =>
          cases heq
          obtain ⟨n, ns, hn, hnodes⟩ := editFirst_replaces (fun n => [n]) hr
          split at hn
          case isFalse => cases hn
          next hid =>
            cases hn
            simp only [List.flatMap_singleton', List.flatMap_cons, List.flatMap_nil,
              List.append_nil] at hprojects hclusters hnodes
            exact ⟨n, hid, (hnodes.within hclusters).within hprojects⟩

end Edits

section View

variable {s : WorkspaceStore} {w : World} {file file' : File} {projects : Slice Project}
  {f : Node → Node}

theorem projectNodes_map (p : Project) :
    projectNodes (mapProject f p) = (projectNodes p).map f := by
  unfold projectNodes mapProject
  rw [items_map, List.flatMap_map, List.map_flatMap]
  congr 1
  funext c
  exact items_map f c.nodes

theorem mapCluster_self {c : Cluster} (h : ∀ n ∈ c.nodes.items, f n = n) : mapCluster f c = c := by
  have hnodes : c.nodes.map f = c.nodes := by
    cases hc : c.nodes with
    | nil => rfl
    | of nodes =>
      rw [hc] at h
      exact congrArg Slice.of ((List.map_congr_left h).trans nodes.map_id)
  unfold mapCluster
  rw [hnodes]

theorem mapProject_self {p : Project} (h : ∀ n ∈ projectNodes p, f n = n) : mapProject f p = p := by
  have hcluster : ∀ c ∈ p.clusters.items, mapCluster f c = c := fun c hc =>
    mapCluster_self fun n hn => h n (List.mem_flatMap.mpr ⟨c, hc, hn⟩)
  have hclusters : p.clusters.map (mapCluster f) = p.clusters := by
    cases hp : p.clusters with
    | nil => rfl
    | of clusters =>
      rw [hp] at hcluster
      exact congrArg Slice.of ((List.map_congr_left hcluster).trans clusters.map_id)
  unfold mapProject
  rw [hclusters]

theorem mapNodes_fixed (h : ∀ n ∈ allNodes projects, f n = n) :
    mapNodes f projects = projects := by
  have hproject : ∀ p ∈ projects.items, mapProject f p = p := fun p hp =>
    mapProject_self fun n hn => h n (List.mem_flatMap.mpr ⟨p, hp, hn⟩)
  cases projects with
  | nil => rfl
  | of ps => exact congrArg Slice.of ((List.map_congr_left hproject).trans ps.map_id)

theorem allNodes_map : allNodes (mapNodes f projects) = (allNodes projects).map f := by
  change (projects.map (mapProject f)).items.flatMap projectNodes =
    (projects.items.flatMap projectNodes).map f
  rw [items_map, List.flatMap_map, List.map_flatMap]
  congr 1
  funext p
  exact projectNodes_map p

theorem allNodes_normalize : allNodes (normalizeProjects projects) = allNodes projects := by
  change (projects.items.map normalizeProject).flatMap projectNodes =
    projects.items.flatMap projectNodes
  rw [List.flatMap_map]
  congr 1
  funext p
  change (p.clusters.items.map normalizeCluster).flatMap (·.nodes.items) =
    p.clusters.items.flatMap (·.nodes.items)
  rw [List.flatMap_map]
  rfl

def viewOf (s : WorkspaceStore) (file : File) : List Node :=
  (allNodes (storedProjects file)).map (Workspace.Places.readNode s)

theorem view_of_read (h : readAll s w file = .ok projects) : allNodes projects = viewOf s file := by
  obtain ⟨env, henv, rfl⟩ := read_of_readAll h
  rw [projects_of_read henv, allNodes_map, allNodes_normalize]
  rfl

theorem view_of_written
    (hdecode : ∀ bytes, s.crypto.decodeString (s.crypto.encodeToString bytes) = .ok bytes)
    (hopen : ∀ key, s.encKey = some key → ∀ (nonce : Nonce) plain,
      s.crypto.gcmOpen key nonce.val (s.crypto.gcmSeal key nonce.val plain) = .ok plain)
    (h : OnNodes (WrittenAs s) projects (storedProjects file')) :
    viewOf s file' = (allNodes projects).map (Workspace.Places.readNode s) := by
  unfold viewOf
  rw [← allNodes_map, mapNodes_written hdecode hopen h, allNodes_map]

/-- A write that changes the nodes that were read in one part, and is read again. -/
def Rewrites (s : WorkspaceStore) (old new : List Node) (file file' : File) : Prop :=
  ∃ nodes, Replaces old new (viewOf s file) nodes ∧
    viewOf s file' = nodes.map (Workspace.Places.readNode s)

section Written

variable {projectID clusterID nodeID : String}
  (hdecode : ∀ bytes, s.crypto.decodeString (s.crypto.encodeToString bytes) = .ok bytes)
  (hopen : ∀ key, s.encKey = some key → ∀ (nonce : Nonce) plain,
    s.crypto.gcmOpen key nonce.val (s.crypto.gcmSeal key nonce.val plain) = .ok plain)

include hdecode hopen

theorem view_onProjects {edit : Slice Project → Except String (Slice Project)}
    (h : (locked s w (onProjects edit)).exec file = .ok file') :
    ∃ projects next, readAll s w file = .ok projects ∧ edit projects = .ok next ∧
      allNodes projects = viewOf s file ∧
      viewOf s file' = (allNodes next).map (Workspace.Places.readNode s) := by
  obtain ⟨-, projects, hread⟩ := exec_read h
  obtain ⟨next, hnext, hwritten⟩ := exec_onProjects h hread
  exact ⟨projects, next, hread, hnext, view_of_read hread,
    view_of_written hdecode hopen hwritten⟩

theorem updateNode_rewrites {patch : Node → Node}
    (h : (txn s w (.updateNodeLocked projectID clusterID nodeID fun n => .ok (patch n))).exec file =
      .ok file') :
    ∃ n, n.id = nodeID ∧ Rewrites s [n] [patch n] file file' := by
  obtain ⟨projects, next, -, hnext, hview, hview'⟩ := view_onProjects hdecode hopen h
  obtain ⟨n, ns, hn, hns, hreplaces⟩ := editNodes_replaces hnext
  cases hns
  rw [hview] at hreplaces
  exact ⟨n, nodeByIDs_id hn, allNodes next, hreplaces, hview'⟩

theorem deleteNode_rewrites
    (h : (txn s w (.deleteNodeLocked projectID clusterID nodeID)).exec file = .ok file') :
    ∃ n, n.id = nodeID ∧ Rewrites s [n] [] file file' := by
  obtain ⟨projects, next, -, hnext, hview, hview'⟩ := view_onProjects hdecode hopen h
  obtain ⟨n, ns, hn, hns, hreplaces⟩ := editNodes_replaces hnext
  cases hns
  rw [hview] at hreplaces
  exact ⟨n, nodeByIDs_id hn, allNodes next, hreplaces, hview'⟩

theorem deleteCluster_rewrites
    (h : (txn s w (.deleteClusterLocked projectID clusterID)).exec file = .ok file') :
    ∃ projects c, readAll s w file = .ok projects ∧
      clusterByIDs projects projectID clusterID = some c ∧
      Rewrites s c.nodes.items [] file file' := by
  obtain ⟨projects, next, hread, hnext, hview, hview'⟩ := view_onProjects hdecode hopen h
  obtain ⟨c, cs, hc, hcs, hreplaces⟩ := editClusters_replaces hnext
  cases hcs
  rw [hview] at hreplaces
  exact ⟨projects, c, hread, hc, allNodes next, hreplaces, hview'⟩

theorem updateNodeStatus_rewrites {status lastError : String}
    (h : (txn s w (.updateNodeStatus nodeID status lastError)).exec file = .ok file') :
    ∃ n, n.id = nodeID ∧
      Rewrites s [n] [{ n with connectionStatus := status, lastError }] file file' := by
  obtain ⟨projects, next, -, hnext, hview, hview'⟩ := view_onProjects hdecode hopen h
  obtain ⟨n, hid, hreplaces⟩ := updateNodeStatus_replaces hnext
  rw [hview] at hreplaces
  exact ⟨n, hid, allNodes next, hreplaces, hview'⟩

theorem appendNode_rewrites {node : Node}
    (h : (txn s w (.appendNode projectID clusterID node)).exec file = .ok file') :
    Rewrites s [] [node] file file' := by
  obtain ⟨plan, hplan, hwritten⟩ := exec_split h
  unfold appendNode at hplan
  split at hplan
  · cases hplan
  obtain ⟨projects, hread, hnext⟩ := bind_ok.mp hplan
  obtain ⟨c, cs, -, hcs, hreplaces⟩ := editClusters_replaces hnext
  obtain ⟨d, hd, rfl⟩ := patched_ok hcs
  split at hd
  · cases hd
  cases hd
  have hwithin : Replaces [] [node] c.nodes.items (c.nodes.items ++ [node]) :=
    ⟨c.nodes.items, [], by simp, by simp⟩
  rw [List.flatMap_cons, List.flatMap_nil, List.append_nil, view_of_read hread] at hreplaces
  refine ⟨allNodes plan, hwithin.within hreplaces, ?_⟩
  rw [view_of_written hdecode hopen hwritten, allNodes_normalize]

end Written

end View

end LearnPg.Api
