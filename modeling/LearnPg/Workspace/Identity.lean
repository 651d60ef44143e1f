import Mathlib.Data.List.Flatten
import LearnPg.Workspace.Edits
import LearnPg.Workspace.Hosts
import LearnPg.Workspace.Writes

/-! The ids in a workspace and what each operation of the store does to them: those
that it brings are added to those of what it leaves in place, none of which it looks
at. -/
namespace LearnPg.Workspace.Identity

open Data Store Places Hosts Edits Writes LearnPg.Basis.Sections

inductive Kind where
  | project | cluster | node | host
  deriving DecidableEq

abbrev Id := Kind × String

def nodeIds (n : Node) : List Id := [(.node, n.id)]

def clusterIds (c : Cluster) : List Id := (.cluster, c.id) :: c.nodes.items.flatMap nodeIds

def projectIds (p : Project) : List Id := (.project, p.id) :: p.clusters.items.flatMap clusterIds

def hostIds (h : Host) : List Id := [(.host, h.id)]

def projectsIds (projects : Slice Project) : List Id := projects.items.flatMap projectIds

def fileIds (file : File) : List Id :=
  projectsIds (storedProjects file) ++ (hostsOf file).flatMap hostIds

/-- The ids of one kind, those of clusters and nodes across all projects. -/
def idsOf (file : File) : Kind → List String
  | .project => (storedProjects file).items.map (·.id)
  | .cluster => (storedProjects file).items.flatMap (·.clusters.items.map (·.id))
  | .node => (storedProjects file).items.flatMap
    (·.clusters.items.flatMap (·.nodes.items.map (·.id)))
  | .host => (hostsOf file).map (·.id)

def Distinct (file : File) : Prop := ∀ kind, (idsOf file kind).Nodup

section Kinds

def ofKind (kind : Kind) (ids : List Id) : List String :=
  ids.filterMap fun i => if i.1 = kind then some i.2 else none

variable {ids : List Id} {kind kind' : Kind}

theorem ofKind_cons {i : Id} :
    ofKind kind (i :: ids) = (if i.1 = kind then [i.2] else []) ++ ofKind kind ids := by
  unfold ofKind
  rw [List.filterMap_cons]
  split_ifs <;> rfl

theorem mem_ofKind {id : String} : id ∈ ofKind kind ids ↔ (kind, id) ∈ ids := by
  induction ids with
  | nil => simp [ofKind]
  | cons i ids ih =>
    rw [ofKind_cons, List.mem_append, ih, List.mem_cons, Prod.ext_iff]
    by_cases hkind : i.1 = kind
    · simp [hkind]
    · simp [hkind, Ne.symm hkind]

theorem nodup_iff_ofKind : ids.Nodup ↔ ∀ kind, (ofKind kind ids).Nodup := by
  constructor
  · intro h kind
    refine h.filterMap ?_
    intro i j id hi hj
    obtain ⟨hi, hid⟩ := Option.ite_none_right_eq_some.mp hi
    obtain ⟨hj, hjd⟩ := Option.ite_none_right_eq_some.mp hj
    exact Prod.ext (hi.trans hj.symm) ((Option.some.inj hid).trans (Option.some.inj hjd).symm)
  · intro h
    induction ids with
    | nil => exact List.nodup_nil
    | cons i ids ih =>
      refine List.nodup_cons.mpr ⟨?_, ih fun kind => (h kind).sublist ?_⟩
      · have hhead := h i.1
        rw [ofKind_cons, if_pos rfl, List.singleton_append, List.nodup_cons] at hhead
        exact fun hmem => hhead.1 (mem_ofKind.mpr hmem)
      · exact (List.sublist_cons_self i ids).filterMap _

theorem ofKind_append {ids' : List Id} :
    ofKind kind (ids ++ ids') = ofKind kind ids ++ ofKind kind ids' := List.filterMap_append

theorem ofKind_flatMap {α : Type} {f : α → List Id} {xs : List α} :
    ofKind kind (xs.flatMap f) = xs.flatMap fun x => ofKind kind (f x) := List.filterMap_flatMap

@[simp] theorem ofKind_nil : ofKind kind [] = [] := rfl

theorem flatMap_nil {α β : Type} (xs : List α) : (xs.flatMap fun _ => ([] : List β)) = [] :=
  List.flatMap_eq_nil_iff.mpr fun _ _ => rfl

theorem ofKind_fileIds (file : File) : ofKind kind (fileIds file) = idsOf file kind := by
  cases kind <;>
    simp [idsOf, fileIds, projectsIds, projectIds, clusterIds, nodeIds, hostIds, ofKind_append,
      ofKind_flatMap, ofKind_cons, flatMap_nil, List.map_eq_flatMap]

theorem nodup_fileIds {file : File} : (fileIds file).Nodup ↔ Distinct file :=
  nodup_iff_ofKind.trans (forall_congr' fun _ => by rw [ofKind_fileIds])

end Kinds

section Files

variable {s : WorkspaceStore} {w : World} {file file' : File} {env : Envelope}
  {projects written : Slice Project}

theorem projectsIds_mapNodes {f : Node → Node} (hf : ∀ n, (f n).id = n.id) :
    projectsIds (mapNodes f projects) = projectsIds projects := by
  have hnode (n : Node) : nodeIds (f n) = nodeIds n := by
    unfold nodeIds
    rw [hf]
  have hcluster (c : Cluster) : clusterIds (mapCluster f c) = clusterIds c := by
    simp [clusterIds, mapCluster, List.flatMap_map, hnode]
  have hproject (p : Project) : projectIds (mapProject f p) = projectIds p := by
    simp [projectIds, mapProject, List.flatMap_map, hcluster]
  simp [projectsIds, mapNodes, List.flatMap_map, hproject]

theorem clusterIds_normalize (c : Cluster) : clusterIds (normalizeCluster c) = clusterIds c := rfl

theorem projectsIds_normalize :
    projectsIds (normalizeProjects projects) = projectsIds projects := by
  have hproject (p : Project) : projectIds (normalizeProject p) = projectIds p := by
    simp [projectIds, normalizeProject, List.flatMap_map, clusterIds_normalize]
  simp [projectsIds, normalizeProjects, List.flatMap_map, hproject]

theorem projectsIds_written (h : OnNodes (WrittenAs s) projects written) :
    projectsIds written = projectsIds projects := by
  -- only the passwords differ
  let blind (n : Node) : Node := { n with password := "" }
  have hblind (n n' : Node) (hn : WrittenAs s n n') : blind n' = blind n := by
    obtain ⟨password, rfl⟩ := writtenAs_same hn
    rfl
  have hmap (projects : Slice Project) : projectsIds (mapNodes blind projects) = _ :=
    projectsIds_mapNodes fun _ => rfl
  have hids := congrArg projectsIds (h.mapNodes_eq hblind)
  rwa [hmap, hmap] at hids

theorem fileIds_read (h : readEnvelopeNoLock s w file = .ok env) :
    fileIds file = projectsIds env.projects ++ env.hosts.items.flatMap hostIds := by
  rw [projects_of_read h, projectsIds_mapNodes readNode_id, projectsIds_normalize, hostsOf_read h]
  rfl

theorem fileIds_write (h : writeEnvelopeLocked s w env = .ok file') :
    fileIds file' = projectsIds env.projects ++ env.hosts.items.flatMap hostIds := by
  unfold fileIds
  rw [projectsIds_written (projects_of_write h), hostsOf_write h]

theorem fileIds_writeAll (h : writeAll s w projects file = .ok file') :
    fileIds file' = projectsIds projects := by
  rw [fileIds_write h, projectsIds_normalize]
  exact List.append_nil _

end Files

section Edits

variable {R : List Id → List Id → Prop} {α ε : Type} {ids : α → List Id} {xs ys : Slice α}

def Contextual (R : List Id → List Id → Prop) : Prop :=
  ∀ l x y r, R x y → R (l ++ (x ++ r)) (l ++ (y ++ r))

theorem replaced_ids (hR : Contextual R) {pre post zs : List α} {x : α}
    (h : R (ids x) (zs.flatMap ids)) :
    R ((pre ++ x :: post).flatMap ids) ((pre ++ (zs ++ post)).flatMap ids) := by
  rw [List.flatMap_append, List.flatMap_append, List.flatMap_append, List.flatMap_cons]
  exact hR _ _ _ _ h

theorem editFirst_ids (hR : Contextual R) {f : α → Option (Except ε (List α))} {xs ys : List α}
    (h : editFirst f xs = some (.ok ys))
    (hf : ∀ x zs, f x = some (.ok zs) → R (ids x) (zs.flatMap ids)) :
    R (xs.flatMap ids) (ys.flatMap ids) := by
  obtain ⟨pre, x, post, zs, rfl, -, hx, rfl⟩ := editFirst_ok h
  exact replaced_ids hR (hf x zs hx)

theorem editSlice_ids (hR : Contextual R) {f : α → Option (Except ε (List α))} {missing : ε}
    (h : editSlice f missing xs = .ok ys)
    (hf : ∀ x zs, f x = some (.ok zs) → R (ids x) (zs.flatMap ids)) :
    R (xs.items.flatMap ids) (ys.items.flatMap ids) := by
  obtain ⟨pre, x, post, zs, hxs, -, hx, rfl⟩ := editSlice_ok h
  rw [hxs]
  exact replaced_ids hR (hf x zs hx)

theorem editById_ids (hR : Contextual R) {key : α → String} {id : String}
    {f : α → Except ε (List α)} {missing : ε}
    (h : editSlice (fun x => if key x = id then some (f x) else none) missing xs = .ok ys)
    (hf : ∀ x zs, f x = .ok zs → R (ids x) (zs.flatMap ids)) :
    R (xs.items.flatMap ids) (ys.items.flatMap ids) := by
  refine editSlice_ids hR h fun x zs hx => hf x zs ?_
  exact Option.some.inj (Option.ite_none_right_eq_some.mp hx).2

theorem patched_ids {patch : α → Except ε α} {x : α} {zs : List α}
    (h : patched patch x = .ok zs) (hp : ∀ y, patch x = .ok y → R (ids x) (ids y)) :
    R (ids x) (zs.flatMap ids) := by
  obtain ⟨y, hy, rfl⟩ := patched_ok h
  rw [List.flatMap_singleton]
  exact hp y hy

theorem editCluster_ids (hR : Contextual R) {clusterID : String}
    {f : Cluster → Except String (List Cluster)} {p q : Project}
    (h : editCluster clusterID f p = .ok q)
    (hf : ∀ c zs, f c = .ok zs → R (clusterIds c) (zs.flatMap clusterIds)) :
    R (projectIds p) (projectIds q) := by
  obtain ⟨clusters, hclusters, rfl⟩ := editCluster_ok h
  have hcontext := hR [(.project, p.id)] _ _ [] (editById_ids hR hclusters hf)
  rwa [List.append_nil, List.append_nil] at hcontext

theorem editNode_ids (hR : Contextual R) {nodeID : String} {f : Node → Except String (List Node)}
    {c d : Cluster} (h : editNode nodeID f c = .ok d)
    (hf : ∀ n zs, f n = .ok zs → R (nodeIds n) (zs.flatMap nodeIds)) :
    R (clusterIds c) (clusterIds d) := by
  obtain ⟨nodes, hnodes, rfl⟩ := editNode_ok h
  have hcontext := hR [(.cluster, c.id)] _ _ [] (editById_ids hR hnodes hf)
  rwa [List.append_nil, List.append_nil] at hcontext

theorem updateCluster_ids (hR : Contextual R) {projectID clusterID : String}
    {f : Cluster → Except String (List Cluster)} {projects next : Slice Project}
    (h : editProject projectID (patched (editCluster clusterID f)) projects = .ok next)
    (hf : ∀ c zs, f c = .ok zs → R (clusterIds c) (zs.flatMap clusterIds)) :
    R (projectsIds projects) (projectsIds next) :=
  editById_ids hR h fun _ _ hp => patched_ids hp fun _ hq => editCluster_ids hR hq hf

end Edits

section Operations

/-- The ids of all projects but the first with the id. -/
def otherProjects (file : File) (id : String) : List Id :=
  ((storedProjects file).items.eraseP (·.id = id)).flatMap projectIds

/-- An operation that neither brings an id nor changes one. -/
def KeepsIds : Request → Prop
  | .upsert _ | .appendCluster .. | .appendNode .. | .writeAll _ => False
  | .writeHosts _ | .appendHost _ => False
  | .updateProjectLocked _ patch => ∀ p q, patch p = .ok q → projectIds q = projectIds p
  | .updateClusterLocked _ _ patch => ∀ c d, patch c = .ok d → clusterIds d = clusterIds c
  | .updateNodeLocked _ _ _ patch => ∀ n m, patch n = .ok m → nodeIds m = nodeIds n
  | .updateHost _ patch => ∀ h k, patch h = .ok k → hostIds k = hostIds h
  | _ => True

def Loses (before after : List Id) : Prop := after.Sublist before

def Adds (ids before after : List Id) : Prop := after.Perm (ids ++ before)

variable {s : WorkspaceStore} {w : World} {file file' : File} {R : List Id → List Id → Prop}
  {ids : List Id}

theorem loses_contextual : Contextual Loses := fun l _ _ r h =>
  (List.Sublist.refl l).append (h.append (List.Sublist.refl r))

theorem adds_contextual : Contextual (Adds ids) := by
  intro l x y r h
  have hinner : (y ++ r).Perm (ids ++ (x ++ r)) := by
    rw [← List.append_assoc]
    exact h.append_right r
  exact (hinner.append_left l).trans (List.perm_append_comm_assoc _ _ _)

theorem onProjects_ids (hR : Contextual R)
    {edit : Slice Project → Except String (Slice Project)}
    (hedit : ∀ projects next, edit projects = .ok next →
      R (projectsIds projects) (projectsIds next))
    (h : (locked s w (onProjects edit)).exec file = .ok file') :
    R (fileIds file) (fileIds file') := by
  obtain ⟨env, next, hread, hnext, hwrite⟩ := locked_ok h
  obtain ⟨hprojects, hsame⟩ := onProjects_ok hnext
  rw [fileIds_read hread, fileIds_write hwrite, hsame]
  exact hR [] _ _ _ (hedit _ _ hprojects)

theorem onHosts_ids (hR : Contextual R) {edit : Slice Host → Except String (Slice Host)}
    (hedit : ∀ hosts next, edit hosts = .ok next →
      R (hosts.items.flatMap hostIds) (next.items.flatMap hostIds))
    (h : (locked s w (onHosts edit)).exec file = .ok file') :
    R (fileIds file) (fileIds file') := by
  obtain ⟨env, next, hread, hnext, hwrite⟩ := locked_ok h
  obtain ⟨hhosts, hsame⟩ := onHosts_ok hnext
  rw [fileIds_read hread, fileIds_write hwrite, hsame]
  have hcontext := hR (projectsIds env.projects) _ _ [] (hedit _ _ hhosts)
  rwa [List.append_nil, List.append_nil] at hcontext

theorem split_ids {prepare : File → Except String (Slice Project)}
    (h : (Txn.split prepare (writeAll s w)).exec file = .ok file') :
    ∃ plan, prepare file = .ok plan ∧ fileIds file' = projectsIds plan := by
  obtain ⟨plan, hplan, hwrite⟩ := bind_ok.mp h
  exact ⟨plan, hplan, fileIds_writeAll hwrite⟩

theorem readAll_map {projects : Slice Project} (h : readAll s w file = .ok projects) :
    ∃ g : Project → Project, projects.items = (storedProjects file).items.map g ∧
      ∀ p, (g p).id = p.id ∧ projectIds (g p) = projectIds p := by
  obtain ⟨env, henv, rfl⟩ := read_of_readAll h
  refine ⟨fun p => mapProject (readNode s) (normalizeProject p), ?_, fun p => ⟨rfl, ?_⟩⟩
  · rw [projects_of_read henv]
    simp [mapNodes, normalizeProjects]
  · have hsingle : projectsIds (mapNodes (readNode s) (normalizeProjects (.of [p]))) =
        projectsIds (.of [p]) := by
      rw [projectsIds_mapNodes readNode_id, projectsIds_normalize]
    simpa [projectsIds, mapNodes, normalizeProjects] using hsingle

theorem projectsIds_readAll {projects : Slice Project} (h : readAll s w file = .ok projects) :
    projectsIds projects = projectsIds (storedProjects file) := by
  obtain ⟨g, hmap, hg⟩ := readAll_map h
  simp [projectsIds, hmap, List.flatMap_map, hg]

theorem upsertItem_ids (p : Project) (qs : List Project) :
    ((upsertItem p qs).flatMap projectIds).Perm
      (projectIds p ++ (qs.eraseP (·.id = p.id)).flatMap projectIds) := by
  induction qs with
  | nil => exact .refl _
  | cons q qs ih =>
    unfold upsertItem
    by_cases hid : q.id = p.id
    · rw [if_pos hid, List.eraseP_cons_of_pos (by simpa using hid), List.flatMap_cons]
    · rw [if_neg hid, List.eraseP_cons_of_neg (by simpa using hid), List.flatMap_cons,
        List.flatMap_cons]
      exact (ih.append_left _).trans (List.perm_append_comm_assoc _ _ _)

theorem eraseP_ids {g : Project → Project} {id : String} (ps : List Project)
    (hg : ∀ p, (g p).id = p.id ∧ projectIds (g p) = projectIds p) :
    ((ps.map g).eraseP (·.id = id)).flatMap projectIds =
      (ps.eraseP (·.id = id)).flatMap projectIds := by
  have hcomp : (fun p : Project => decide (p.id = id)) ∘ g = fun p => decide (p.id = id) := by
    funext p
    simp [hg]
  rw [List.eraseP_map, hcomp, List.flatMap_map]
  simp [hg]

theorem patchedProject_ids {projectID : String} (hR : Contextual R)
    {patch : Project → Except String Project} {projects next : Slice Project}
    (h : editProject projectID (patched patch) projects = .ok next)
    (hp : ∀ p q, patch p = .ok q → R (projectIds p) (projectIds q)) :
    R (projectsIds projects) (projectsIds next) :=
  editById_ids hR h fun x _ hx => patched_ids hx (hp x)

theorem deleted_loses {α ε : Type} {f : α → List Id} {x : α} {zs : List α}
    (h : (deleted x : Except ε (List α)) = .ok zs) : Loses (f x) (zs.flatMap f) := by
  cases h
  exact List.nil_sublist _

theorem loses_of_eq {before after : List Id} (h : after = before) : Loses before after :=
  h ▸ List.Sublist.refl _

theorem patched_loses {α ε : Type} {f : α → List Id} {patch : α → Except ε α} {x : α} {zs : List α}
    (h : patched patch x = .ok zs) (hp : ∀ x y, patch x = .ok y → f y = f x) :
    Loses (f x) (zs.flatMap f) :=
  patched_ids h fun y hy => loses_of_eq (hp x y hy)

theorem map_map_ok {α β ε : Type} {f : α → β} {o : Option (Except ε α)} {b : β}
    (h : o.map (·.map f) = some (.ok b)) : ∃ a, o = some (.ok a) ∧ f a = b := by
  obtain ⟨r, rfl, hr⟩ := Option.map_eq_some_iff.mp h
  cases r with
  | error e => cases hr
  | ok a => exact ⟨a, rfl, Except.ok.inj hr⟩

theorem updateNodeStatus_loses {nodeId status lastError : String} {projects next : Slice Project}
    (h : updateNodeStatus nodeId status lastError projects = .ok next) :
    Loses (projectsIds projects) (projectsIds next) := by
  refine editSlice_ids loses_contextual h fun p ps hp => ?_
  obtain ⟨clusters, hclusters, rfl⟩ := map_map_ok hp
  rw [List.flatMap_singleton]
  refine List.Sublist.cons_cons _ (editFirst_ids loses_contextual hclusters fun c cs hc => ?_)
  obtain ⟨nodes, hnodes, rfl⟩ := map_map_ok hc
  rw [List.flatMap_singleton]
  refine List.Sublist.cons_cons _ (editFirst_ids loses_contextual hnodes fun n ns hn => ?_)
  cases (Option.ite_none_right_eq_some.mp hn).2
  exact List.Sublist.refl _

theorem upsert_adds {p : Project} (h : (txn s w (.upsert p)).exec file = .ok file') :
    Adds (projectIds p) (otherProjects file p.id) (fileIds file') := by
  obtain ⟨plan, hplan, hids⟩ := split_ids h
  obtain ⟨items, hitems, hplan⟩ := bind_ok.mp hplan
  obtain ⟨g, hmap, hg⟩ := readAll_map hitems
  split at hplan
  · cases hplan
  cases hplan
  have hupsert := upsertItem_ids p items.items
  rw [hmap, eraseP_ids _ hg] at hupsert
  unfold Adds
  rw [hids, projectsIds, items_of, hmap]
  exact hupsert

theorem deleteByID_loses {id : String} (h : (txn s w (.deleteByID id)).exec file = .ok file') :
    Loses (fileIds file) (fileIds file') := by
  obtain ⟨plan, hplan, hids⟩ := split_ids h
  unfold Store.deleteByID at hplan
  split at hplan
  · cases hplan
  obtain ⟨items, hitems, hplan⟩ := bind_ok.mp hplan
  cases hplan
  unfold Loses
  rw [hids, fileIds, ← projectsIds_readAll hitems]
  exact (List.filter_sublist.flatMap _).trans (List.sublist_append_left _ _)

theorem appendCluster_adds {projectID : String} {cluster : Cluster}
    (h : (txn s w (.appendCluster projectID cluster)).exec file = .ok file') :
    Adds (clusterIds cluster) (projectsIds (storedProjects file)) (fileIds file') := by
  obtain ⟨plan, hplan, hids⟩ := split_ids h
  unfold Store.appendCluster at hplan
  split at hplan
  · cases hplan
  obtain ⟨items, hitems, hplan⟩ := bind_ok.mp hplan
  rw [hids, ← projectsIds_readAll hitems]
  refine patchedProject_ids adds_contextual hplan fun p q hq => ?_
  split at hq
  · cases hq
  cases hq
  have hclusters (c : Cluster) : projectIds { p with clusters := p.clusters.append c } =
      projectIds p ++ clusterIds c := by
    simp [projectIds, Slice.append]
  exact (List.Perm.of_eq (hclusters _)).trans List.perm_append_comm

theorem appendNode_adds {projectID clusterID : String} {node : Node}
    (h : (txn s w (.appendNode projectID clusterID node)).exec file = .ok file') :
    Adds (nodeIds node) (projectsIds (storedProjects file)) (fileIds file') := by
  obtain ⟨plan, hplan, hids⟩ := split_ids h
  unfold Store.appendNode at hplan
  split at hplan
  · cases hplan
  obtain ⟨items, hitems, hplan⟩ := bind_ok.mp hplan
  rw [hids, ← projectsIds_readAll hitems]
  refine updateCluster_ids adds_contextual hplan fun c zs hzs => patched_ids hzs fun d hd => ?_
  split at hd
  · cases hd
  cases hd
  have hnodes : clusterIds { c with nodes := c.nodes.append node } =
      clusterIds c ++ nodeIds node := by
    simp [clusterIds, Slice.append]
  exact (List.Perm.of_eq hnodes).trans List.perm_append_comm

theorem deleteProjectLocked_loses {id : String} {projects next : Slice Project}
    (h : deleteProject id projects = .ok next) :
    Loses (projectsIds projects) (projectsIds next) := by
  unfold deleteProject at h
  dsimp only at h
  split at h
  · cases h
  cases h
  exact List.filter_sublist.flatMap _

theorem appendHost_adds {host : Host} (h : (txn s w (.appendHost host)).exec file = .ok file') :
    Adds [(.host, if host.id = "" then "host-" ++ toString w.unixNano else host.id)] (fileIds file)
      (fileIds file') := by
  refine onHosts_ids adds_contextual (fun hosts next hnext => ?_) h
  cases hnext
  have hhosts : (appendHost w host hosts).items.flatMap hostIds =
      hosts.items.flatMap hostIds ++ _ := List.flatMap_append
  exact (List.Perm.of_eq hhosts).trans List.perm_append_comm

theorem writeAll_adds {projects : Slice Project}
    (h : (txn s w (.writeAll projects)).exec file = .ok file') :
    Adds (projectsIds projects) [] (fileIds file') := by
  have hwrite : writeAll s w projects file = .ok file' := h
  rw [fileIds_writeAll hwrite]
  exact .of_eq (List.append_nil _).symm

theorem exec_loses {r : Request} (h : (txn s w r).exec file = .ok file') (hkeeps : KeepsIds r) :
    Loses (fileIds file) (fileIds file') := by
  cases r with
  | upsert | appendCluster | appendNode | writeAll | writeHosts | appendHost => exact hkeeps.elim
  | deleteByID id => exact deleteByID_loses h
  | updateProjectLocked id patch =>
    refine onProjects_ids loses_contextual (fun projects next hnext => ?_) h
    exact patchedProject_ids loses_contextual hnext fun p q hq => loses_of_eq (hkeeps p q hq)
  | deleteProjectLocked id =>
    exact onProjects_ids loses_contextual (fun _ _ => deleteProjectLocked_loses) h
  | updateClusterLocked projectID clusterID patch =>
    refine onProjects_ids loses_contextual (fun projects next hnext => ?_) h
    exact updateCluster_ids loses_contextual hnext fun c zs hzs => patched_loses hzs hkeeps
  | deleteClusterLocked projectID clusterID =>
    refine onProjects_ids loses_contextual (fun projects next hnext => ?_) h
    exact updateCluster_ids loses_contextual hnext fun c zs hzs => deleted_loses hzs
  | updateNodeLocked projectID clusterID nodeID patch =>
    refine onProjects_ids loses_contextual (fun projects next hnext => ?_) h
    refine updateCluster_ids loses_contextual hnext fun c zs hzs => ?_
    refine patched_ids hzs fun d hd => editNode_ids loses_contextual hd fun n ns hns => ?_
    exact patched_loses hns hkeeps
  | updateNodeStatus nodeId status lastError =>
    exact onProjects_ids loses_contextual (fun _ _ => updateNodeStatus_loses) h
  | deleteNodeLocked projectID clusterID nodeID =>
    refine onProjects_ids loses_contextual (fun projects next hnext => ?_) h
    refine updateCluster_ids loses_contextual hnext fun c zs hzs => ?_
    refine patched_ids hzs fun d hd => editNode_ids loses_contextual hd fun n ns hns => ?_
    exact deleted_loses hns
  | updateHost id patch =>
    refine onHosts_ids loses_contextual (fun hosts next hnext => ?_) h
    exact editById_ids loses_contextual hnext fun x zs hzs => patched_loses hzs hkeeps
  | deleteHost id =>
    refine onHosts_ids loses_contextual (fun hosts next hnext => ?_) h
    exact editById_ids loses_contextual hnext fun x zs hzs => deleted_loses hzs

theorem deleteClusterLocked_shrinks {projectID clusterID : String}
    (h : (txn s w (.deleteClusterLocked projectID clusterID)).exec file = .ok file') :
    (fileIds file').length < (fileIds file).length := by
  have hR : Contextual fun before after => after.length < before.length := by
    intro l x y r hlt
    simpa using hlt
  refine onProjects_ids hR (fun projects next hnext => ?_) h
  refine updateCluster_ids hR hnext fun c zs hzs => ?_
  cases hzs
  exact Nat.zero_lt_succ _

def Moves (brought spared before after : List Id) : Prop :=
  (brought = [] ∧ Loses before after) ∨ Adds brought spared after

/-- No id that is brought is met twice, among those brought or those spared. -/
structure Fresh (brought spared : List Id) : Prop where
  nodup : brought.Nodup
  unused : ∀ id ∈ brought, id ∉ spared

theorem distinct_iff_fresh {brought spared : List Id}
    (hids : Moves brought spared (fileIds file) (fileIds file'))
    (hspared : spared.Sublist (fileIds file)) (hbefore : Distinct file) :
    Distinct file' ↔ Fresh brought spared := by
  rw [← nodup_fileIds] at hbefore ⊢
  obtain ⟨rfl, hloses⟩ | hadds := hids
  · exact iff_of_true (hbefore.sublist hloses) ⟨List.nodup_nil, List.forall_mem_nil _⟩
  · rw [hadds.nodup_iff, List.nodup_append]
    constructor
    · rintro ⟨hbrought, -, hdisjoint⟩
      exact ⟨hbrought, fun id hid hmem => hdisjoint id hid id hmem rfl⟩
    · intro hfresh
      refine ⟨hfresh.nodup, hbefore.sublist hspared, ?_⟩
      rintro i hi j hj rfl
      exact hfresh.unused i hi hj

end Operations

end LearnPg.Workspace.Identity
