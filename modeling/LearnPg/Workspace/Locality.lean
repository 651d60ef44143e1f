import LearnPg.Api.NodeLists
import LearnPg.Basis.Utf8
import LearnPg.Workspace.Disk
import LearnPg.Workspace.Erasure

/-! What an operation on one entity leaves of the workspace. The file is replaced
whole, every password in it is encrypted anew and every read normalises, and still
a read afterwards differs from the one before in that entity alone. -/
namespace LearnPg.Workspace.Locality

open Data Secrets Store Places Edits Erasure Writes AtRest Disk Api

section Lists

variable {α ε : Type} {P Q : α → Prop} {R S : α → List α → Prop} {xs ys : List α}

/-- In place of the first element of `xs` with `P`, `ys` has what `R` relates to it. -/
def FirstWhere (P : α → Prop) (R : α → List α → Prop) (xs ys : List α) : Prop :=
  ∃ pre x post zs, xs = pre ++ x :: post ∧ (∀ y ∈ pre, ¬ P y) ∧ P x ∧ R x zs ∧
    ys = pre ++ (zs ++ post)

theorem FirstWhere.imp (h : FirstWhere P R xs ys) (hpq : ∀ x ∈ xs, Q x ↔ P x)
    (hrs : ∀ x ∈ xs, ∀ zs, R x zs → S x zs) : FirstWhere Q S xs ys := by
  obtain ⟨pre, x, post, zs, rfl, hpre, hx, hzs, hys⟩ := h
  have hmem : x ∈ pre ++ x :: post := List.mem_append_right pre List.mem_cons_self
  refine ⟨pre, x, post, zs, rfl, fun y hy => ?_, (hpq x hmem).mpr hx, hrs x hmem zs hzs, hys⟩
  rw [hpq y (List.mem_append_left _ hy)]
  exact hpre y hy

theorem FirstWhere.map {g : α → α} (h : FirstWhere P R xs ys) (hg : ∀ x ∈ xs, g x = x)
    (hrs : ∀ x ∈ xs, ∀ zs, R x zs → S x (zs.map g)) : FirstWhere P S xs (ys.map g) := by
  obtain ⟨pre, x, post, zs, rfl, hpre, hx, hzs, rfl⟩ := h
  rw [List.forall_mem_append, List.forall_mem_cons] at hg
  obtain ⟨hgpre, -, hgpost⟩ := hg
  refine ⟨pre, x, post, zs.map g, rfl, hpre, hx, ?_, ?_⟩
  · exact hrs x (List.mem_append_right pre List.mem_cons_self) zs hzs
  · rw [List.map_append, List.map_append, List.map_congr_left hgpre, List.map_congr_left hgpost,
      List.map_id', List.map_id']

theorem firstWhere_editFirst {f : α → Option (Except ε (List α))}
    (h : editFirst f xs = some (.ok ys)) :
    FirstWhere (fun x => f x ≠ none) (fun x zs => f x = some (.ok zs)) xs ys := by
  obtain ⟨pre, x, post, zs, hxs, hpre, hx, hys⟩ := editFirst_ok h
  have hsome : f x ≠ none := Option.ne_none_iff_exists'.mpr ⟨_, hx⟩
  exact ⟨pre, x, post, zs, hxs, fun y hy => not_not.mpr (hpre y hy), hsome, hx, hys⟩

theorem firstWhere_editSlice {f : α → Option (Except ε (List α))} {missing : ε}
    {xs ys : Slice α} (h : editSlice f missing xs = .ok ys) :
    FirstWhere (fun x => f x ≠ none) (fun x zs => f x = some (.ok zs)) xs.items ys.items := by
  obtain ⟨pre, x, post, zs, hxs, hpre, hx, rfl⟩ := editSlice_ok h
  have hsome : f x ≠ none := Option.ne_none_iff_exists'.mpr ⟨_, hx⟩
  exact ⟨pre, x, post, zs, hxs, fun y hy => not_not.mpr (hpre y hy), hsome, hx, rfl⟩

theorem firstWhere_editById {key : α → String} {id : String} {f : α → Except ε (List α)}
    {missing : ε} {xs ys : Slice α}
    (h : editSlice (fun x => if key x = id then some (f x) else none) missing xs = .ok ys) :
    FirstWhere (key · = id) (fun x zs => f x = .ok zs) xs.items ys.items := by
  obtain ⟨pre, x, post, zs, hxs, hpre, hid, hzs, rfl⟩ := editById_ok h
  exact ⟨pre, x, post, zs, hxs, hpre, hid, hzs, rfl⟩

end Lists

section Changes

variable {α : Type}

def Became (patch : α → Except String α) (normalize : α → α) (x : α) (ys : List α) : Prop :=
  ∃ y, patch x = .ok y ∧ ys = [normalize y]

def Gone (_ : α) (ys : List α) : Prop := ys = []

def InCluster (P : Node → Prop) (R : Node → List Node → Prop) (c : Cluster)
    (cs : List Cluster) : Prop :=
  ∃ ns, FirstWhere P R c.nodes.items ns ∧ cs = [{ c with nodes := .of ns }]

def InProject (P : Cluster → Prop) (R : Cluster → List Cluster → Prop) (p : Project)
    (ps : List Project) : Prop :=
  ∃ cs, FirstWhere P R p.clusters.items cs ∧ ps = [{ p with clusters := .of cs }]

def InProjects (P : Project → Prop) (R : Project → List Project → Prop)
    (before after : Envelope) : Prop :=
  FirstWhere P R before.projects.items after.projects.items ∧ after.hosts = before.hosts

def InHosts (P : Host → Prop) (R : Host → List Host → Prop) (before after : Envelope) : Prop :=
  FirstWhere P R before.hosts.items after.hosts.items ∧ after.projects = before.projects

def HoldsNode (nodeId : String) (c : Cluster) : Prop := ∃ n ∈ c.nodes.items, n.id = nodeId

/-- What a read before an operation on one entity and a read after it differ in. -/
def Changes (w : World) : Request → Envelope → Envelope → Prop
  | .updateProjectLocked id patch => InProjects (·.id = id) (Became patch normalizeProject)
  | .deleteProjectLocked id => fun before after =>
    after.projects.items = before.projects.items.filter (·.id ≠ id) ∧ after.hosts = before.hosts
  | .updateClusterLocked projectID clusterID patch =>
    InProjects (·.id = projectID) (InProject (·.id = clusterID) (Became patch normalizeCluster))
  | .deleteClusterLocked projectID clusterID =>
    InProjects (·.id = projectID) (InProject (·.id = clusterID) Gone)
  | .updateNodeLocked projectID clusterID nodeID patch =>
    InProjects (·.id = projectID) (InProject (·.id = clusterID)
      (InCluster (·.id = nodeID) (Became patch fun n => n)))
  | .deleteNodeLocked projectID clusterID nodeID =>
    InProjects (·.id = projectID) (InProject (·.id = clusterID)
      (InCluster (·.id = nodeID) Gone))
  | .updateNodeStatus nodeId status lastError =>
    InProjects (fun p => ∃ c ∈ p.clusters.items, HoldsNode nodeId c)
      (InProject (HoldsNode nodeId) (InCluster (·.id = nodeId) fun n ns =>
        ns = [{ n with connectionStatus := status, lastError }]))
  | .appendHost host => fun before after =>
    (∃ h, appendHost w host .nil = .of [h] ∧ after.hosts.items = before.hosts.items ++ [h]) ∧
      after.projects = before.projects
  | .updateHost id patch => InHosts (·.id = id) (Became patch fun h => h)
  | .deleteHost id => InHosts (·.id = id) Gone
  | _ => fun _ _ => False

/-- The operations that address one entity, each by what it does between its read
and its write. -/
def edit (w : World) : Request → Option (Envelope → Except String Envelope)
  | .updateProjectLocked id patch => some (onProjects (updateProject id patch))
  | .deleteProjectLocked id => some (onProjects (deleteProject id))
  | .updateClusterLocked projectID clusterID patch =>
    some (onProjects (updateCluster projectID clusterID patch))
  | .deleteClusterLocked projectID clusterID =>
    some (onProjects (deleteCluster projectID clusterID))
  | .updateNodeLocked projectID clusterID nodeID patch =>
    some (onProjects (updateNode projectID clusterID nodeID patch))
  | .deleteNodeLocked projectID clusterID nodeID =>
    some (onProjects (deleteNode projectID clusterID nodeID))
  | .updateNodeStatus nodeId status lastError =>
    some (onProjects (updateNodeStatus nodeId status lastError))
  | .appendHost host => some (onHosts fun hosts => .ok (appendHost w host hosts))
  | .updateHost id patch => some (onHosts (editHost id (patched patch)))
  | .deleteHost id => some (onHosts (editHost id deleted))
  | _ => none

theorem txn_edit {s : WorkspaceStore} {w : World} {op : Request}
    {f : Envelope → Except String Envelope} (h : edit w op = some f) :
    txn s w op = locked s w f := by
  cases op with
  | upsert | deleteByID | appendCluster | appendNode | writeAll | writeHosts => cases h
  | updateProjectLocked | deleteProjectLocked | updateClusterLocked | deleteClusterLocked
  | updateNodeLocked | deleteNodeLocked | updateNodeStatus | appendHost | updateHost
  | deleteHost =>
    cases h
    rfl

end Changes

section Normal

theorem normalizeCluster_idem (c : Cluster) :
    normalizeCluster (normalizeCluster c) = normalizeCluster c := by
  unfold normalizeCluster
  dsimp only [items_of]
  congr 1
  split <;> omega

theorem normalizeProject_idem (p : Project) :
    normalizeProject (normalizeProject p) = normalizeProject p := by
  unfold normalizeProject
  simp only [items_of, List.map_map, Function.comp_def, normalizeCluster_idem]
  rfl

theorem normalizeProjects_idem (projects : Slice Project) :
    normalizeProjects (normalizeProjects projects) = normalizeProjects projects := by
  unfold normalizeProjects
  simp only [items_of, List.map_map, Function.comp_def, normalizeProject_idem]

theorem fixed_of_map {α : Type} {g : α → α} {xs : List α} (h : xs.map g = xs) :
    ∀ x ∈ xs, g x = x :=
  List.map_inj_left.mp (h.trans xs.map_id.symm)

variable {s : WorkspaceStore} {w : World} {file : File} {env : Envelope} {p : Project}
  {c : Cluster}

theorem projects_normal (h : readEnvelopeNoLock s w file = .ok env) :
    normalizeProjects env.projects = env.projects := by
  rw [projects_of_read h, normalize_mapNodes, normalizeProjects_idem]

theorem clusters_normal (h : normalizeProject p = p) :
    ∀ c ∈ p.clusters.items, normalizeCluster c = c :=
  fixed_of_map (congrArg (·.clusters.items) h)

theorem normalize_withClusters (h : normalizeProject p = p) (clusters : Slice Cluster) :
    normalizeProject { p with clusters } =
      { p with clusters := .of (clusters.items.map normalizeCluster) } := by
  have hcomponents : .of (p.components.items.map normalizeComponent) = p.components :=
    congrArg Project.components h
  unfold normalizeProject
  rw [hcomponents]

theorem normalize_withNodes (h : normalizeCluster c = c) (nodes : Slice Node) :
    normalizeCluster { c with nodes } = { c with nodes := .of nodes.items } := by
  have hthreshold : (if c.alertThresholdSec ≤ 0 then 30 else c.alertThresholdSec) =
      c.alertThresholdSec := congrArg Cluster.alertThresholdSec h
  unfold normalizeCluster
  dsimp only
  rw [hthreshold]

end Normal

section Edits

variable {w : World} {op : Request} {f : Envelope → Except String Envelope}
  {before next : Envelope} {projects : Slice Project} {p q : Project} {c d : Cluster}
  {cs : List Cluster} {ps : List Project} {id projectID clusterID nodeID : String}

theorem patched_in {α : Type} {patch : α → Except String α} {g : α → α}
    {R : α → List α → Prop} {x : α} {zs : List α} (h : patched patch x = .ok zs)
    (hpatch : ∀ y, patch x = .ok y → R x [g y]) : R x (zs.map g) := by
  obtain ⟨y, hy, rfl⟩ := patched_ok h
  exact hpatch y hy

theorem editCluster_in {edit : Cluster → Except String (List Cluster)}
    {R : Cluster → List Cluster → Prop} (h : editCluster clusterID edit p = .ok q)
    (hnormal : normalizeProject p = p)
    (hedit : ∀ c, normalizeCluster c = c → ∀ cs, edit c = .ok cs → R c (cs.map normalizeCluster)) :
    InProject (·.id = clusterID) R p [normalizeProject q] := by
  obtain ⟨clusters, hclusters, rfl⟩ := editCluster_ok h
  have hfixed := clusters_normal hnormal
  rw [normalize_withClusters hnormal]
  exact ⟨_, (firstWhere_editById hclusters).map hfixed fun c hc cs => hedit c (hfixed c hc) cs,
    rfl⟩

theorem editNode_in {edit : Node → Except String (List Node)} {R : Node → List Node → Prop}
    (h : editNode nodeID edit c = .ok d) (hnormal : normalizeCluster c = c)
    (hedit : ∀ n ns, edit n = .ok ns → R n ns) :
    InCluster (·.id = nodeID) R c [normalizeCluster d] := by
  obtain ⟨nodes, hnodes, rfl⟩ := editNode_ok h
  rw [normalize_withNodes hnormal]
  exact ⟨_, (firstWhere_editById hnodes).imp (fun _ _ => Iff.rfl) fun n _ ns => hedit n ns, rfl⟩

theorem findsNode {f : Node → Option (Except String (List Node))}
    (h : (editFirst f c.nodes.items).map (·.map fun nodes => [{ c with nodes := .of nodes }]) =
      some (.ok cs)) (hnormal : normalizeCluster c = c) {P : Node → Prop}
    {R : Node → List Node → Prop} (hP : ∀ n, P n ↔ f n ≠ none)
    (hR : ∀ n ns, f n = some (.ok ns) → R n ns) : InCluster P R c (cs.map normalizeCluster) := by
  obtain ⟨r, hr, hmap⟩ := Option.map_eq_some_iff.mp h
  cases r with
  | error err => cases hmap
  | ok ns =>
    cases hmap
    rw [List.map_singleton, normalize_withNodes hnormal]
    exact ⟨ns, (firstWhere_editFirst hr).imp (fun n _ => hP n) fun n _ ns => hR n ns, rfl⟩

theorem findsCluster {f : Cluster → Option (Except String (List Cluster))}
    (h : (editFirst f p.clusters.items).map
      (·.map fun clusters => [{ p with clusters := .of clusters }]) = some (.ok ps))
    (hnormal : normalizeProject p = p) {P : Cluster → Prop} {R : Cluster → List Cluster → Prop}
    (hP : ∀ c, P c ↔ f c ≠ none)
    (hR : ∀ c, normalizeCluster c = c → ∀ cs, f c = some (.ok cs) → R c (cs.map normalizeCluster)) :
    InProject P R p (ps.map normalizeProject) := by
  obtain ⟨r, hr, hmap⟩ := Option.map_eq_some_iff.mp h
  cases r with
  | error err => cases hmap
  | ok cs =>
    cases hmap
    have hfixed := clusters_normal hnormal
    have hfirst := (firstWhere_editFirst hr).imp (fun c _ => hP c) fun _ _ _ hcs => hcs
    rw [List.map_singleton, normalize_withClusters hnormal]
    exact ⟨_, hfirst.map hfixed fun c hc cs => hR c (hfixed c hc) cs, rfl⟩

/-- The loops of `UpdateNodeStatus`, from the innermost outwards. -/
def nodeStatus (nodeId status lastError : String) (n : Node) :
    Option (Except String (List Node)) :=
  if n.id = nodeId then some (.ok [{ n with connectionStatus := status, lastError }]) else none

def clusterStatus (nodeId status lastError : String) (c : Cluster) :
    Option (Except String (List Cluster)) :=
  (editFirst (nodeStatus nodeId status lastError) c.nodes.items).map
    (·.map fun nodes => [{ c with nodes := .of nodes }])

def projectStatus (nodeId status lastError : String) (p : Project) :
    Option (Except String (List Project)) :=
  (editFirst (clusterStatus nodeId status lastError) p.clusters.items).map
    (·.map fun clusters => [{ p with clusters := .of clusters }])

theorem nodeStatus_some {nodeId status lastError : String} (n : Node) :
    nodeStatus nodeId status lastError n ≠ none ↔ n.id = nodeId := by
  unfold nodeStatus
  split
  next hid => exact iff_of_true (Option.some_ne_none _) hid
  next hid => exact iff_of_false (fun h => h rfl) hid

theorem editFirst_some {α β ε : Type} {g : α → Option (Except ε (List α))} {P : α → Prop}
    {k : List α → β} {xs : List α} (hg : ∀ x, g x ≠ none ↔ P x) :
    (editFirst g xs).map (·.map k) ≠ none ↔ ∃ x ∈ xs, P x := by
  rw [ne_eq, Option.map_eq_none_iff, editFirst_none]
  push Not
  exact exists_congr fun x => and_congr_right fun _ => hg x

theorem status_in {nodeId status lastError : String}
    (h : updateNodeStatus nodeId status lastError projects = .ok next.projects)
    (hnormal : normalizeProjects projects = projects) :
    FirstWhere (fun p => ∃ c ∈ p.clusters.items, HoldsNode nodeId c)
      (InProject (HoldsNode nodeId) (InCluster (·.id = nodeId) fun n ns =>
        ns = [{ n with connectionStatus := status, lastError }]))
      projects.items (normalizeProjects next.projects).items := by
  have hcluster (c : Cluster) :
      clusterStatus nodeId status lastError c ≠ none ↔ HoldsNode nodeId c :=
    editFirst_some nodeStatus_some
  have hproject (p : Project) : projectStatus nodeId status lastError p ≠ none ↔
      ∃ c ∈ p.clusters.items, HoldsNode nodeId c := editFirst_some hcluster
  have hfixed := fixed_of_map (congrArg Slice.items hnormal)
  change editSlice (projectStatus nodeId status lastError) _ _ = _ at h
  have hfirst := (firstWhere_editSlice h).imp (fun p _ => (hproject p).symm) fun _ _ _ hps => hps
  refine hfirst.map hfixed fun p hp ps hps => ?_
  refine findsCluster hps (hfixed p hp) (fun c => (hcluster c).symm) fun c hc cs hcs => ?_
  refine findsNode hcs hc (fun n => (nodeStatus_some n).symm) fun n ns hns => ?_
  unfold nodeStatus at hns
  split at hns
  · cases hns
    rfl
  · cases hns

theorem editProject_in {edit : Project → Except String (List Project)}
    {R : Project → List Project → Prop}
    (h : onProjects (editProject projectID edit) before = .ok next)
    (hnormal : normalizeProjects before.projects = before.projects) (version : Int)
    (hedit : ∀ p, normalizeProject p = p → ∀ ps, edit p = .ok ps → R p (ps.map normalizeProject)) :
    InProjects (·.id = projectID) R before
      ⟨version, normalizeProjects next.projects, next.hosts⟩ := by
  obtain ⟨hprojects, hnext⟩ := onProjects_ok h
  have hfixed := fixed_of_map (congrArg Slice.items hnormal)
  rw [hnext]
  exact ⟨(firstWhere_editById hprojects).map hfixed fun p hp ps => hedit p (hfixed p hp) ps, rfl⟩

theorem editHost_in {edit : Host → Except String (List Host)} {R : Host → List Host → Prop}
    (h : onHosts (editHost id edit) before = .ok next)
    (hnormal : normalizeProjects before.projects = before.projects) (version : Int)
    (hedit : ∀ x xs, edit x = .ok xs → R x xs) :
    InHosts (·.id = id) R before ⟨version, normalizeProjects next.projects, next.hosts⟩ := by
  obtain ⟨hhosts, hnext⟩ := onHosts_ok h
  rw [hnext]
  exact ⟨(firstWhere_editById hhosts).imp (fun _ _ => Iff.rfl) fun x _ xs => hedit x xs, hnormal⟩

/-- What an operation changes in the envelope, once it is normalised again. -/
theorem changes_of_edit (hop : edit w op = some f) (h : f before = .ok next)
    (hnormal : normalizeProjects before.projects = before.projects) (version : Int) :
    Changes w op before ⟨version, normalizeProjects next.projects, next.hosts⟩ := by
  cases op with
  | upsert | deleteByID | appendCluster | appendNode | writeAll | writeHosts => cases hop
  | updateProjectLocked id patch =>
    cases hop
    refine editProject_in h hnormal version fun p _ ps hps => patched_in hps fun q hq => ?_
    exact ⟨q, hq, rfl⟩
  | deleteProjectLocked id =>
    cases hop
    obtain ⟨hprojects, hnext⟩ := onProjects_ok h
    unfold deleteProject at hprojects
    dsimp only at hprojects
    split at hprojects
    · cases hprojects
    have hfixed := fixed_of_map (congrArg Slice.items hnormal)
    refine ⟨?_, by rw [hnext]⟩
    rw [← Except.ok.inj hprojects]
    exact (List.map_congr_left fun p hp => hfixed p (List.mem_of_mem_filter hp)).trans
      (List.map_id _)
  | updateClusterLocked projectID clusterID patch =>
    cases hop
    refine editProject_in h hnormal version fun p hp ps hps => patched_in hps fun q hq => ?_
    refine editCluster_in hq hp fun c _ cs hcs => patched_in hcs fun d hd => ?_
    exact ⟨d, hd, rfl⟩
  | deleteClusterLocked projectID clusterID =>
    cases hop
    refine editProject_in h hnormal version fun p hp ps hps => patched_in hps fun q hq => ?_
    refine editCluster_in hq hp fun c _ cs hcs => ?_
    cases hcs
    rfl
  | updateNodeLocked projectID clusterID nodeID patch =>
    cases hop
    refine editProject_in h hnormal version fun p hp ps hps => patched_in hps fun q hq => ?_
    refine editCluster_in hq hp fun c hc cs hcs => patched_in hcs fun d hd => ?_
    refine editNode_in hd hc fun n ns hns => ?_
    exact patched_ok hns
  | deleteNodeLocked projectID clusterID nodeID =>
    cases hop
    refine editProject_in h hnormal version fun p hp ps hps => patched_in hps fun q hq => ?_
    refine editCluster_in hq hp fun c hc cs hcs => patched_in hcs fun d hd => ?_
    refine editNode_in hd hc fun n ns hns => ?_
    cases hns
    rfl
  | updateNodeStatus nodeId status lastError =>
    cases hop
    obtain ⟨hprojects, hnext⟩ := onProjects_ok h
    refine ⟨status_in hprojects hnormal, ?_⟩
    rw [hnext]
  | appendHost host =>
    cases hop
    obtain ⟨hhosts, hnext⟩ := onHosts_ok h
    refine ⟨⟨_, rfl, ?_⟩, ?_⟩
    · rw [← Except.ok.inj hhosts]
      rfl
    · rw [hnext]
      exact hnormal
  | updateHost id patch =>
    cases hop
    exact editHost_in h hnormal version fun x xs hxs => patched_ok hxs
  | deleteHost id =>
    cases hop
    refine editHost_in h hnormal version fun x xs hxs => ?_
    cases hxs
    rfl

theorem version_of_edit (hop : edit w op = some f) (h : f before = .ok next) :
    next.schemaVersion = before.schemaVersion := by
  cases op with
  | upsert | deleteByID | appendCluster | appendNode | writeAll | writeHosts => cases hop
  | updateProjectLocked | deleteProjectLocked | updateClusterLocked | deleteClusterLocked
  | updateNodeLocked | deleteNodeLocked | updateNodeStatus =>
    cases hop
    rw [(onProjects_ok h).2]
  | appendHost | updateHost | deleteHost =>
    cases hop
    rw [(onHosts_ok h).2]

end Edits

section Operations

variable {s : WorkspaceStore} {w w' : World} {op : Request} {torn : File} {paths after : Paths}
  {f : Envelope → Except String Envelope} {before env : Envelope} {file : File} {err : String}

/-- No password of the nodes that the edit yields begins like a ciphertext, or the
store has no key. -/
def PlainPasswords (s : WorkspaceStore) (f : Envelope → Except String Envelope)
    (before : Envelope) : Prop :=
  s.encKey = none ∨
    ∀ next, f before = .ok next → ∀ n ∈ allNodes next.projects, isEncrypted n.password = false

theorem read_again (h : readEnvelopeNoLock s w file = .ok env) (hread : w'.readError = none) :
    readEnvelopeNoLock s w' file = .ok env := by
  unfold readEnvelopeNoLock at h ⊢
  obtain ⟨-, -, h⟩ := bind_ok.mp h
  exact bind_ok.mpr ⟨(), by rw [hread]; rfl, h⟩

theorem readNode_of_plain (hplain : PlainPasswords s f before) (hnext : f before = .ok env) :
    ∀ n ∈ allNodes env.projects, readNode s n = n := by
  intro n hn
  obtain hkey | hall := hplain
  · unfold readNode
    rw [hkey]
  · exact readNode_plain (hall env hnext n hn)

theorem read_of_write_plain
    (hdecode : ∀ bytes, s.crypto.decodeString (s.crypto.encodeToString bytes) = .ok bytes)
    (hopen : ∀ key, s.encKey = some key → ∀ (nonce : Nonce) plain,
      s.crypto.gcmOpen key nonce.val (s.crypto.gcmSeal key nonce.val plain) = .ok plain)
    (hplain : ∀ n ∈ allNodes env.projects, readNode s n = n)
    (hwrite : writeEnvelopeLocked s w env = .ok file) (hread : w'.readError = none) :
    readEnvelopeNoLock s w' file = .ok
      ⟨if env.schemaVersion ≤ 0 then currentWorkspaceSchemaVersion else env.schemaVersion,
        normalizeProjects env.projects, env.hosts⟩ := by
  obtain ⟨projects, -, rfl⟩ := write_ok hwrite
  have hwritten : OnNodes (WrittenAs s) env.projects projects := projects_of_write hwrite
  have hback : decryptNodePasswords s.crypto s.encKey (normalizeProjects projects) =
      normalizeProjects env.projects := by
    rw [decrypt_eq, ← normalize_mapNodes, mapNodes_written hdecode hopen hwritten,
      mapNodes_fixed hplain]
  unfold readEnvelopeNoLock
  rw [hread, ← hback]
  rfl

/-- An operation that fails leaves the file as it is, and after one that succeeds a
read yields what the read before it yielded but for the entity that it addresses. -/
theorem operation_local (torn : File)
    (hdecode : ∀ bytes, s.crypto.decodeString (s.crypto.encodeToString bytes) = .ok bytes)
    (hopen : ∀ key, s.encKey = some key → ∀ (nonce : Nonce) plain,
      s.crypto.gcmOpen key nonce.val (s.crypto.gcmSeal key nonce.val plain) = .ok plain)
    (hop : edit w op = some f) (hbefore : readEnvelopeNoLock s quiet paths.file = .ok before)
    (hplain : PlainPasswords s f before) :
    (∀ err after, perform s w torn f paths = (.error err, after) → after.file = paths.file) ∧
      ∀ after, perform s w torn f paths = (.ok (), after) →
        ∃ env, readEnvelopeNoLock s quiet after.file = .ok env ∧ Changes w op before env ∧
          env.schemaVersion = if before.schemaVersion ≤ 0 then currentWorkspaceSchemaVersion
            else before.schemaVersion := by
  obtain ⟨tmp, hexec⟩ := perform_exec s w torn f paths
  refine ⟨fun err after hrun => ?_, fun after hrun => ?_⟩
  · rw [hexec] at hrun
    split at hrun
    · cases hrun
    · cases hrun
      rfl
  · rw [hexec] at hrun
    split at hrun
    next file hfile =>
      cases hrun
      obtain ⟨env, next, henv, hnext, hwrite⟩ := locked_ok hfile
      rw [read_again henv rfl] at hbefore
      cases hbefore
      have hquiet : quiet.readError = none := rfl
      have hback := read_of_write_plain hdecode hopen (readNode_of_plain hplain hnext) hwrite hquiet
      have hchanges := changes_of_edit hop hnext (projects_normal henv)
      rw [version_of_edit hop hnext] at hback
      exact ⟨_, hback, hchanges _, rfl⟩
    · cases hrun

end Operations

def renameNode : Request := .updateNodeLocked "p1" "c1" "n1" fun n => .ok { n with name := "db" }

theorem operation_local_renameNode :
    ∃ f, edit zeros renameNode = some f ∧
      let paths : Paths := ⟨.envelope (oneNode ""), .missing⟩
      (∀ err after, perform zeroStore zeros .blank f paths = (.error err, after) →
          after.file = paths.file) ∧
        ∀ after, perform zeroStore zeros .blank f paths = (.ok (), after) →
          ∃ env, readEnvelopeNoLock zeroStore quiet after.file = .ok env ∧
            Changes zeros renameNode (oneNode "") env ∧
            env.schemaVersion = if (oneNode "").schemaVersion ≤ 0 then currentWorkspaceSchemaVersion
              else (oneNode "").schemaVersion := by
  refine ⟨_, rfl, ?_⟩
  have hopen : ∀ key, zeroStore.encKey = some key → ∀ (nonce : Nonce) plain,
      zeroStore.crypto.gcmOpen key nonce.val (zeroStore.crypto.gcmSeal key nonce.val plain) =
        .ok plain := by
    intro key hkey nonce plain
    cases hkey
    exact zeroCrypto_open nonce.val plain
  refine operation_local .blank zeroCrypto_decode hopen rfl rfl (.inr fun next hnext => ?_)
  cases hnext
  decide

/-- What a read shows after an operation that succeeds. -/
def readAfter (s : WorkspaceStore) (op : Request) (file : File) : Option Envelope := do
  let edited ← edit quiet op
  match perform s quiet .blank edited ⟨file, .missing⟩ with
  | (.ok (), after) => (readEnvelopeNoLock s quiet after.file).toOption
  | (.error _, _) => none

/-- What `json.MarshalIndent` and a read make of a string: U+FFFD for each byte that begins no
character. -/
def marshalled (text : List UInt8) : String := .ofList (Basis.Utf8.decodeRunes text)

def legacyFile : File := .legacy (.of [⟨"p1", "shop", .of [], .of []⟩])

/-- A read after the operation on a legacy file differs in the schema version as well, and a
last error that is not UTF-8 is read with other bytes. -/
theorem operation_not_local :
    (∃ before after, readEnvelopeNoLock plainStore quiet legacyFile = .ok before ∧
      readAfter plainStore (.updateProjectLocked "p1" fun p => .ok { p with name := "shops" })
        legacyFile = some after ∧
      before.schemaVersion = 0 ∧ after.schemaVersion = 2) ∧
    ∃ after n, readAfter plainStore (.updateNodeStatus "n1" "error" (marshalled [0xFF]))
        (.envelope (oneNode "")) = some after ∧
      nodeAt after.projects ⟨0, 0, 0⟩ = some n ∧ n.lastError.toUTF8.toList ≠ [0xFF] := by
  refine ⟨⟨_, _, rfl, rfl, rfl, rfl⟩, _, _, rfl, rfl, ?_⟩
  decide +kernel

end LearnPg.Workspace.Locality
