import LearnPg.Api.Crud
import LearnPg.Workspace.Edits

/-! Lookups and edits by id do not look at what nodes hold: they commute with
every change of the nodes that keeps their ids. -/
namespace LearnPg.Workspace.Erasure

open Data Store Places Edits Api

theorem slice_map_map {α β γ : Type} (f : β → γ) (g : α → β) (xs : Slice α) :
    (xs.map g).map f = xs.map fun x => f (g x) := by
  cases xs with
  | nil => rfl
  | of xs => exact congrArg Slice.of (List.map_map ..)

section

variable {f g : Node → Node} {projects : Slice Project}

theorem mapNodes_mapNodes :
    mapNodes f (mapNodes g projects) = mapNodes (fun n => f (g n)) projects := by
  unfold mapNodes mapProject mapCluster
  simp only [slice_map_map]

theorem normalize_mapNodes :
    normalizeProjects (mapNodes g projects) = mapNodes g (normalizeProjects projects) := by
  have hcluster (c : Cluster) :
      normalizeCluster (mapCluster g c) = mapCluster g (normalizeCluster c) := by
    unfold normalizeCluster mapCluster
    rw [items_map, map_of]
  have hproject (p : Project) :
      normalizeProject (mapProject g p) = mapProject g (normalizeProject p) := by
    unfold normalizeProject mapProject
    simp only [items_map, map_of, List.map_map, Function.comp_def, hcluster]
  unfold normalizeProjects mapNodes
  simp only [items_map, map_of, List.map_map, Function.comp_def, hproject]

section Lookup

theorem find_mapNodes (hid : ∀ n, (g n).id = n.id) (nodeID : String) (c : Cluster) :
    (mapCluster g c).nodes.items.find? (·.id = nodeID) =
      (c.nodes.items.find? (·.id = nodeID)).map g := by
  unfold mapCluster
  rw [items_map, List.find?_map]
  congr 2
  funext n
  simp [hid]

theorem locateNode_mapNodes (hid : ∀ n, (g n).id = n.id) (nodeID : String) :
    locateNode (mapNodes g projects) nodeID =
      (locateNode projects nodeID).map fun found => (found.1, found.2.1, g found.2.2) := by
  unfold locateNode mapNodes
  rw [items_map, List.findSome?_map, List.map_findSome?]
  congr 1
  funext p
  simp only [Function.comp, mapProject, items_map, List.findSome?_map, List.map_findSome?]
  congr 1
  funext c
  simp only [Function.comp, find_mapNodes hid, Option.map_map]
  rfl

theorem locateCluster_mapNodes (g : Node → Node) (clusterID : String) :
    locateCluster (mapNodes g projects) clusterID =
      (locateCluster projects clusterID).map fun found => (mapCluster g found.1, found.2) := by
  unfold locateCluster mapNodes
  rw [items_map, List.findSome?_map, List.map_findSome?]
  congr 1
  funext p
  simp only [Function.comp, mapProject, items_map, List.find?_map, Option.map_map]
  rfl

theorem projectByID_mapNodes (g : Node → Node) (id : String) :
    projectByID (mapNodes g projects) id = (projectByID projects id).map (mapProject g) := by
  unfold projectByID mapNodes
  rw [items_map, List.find?_map]
  rfl

theorem clusterByIDs_mapNodes (g : Node → Node) (projectID clusterID : String) :
    clusterByIDs (mapNodes g projects) projectID clusterID =
      (clusterByIDs projects projectID clusterID).map (mapCluster g) := by
  unfold clusterByIDs
  rw [projectByID_mapNodes]
  cases projectByID projects projectID with
  | none => rfl
  | some p =>
    simp only [Option.map_some, Option.bind_some, mapProject, items_map, List.find?_map]
    rfl

theorem nodeByIDs_mapNodes (hid : ∀ n, (g n).id = n.id) (projectID clusterID nodeID : String) :
    nodeByIDs (mapNodes g projects) projectID clusterID nodeID =
      (nodeByIDs projects projectID clusterID nodeID).map g := by
  unfold nodeByIDs
  rw [clusterByIDs_mapNodes]
  cases clusterByIDs projects projectID clusterID with
  | none => rfl
  | some c => exact find_mapNodes hid nodeID c

end Lookup

section Edit

variable {α β ε : Type}

theorem editSlice_map {h : α → β} {f : α → Option (Except ε (List α))}
    {f' : β → Option (Except ε (List β))}
    (hf : ∀ x, f' (h x) = (f x).map (·.map (List.map h))) (missing : ε) (xs : Slice α) :
    editSlice f' missing (xs.map h) = (editSlice f missing xs).map (Slice.map h) := by
  have hfirst (xs : List α) :
      editFirst f' (xs.map h) = (editFirst f xs).map (·.map (List.map h)) := by
    induction xs with
    | nil => rfl
    | cons x xs ih =>
      rw [List.map_cons]
      unfold editFirst
      rw [hf, ih]
      cases f x with
      | some r => cases r <;> simp [Except.map]
      | none =>
        cases editFirst f xs with
        | none => rfl
        | some r => cases r <;> rfl
  unfold editSlice
  rw [items_map, hfirst]
  cases editFirst f xs.items with
  | none => rfl
  | some r => cases r <;> rfl

theorem editById_map (h : α → β) (key : α → String) (key' : β → String) (id : String)
    {patch : α → Except ε α} {patch' : β → Except ε β} (hkey : ∀ x, key' (h x) = key x)
    (hpatch : ∀ x, patch' (h x) = (patch x).map h) (missing : ε) (xs : Slice α) :
    editSlice (fun y => if key' y = id then some (patched patch' y) else none) missing (xs.map h) =
      (editSlice (fun x => if key x = id then some (patched patch x) else none) missing xs).map
        (Slice.map h) := by
  apply editSlice_map
  intro x
  rw [hkey]
  split
  · unfold patched
    rw [hpatch]
    cases patch x <;> rfl
  · rfl

theorem editById_outcome (h : α → β) (key : α → String) (key' : β → String) (id : String)
    {patch : α → Except ε α} {patch' : β → Except ε β} (hkey : ∀ x, key' (h x) = key x)
    (hpatch : ∀ x, (patch' (h x)).map (fun _ => ()) = (patch x).map fun _ => ())
    (missing : ε) (xs : Slice α) :
    (editSlice (fun y => if key' y = id then some (patched patch' y) else none) missing
        (xs.map h)).map (fun _ => ()) =
      (editSlice (fun x => if key x = id then some (patched patch x) else none) missing xs).map
        fun _ => () := by
  have hpatched (x : α) :
      (patched patch' (h x)).map (fun _ => ()) = (patched patch x).map fun _ => () := by
    have hx := hpatch x
    unfold patched
    cases hy : patch' (h x) <;> cases hz : patch x <;> rw [hy, hz] at hx <;> cases hx <;> rfl
  have hfirst (xs : List α) :
      (editFirst (fun y => if key' y = id then some (patched patch' y) else none)
          (xs.map h)).map (Except.map fun _ => ()) =
        (editFirst (fun x => if key x = id then some (patched patch x) else none) xs).map
          (Except.map fun _ => ()) := by
    induction xs with
    | nil => rfl
    | cons x xs ih =>
      rw [List.map_cons]
      unfold editFirst
      rw [hkey]
      by_cases hid : key x = id
      · have hx := hpatched x
        rw [if_pos hid, if_pos hid]
        cases hy : patched patch' (h x) <;> cases hz : patched patch x <;>
          rw [hy, hz] at hx <;> cases hx <;> rfl
      · rw [if_neg hid, if_neg hid]
        dsimp only
        rw [Option.map_map, Option.map_map]
        have hmap {γ : Type} (f : List γ → List γ) :
            (Except.map (ε := ε) fun _ => ()) ∘ Except.map f = Except.map fun _ => () := by
          funext r
          cases r <;> rfl
        rw [hmap, hmap]
        exact ih
  have hxs := hfirst xs.items
  unfold editSlice
  rw [items_map]
  cases hy : editFirst (fun y => if key' y = id then some (patched patch' y) else none)
      (xs.items.map h) with
  | none =>
    rw [hy] at hxs
    rw [Option.map_eq_none_iff.mp hxs.symm]
    rfl
  | some r =>
    rw [hy] at hxs
    obtain ⟨r', hr', heq⟩ := Option.map_eq_some_iff.mp hxs.symm
    rw [hr']
    cases r <;> cases r' <;> cases heq <;> rfl

variable (g : Node → Node) {id projectID clusterID nodeID : String}

theorem updateProject_mapNodes {patch patch' : Project → Except String Project}
    (hpatch : ∀ p, patch' (mapProject g p) = (patch p).map (mapProject g)) :
    updateProject id patch' (mapNodes g projects) =
      (updateProject id patch projects).map (mapNodes g) :=
  editById_map (mapProject g) Project.id Project.id id (fun _ => rfl) hpatch _ projects

theorem editCluster_mapNodes {patch patch' : Cluster → Except String Cluster}
    (hpatch : ∀ c, patch' (mapCluster g c) = (patch c).map (mapCluster g)) (p : Project) :
    editCluster clusterID (patched patch') (mapProject g p) =
      (editCluster clusterID (patched patch) p).map (mapProject g) := by
  unfold editCluster
  have hclusters := editById_map (mapCluster g) Cluster.id Cluster.id clusterID
    (fun _ => rfl) hpatch ("cluster not found: " ++ clusterID) p.clusters
  change (editSlice _ _ (p.clusters.map (mapCluster g)) >>= _) = _
  rw [hclusters]
  cases editSlice (fun c : Cluster => if c.id = clusterID then some (patched patch c) else none)
    ("cluster not found: " ++ clusterID) p.clusters <;> rfl

theorem updateCluster_mapNodes {patch patch' : Cluster → Except String Cluster}
    (hpatch : ∀ c, patch' (mapCluster g c) = (patch c).map (mapCluster g)) :
    updateCluster projectID clusterID patch' (mapNodes g projects) =
      (updateCluster projectID clusterID patch projects).map (mapNodes g) :=
  editById_map (mapProject g) Project.id Project.id projectID (fun _ => rfl)
    (editCluster_mapNodes g hpatch) _ projects

theorem updateNode_mapNodes {patch patch' : Node → Except String Node}
    (hid : ∀ n, (g n).id = n.id) (hpatch : ∀ n, patch' (g n) = (patch n).map g) :
    updateNode projectID clusterID nodeID patch' (mapNodes g projects) =
      (updateNode projectID clusterID nodeID patch projects).map (mapNodes g) := by
  apply editById_map (mapProject g) Project.id Project.id projectID fun _ => rfl
  apply editCluster_mapNodes
  intro c
  unfold editNode
  have hnodes := editById_map g Node.id Node.id nodeID hid hpatch
    ("node not found: " ++ nodeID) c.nodes
  change (editSlice _ _ (c.nodes.map g) >>= _) = _
  rw [hnodes]
  cases editSlice (fun n : Node => if n.id = nodeID then some (patched patch n) else none)
    ("node not found: " ++ nodeID) c.nodes <;> rfl

end Edit

section Skeleton

def skNode (n : Node) : String × String := (n.id, n.dsn)

def skCluster (c : Cluster) : String × List (String × String) := (c.id, c.nodes.items.map skNode)

def skProject (p : Project) : String × List (String × List (String × String)) :=
  (p.id, p.clusters.items.map skCluster)

/-- The ids and the DSNs, which the edits of fields leave as they are. -/
def skeleton (projects : Slice Project) : List (String × List (String × List (String × String))) :=
  projects.items.map skProject

variable {ps qs : Slice Project}

theorem projectByID_skeleton (h : skeleton ps = skeleton qs) (id : String) :
    (projectByID ps id).map skProject = (projectByID qs id).map skProject := by
  have hfind (ps : Slice Project) : (projectByID ps id).map skProject =
      (skeleton ps).find? (·.1 = id) := by
    unfold projectByID skeleton
    rw [List.find?_map]
    rfl
  rw [hfind, hfind, h]

theorem locateCluster_skeleton (h : skeleton ps = skeleton qs) (id : String) :
    (locateCluster ps id).map (fun found => (skCluster found.1, found.2)) =
      (locateCluster qs id).map fun found => (skCluster found.1, found.2) := by
  have hfind (ps : Slice Project) :
      (locateCluster ps id).map (fun found => (skCluster found.1, found.2)) =
        (skeleton ps).findSome? fun p => (p.2.find? (·.1 = id)).map fun c => (c, p.1) := by
    unfold locateCluster skeleton
    rw [List.findSome?_map, List.map_findSome?]
    congr 1
    funext p
    simp only [Function.comp, skProject, List.find?_map, Option.map_map]
    rfl
  rw [hfind, hfind, h]

theorem locateNode_skeleton (h : skeleton ps = skeleton qs) (id : String) :
    (locateNode ps id).map (fun found => (found.1, found.2.1, skNode found.2.2)) =
      (locateNode qs id).map fun found => (found.1, found.2.1, skNode found.2.2) := by
  have hfind (ps : Slice Project) :
      (locateNode ps id).map (fun found => (found.1, found.2.1, skNode found.2.2)) =
        (skeleton ps).findSome? fun p => p.2.findSome? fun c =>
          (c.2.find? (·.1 = id)).map fun n => (p.1, c.1, n) := by
    unfold locateNode skeleton
    rw [List.findSome?_map, List.map_findSome?]
    congr 1
    funext p
    simp only [Function.comp, skProject, List.findSome?_map, List.map_findSome?]
    congr 1
    funext c
    simp only [Function.comp, skCluster, List.find?_map, Option.map_map]
    rfl
  rw [hfind, hfind, h]

theorem clusterByIDs_skeleton (h : skeleton ps = skeleton qs) (projectID clusterID : String) :
    (clusterByIDs ps projectID clusterID).map skCluster =
      (clusterByIDs qs projectID clusterID).map skCluster := by
  have hbind (ps : Slice Project) : (clusterByIDs ps projectID clusterID).map skCluster =
      ((projectByID ps projectID).map skProject).bind fun p =>
        p.2.find? (·.1 = clusterID) := by
    unfold clusterByIDs
    cases projectByID ps projectID with
    | none => rfl
    | some p =>
      simp only [Option.map_some, Option.bind_some, skProject, List.find?_map]
      rfl
  rw [hbind, hbind, projectByID_skeleton h]

theorem nodeByIDs_skeleton (h : skeleton ps = skeleton qs) (projectID clusterID nodeID : String) :
    (nodeByIDs ps projectID clusterID nodeID).map skNode =
      (nodeByIDs qs projectID clusterID nodeID).map skNode := by
  have hbind (ps : Slice Project) : (nodeByIDs ps projectID clusterID nodeID).map skNode =
      ((clusterByIDs ps projectID clusterID).map skCluster).bind fun c =>
        c.2.find? (·.1 = nodeID) := by
    unfold nodeByIDs
    cases clusterByIDs ps projectID clusterID with
    | none => rfl
    | some c =>
      simp only [Option.map_some, Option.bind_some, skCluster, List.find?_map]
      rfl
  rw [hbind, hbind, clusterByIDs_skeleton h]

theorem skeleton_mapNodes {g : Node → Node} (hg : ∀ n, skNode (g n) = skNode n) :
    skeleton (mapNodes g ps) = skeleton ps := by
  unfold skeleton mapNodes
  simp only [items_map, List.map_map, Function.comp_def, skProject, mapProject, skCluster,
    mapCluster, hg]
  rfl

theorem skeleton_normalize : skeleton (normalizeProjects ps) = skeleton ps := by
  unfold skeleton normalizeProjects
  simp only [items_of, List.map_map, Function.comp_def, skProject, normalizeProject, skCluster,
    normalizeCluster]
  rfl

theorem editById_keeps {α γ ε : Type} {key : α → String} {id : String}
    {patch : α → Except ε α} {sk : α → γ} (hpatch : ∀ x y, patch x = .ok y → sk y = sk x)
    {missing : ε} {xs ys : Slice α}
    (h : editSlice (fun x => if key x = id then some (patched patch x) else none) missing xs =
      .ok ys) : ys.items.map sk = xs.items.map sk := by
  obtain ⟨pre, x, post, zs, hxs, -, -, hzs, rfl⟩ := editById_ok h
  obtain ⟨y, hy, rfl⟩ := patched_ok hzs
  rw [hxs, items_of]
  simp only [List.map_append, List.map_cons, List.singleton_append, hpatch x y hy]

theorem skCluster_keeps {clusterID : String} {patch : Cluster → Except String Cluster}
    (hpatch : ∀ c d, patch c = .ok d → skCluster d = skCluster c) {p q : Project}
    (h : editCluster clusterID (patched patch) p = .ok q) : skProject q = skProject p := by
  obtain ⟨clusters, hclusters, rfl⟩ := editCluster_ok h
  unfold skProject
  rw [editById_keeps hpatch hclusters]

theorem skNode_keeps {nodeID : String} {patch : Node → Except String Node}
    (hpatch : ∀ n m, patch n = .ok m → skNode m = skNode n) {c d : Cluster}
    (h : editNode nodeID (patched patch) c = .ok d) : skCluster d = skCluster c := by
  obtain ⟨nodes, hnodes, rfl⟩ := editNode_ok h
  unfold skCluster
  rw [editById_keeps hpatch hnodes]

end Skeleton

/-- An edit by id succeeds where the id is found and the edit of what is found does. -/
theorem editById_find {α ε : Type} (key : α → String) (id : String) (patch : α → Except ε α)
    (missing : ε) (xs : Slice α) :
    (editSlice (fun x => if key x = id then some (patched patch x) else none) missing xs).map
        (fun _ => ()) =
      match xs.items.find? (key · = id) with
      | none => .error missing
      | some x => (patch x).map fun _ => () := by
  have hfirst (xs : List α) :
      (editFirst (fun x => if key x = id then some (patched patch x) else none) xs).map
          (Except.map fun _ => ()) =
        (xs.find? (key · = id)).map fun x => (patch x).map fun _ => () := by
    induction xs with
    | nil => rfl
    | cons x xs ih =>
      unfold editFirst
      by_cases hid : key x = id
      · rw [if_pos hid, List.find?_cons_of_pos (p := (key · = id)) (decide_eq_true hid)]
        simp only [Option.map_some, patched]
        cases patch x <;> rfl
      · rw [if_neg hid, List.find?_cons_of_neg (p := (key · = id)) (by simpa using hid), ← ih]
        cases editFirst (fun x => if key x = id then some (patched patch x) else none) xs with
        | none => rfl
        | some r => cases r <;> rfl
  have hxs := hfirst xs.items
  unfold editSlice
  cases hr : editFirst (fun x => if key x = id then some (patched patch x) else none)
      xs.items with
  | none =>
    rw [hr] at hxs
    rw [Option.map_eq_none_iff.mp hxs.symm]
    rfl
  | some r =>
    rw [hr] at hxs
    obtain ⟨x, hx, heq⟩ := Option.map_eq_some_iff.mp hxs.symm
    rw [hx]
    apply Eq.trans _ heq.symm
    cases r <;> rfl

theorem editById_ok_iff {α ε : Type} (key : α → String) (id : String) {patch : α → Except ε α}
    (missing : ε) (xs : Slice α) :
    (∃ ys, editSlice (fun x => if key x = id then some (patched patch x) else none) missing xs =
        .ok ys) ↔ ∃ x y, xs.items.find? (key · = id) = some x ∧ patch x = .ok y := by
  have hfind := editById_find key id patch missing xs
  constructor
  · rintro ⟨ys, hys⟩
    rw [hys] at hfind
    cases hx : xs.items.find? (key · = id) with
    | none =>
      rw [hx] at hfind
      cases hfind
    | some x =>
      rw [hx] at hfind
      cases hy : patch x with
      | error e =>
        simp only [hy] at hfind
        cases hfind
      | ok y => exact ⟨x, y, rfl, hy⟩
  · rintro ⟨x, y, hx, hy⟩
    simp only [hx, hy] at hfind
    cases hys : editSlice (fun x => if key x = id then some (patched patch x) else none)
        missing xs with
    | error e =>
      rw [hys] at hfind
      cases hfind
    | ok ys => exact ⟨ys, rfl⟩

theorem updateProject_ok_iff {id : String} (f : Project → Project) :
    (∃ next, updateProject id (fun p => .ok (f p)) projects = .ok next) ↔
      (projectByID projects id).isSome := by
  apply (editById_ok_iff Project.id _ _ projects).trans
  rw [Option.isSome_iff_exists]
  exact exists_congr fun p => ⟨fun ⟨_, hp, _⟩ => hp, fun hp => ⟨_, hp, rfl⟩⟩

theorem editCluster_ok_iff {clusterID : String} {patch : Cluster → Except String Cluster}
    (p : Project) : (∃ q, editCluster clusterID (patched patch) p = .ok q) ↔
      ∃ c d, p.clusters.items.find? (·.id = clusterID) = some c ∧ patch c = .ok d := by
  rw [← editById_ok_iff Cluster.id clusterID ("cluster not found: " ++ clusterID)]
  unfold editCluster
  exact ⟨fun ⟨q, hq⟩ => (bind_ok.mp hq).imp fun _ h => h.1,
    fun ⟨clusters, h⟩ => ⟨_, bind_ok.mpr ⟨clusters, h, rfl⟩⟩⟩

theorem editNode_ok_iff {nodeID : String} {patch : Node → Except String Node} (c : Cluster) :
    (∃ d, editNode nodeID (patched patch) c = .ok d) ↔
      ∃ n m, c.nodes.items.find? (·.id = nodeID) = some n ∧ patch n = .ok m := by
  rw [← editById_ok_iff Node.id nodeID ("node not found: " ++ nodeID)]
  unfold editNode
  exact ⟨fun ⟨d, hd⟩ => (bind_ok.mp hd).imp fun _ h => h.1,
    fun ⟨nodes, h⟩ => ⟨_, bind_ok.mpr ⟨nodes, h, rfl⟩⟩⟩

theorem updateCluster_ok_iff {projectID clusterID : String} (f : Cluster → Cluster) :
    (∃ next, updateCluster projectID clusterID (fun c => .ok (f c)) projects = .ok next) ↔
      (clusterByIDs projects projectID clusterID).isSome := by
  apply (editById_ok_iff Project.id _ _ projects).trans
  unfold clusterByIDs
  simp only [Option.isSome_iff_exists, Option.bind_eq_some_iff]
  constructor
  · rintro ⟨p, q, hp, hq⟩
    obtain ⟨c, d, hc, -⟩ := (editCluster_ok_iff p).mp ⟨q, hq⟩
    exact ⟨c, p, hp, hc⟩
  · rintro ⟨c, p, hp, hc⟩
    have hedit : ∃ q, editCluster clusterID (patched fun c => .ok (f c)) p = .ok q :=
      (editCluster_ok_iff p).mpr ⟨c, f c, hc, rfl⟩
    obtain ⟨q, hq⟩ := hedit
    exact ⟨p, q, hp, hq⟩

theorem updateNode_ok_iff {projectID clusterID nodeID : String} (f : Node → Node) :
    (∃ next, updateNode projectID clusterID nodeID (fun n => .ok (f n)) projects = .ok next) ↔
      (nodeByIDs projects projectID clusterID nodeID).isSome := by
  apply (editById_ok_iff Project.id _ _ projects).trans
  unfold nodeByIDs clusterByIDs
  simp only [Option.isSome_iff_exists, Option.bind_eq_some_iff]
  constructor
  · rintro ⟨p, q, hp, hq⟩
    obtain ⟨c, d, hc, hd⟩ := (editCluster_ok_iff p).mp ⟨q, hq⟩
    obtain ⟨n, m, hn, -⟩ := (editNode_ok_iff c).mp ⟨d, hd⟩
    exact ⟨n, c, ⟨p, hp, hc⟩, hn⟩
  · rintro ⟨n, c, ⟨p, hp, hc⟩, hn⟩
    have hedit : ∃ d, editNode nodeID (patched fun n => .ok (f n)) c = .ok d :=
      (editNode_ok_iff c).mpr ⟨n, f n, hn, rfl⟩
    obtain ⟨d, hd⟩ := hedit
    obtain ⟨q, hq⟩ := (editCluster_ok_iff p).mpr ⟨c, d, hc, hd⟩
    exact ⟨p, q, hp, hq⟩

end

end LearnPg.Workspace.Erasure
