import LearnPg.Workspace.Places

/-! What an edit of the first match leaves of the list around it, and where the
other nodes are afterwards. -/
namespace LearnPg.Workspace.Edits

open Data Store Places LearnPg.Basis.Sections

def without (j i : Nat) : Option Nat :=
  if i = j then none else some (if i < j then i else i - 1)

section Lists

variable {α ε : Type} {xs ys pre post : List α} {x y : α} {i j : Nat}

theorem editFirst_ok {f : α → Option (Except ε (List α))} (h : editFirst f xs = some (.ok ys)) :
    ∃ pre x post zs, xs = pre ++ x :: post ∧ (∀ y ∈ pre, f y = none) ∧ f x = some (.ok zs) ∧
      ys = pre ++ (zs ++ post) := by
  induction xs generalizing ys with
  | nil => cases h
  | cons x xs ih =>
    unfold editFirst at h
    cases hx : f x with
    | some r =>
      rw [hx] at h
      cases r with
      | error e => cases h
      | ok zs =>
        cases h
        exact ⟨[], x, xs, zs, rfl, List.forall_mem_nil _, hx, rfl⟩
    | none =>
      rw [hx] at h
      obtain ⟨r, hr, hys⟩ := Option.map_eq_some_iff.mp h
      cases r with
      | error e => cases hys
      | ok rest =>
        cases hys
        obtain ⟨pre, a, post, zs, rfl, hpre, ha, rfl⟩ := ih hr
        exact ⟨x :: pre, a, post, zs, rfl, List.forall_mem_cons.mpr ⟨hx, hpre⟩, ha, rfl⟩

theorem editFirst_none {f : α → Option (Except ε (List α))} :
    editFirst f xs = none ↔ ∀ x ∈ xs, f x = none := by
  induction xs with
  | nil => exact iff_of_true rfl (List.forall_mem_nil _)
  | cons x xs ih =>
    unfold editFirst
    rw [List.forall_mem_cons]
    cases hx : f x with
    | some r => simp
    | none => simp [ih]

theorem editSlice_ok {f : α → Option (Except ε (List α))} {missing : ε} {xs ys : Slice α}
    (h : editSlice f missing xs = .ok ys) :
    ∃ pre x post zs, xs.items = pre ++ x :: post ∧ (∀ y ∈ pre, f y = none) ∧
      f x = some (.ok zs) ∧ ys = .of (pre ++ (zs ++ post)) := by
  unfold editSlice at h
  cases hr : editFirst f xs.items with
  | none =>
    rw [hr] at h
    cases h
  | some r =>
    rw [hr] at h
    cases r with
    | error e => cases h
    | ok ys =>
      cases h
      obtain ⟨pre, x, post, zs, hxs, hpre, hx, rfl⟩ := editFirst_ok hr
      exact ⟨pre, x, post, zs, hxs, hpre, hx, rfl⟩

theorem editById_ok {key : α → String} {id : String} {f : α → Except ε (List α)} {missing : ε}
    {xs ys : Slice α}
    (h : editSlice (fun x => if key x = id then some (f x) else none) missing xs = .ok ys) :
    ∃ pre x post zs, xs.items = pre ++ x :: post ∧ (∀ y ∈ pre, key y ≠ id) ∧ key x = id ∧
      f x = .ok zs ∧ ys = .of (pre ++ (zs ++ post)) := by
  obtain ⟨pre, x, post, zs, hxs, hpre, hx, hys⟩ := editSlice_ok h
  have hid : key x = id := by
    by_contra hne
    rw [if_neg hne] at hx
    cases hx
  rw [if_pos hid, Option.some.injEq] at hx
  refine ⟨pre, x, post, zs, hxs, fun y hy heq => ?_, hid, hx, hys⟩
  have hnone := hpre y hy
  rw [if_pos heq] at hnone
  cases hnone

theorem patched_ok {patch : α → Except ε α} {zs : List α} (h : patched patch x = .ok zs) :
    ∃ y, patch x = .ok y ∧ zs = [y] := by
  unfold patched at h
  cases hy : patch x with
  | error e =>
    rw [hy] at h
    cases h
  | ok y =>
    rw [hy] at h
    cases h
    exact ⟨y, rfl, rfl⟩

theorem findIdx?_around (key : α → String) {id : String} (hpre : ∀ y ∈ pre, key y ≠ id)
    (hx : key x = id) : (pre ++ x :: post).findIdx? (key · = id) = some pre.length := by
  have hnone : pre.findIdx? (key · = id) = none := by
    apply List.findIdx?_eq_none_iff.mpr
    intro y hy
    exact decide_eq_false (hpre y hy)
  rw [List.findIdx?_append, hnone, List.findIdx?_cons, if_pos (decide_eq_true hx)]
  simp

theorem getElem?_around :
    (pre ++ y :: post)[i]? = if i = pre.length then some y else (pre ++ x :: post)[i]? := by
  by_cases hi : i = pre.length
  · rw [if_pos hi, hi]
    simp
  · rw [if_neg hi, List.getElem?_append, List.getElem?_append]
    split
    · rfl
    · obtain ⟨k, hk⟩ := Nat.exists_eq_succ_of_ne_zero (n := i - pre.length) (by omega)
      rw [hk, List.getElem?_cons_succ, List.getElem?_cons_succ]

theorem getElem?_without (h : without pre.length i = some j) :
    (pre ++ post)[j]? = (pre ++ x :: post)[i]? := by
  unfold without at h
  split at h
  · cases h
  cases h
  split
  next hlt => rw [List.getElem?_append_left hlt, List.getElem?_append_left hlt]
  next hge =>
    rw [List.getElem?_append_right (by omega), List.getElem?_append_right (by omega)]
    obtain ⟨k, hk⟩ := Nat.exists_eq_succ_of_ne_zero (n := i - pre.length) (by omega)
    rw [hk, List.getElem?_cons_succ]
    congr 1
    omega

end Lists

/-- If the place is within the first element with the id, `f` tells where its node
is after the edit of that element. -/
def within {α : Type} (key : α → String) (id : String) (xs : List α) (i : Nat) (place : Place)
    (f : α → Option Place) : Option Place :=
  if xs.findIdx? (key · = id) = some i then xs[i]?.bind f else some place

def kept (place : Place) (before after : Option Node) : Option Place :=
  if after.map (·.password) = before.map (·.password) then some place else none

/-- Where the node at a place is after an operation that neither replaces it or its
password nor deletes it. `projects` is what the operation reads. -/
def follow (projects : Slice Project) (place : Place) : Request → Option Place
  | .upsert p => within Project.id p.id projects.items place.project place fun _ => none
  | .deleteByID id | .deleteProjectLocked id =>
    projects.items[place.project]?.bind fun p =>
      if p.id = id then none
      else
        let before := (projects.items.take place.project).filter (·.id ≠ id)
        some { place with project := before.length }
  | .writeAll _ => none
  | .updateProjectLocked id patch =>
    within Project.id id projects.items place.project place fun p =>
      kept place (projectNode place p) ((patch p).toOption.bind (projectNode place))
  | .updateClusterLocked projectID clusterID patch =>
    within Project.id projectID projects.items place.project place fun p =>
      within Cluster.id clusterID p.clusters.items place.cluster place fun c =>
        kept place (clusterNode place c) ((patch c).toOption.bind (clusterNode place))
  | .deleteClusterLocked projectID clusterID =>
    within Project.id projectID projects.items place.project place fun p =>
      (p.clusters.items.findIdx? (·.id = clusterID)).bind fun j =>
        (without j place.cluster).map fun i => { place with cluster := i }
  | .updateNodeLocked projectID clusterID nodeID patch =>
    within Project.id projectID projects.items place.project place fun p =>
      within Cluster.id clusterID p.clusters.items place.cluster place fun c =>
        within Node.id nodeID c.nodes.items place.node place fun n =>
          kept place (some n) (patch n).toOption
  | .deleteNodeLocked projectID clusterID nodeID =>
    within Project.id projectID projects.items place.project place fun p =>
      within Cluster.id clusterID p.clusters.items place.cluster place fun c =>
        (c.nodes.items.findIdx? (·.id = nodeID)).bind fun j =>
          (without j place.node).map fun i => { place with node := i }
  | .appendCluster .. | .appendNode .. | .updateNodeStatus .. => some place
  | .writeHosts _ | .appendHost _ | .updateHost .. | .deleteHost _ => some place

section

variable {α : Type} {key : α → String} {id projectID clusterID nodeID : String}
  {pre post : List α} {x y : α} {i : Nat} {place place' : Place} {projects next : Slice Project}
  {p q : Project} {c d : Cluster} {n n' : Node} {ps' : List Project} {cs' : List Cluster}
  {ns' : List Node}

theorem within_around {f : α → Option Place} (hpre : ∀ y ∈ pre, key y ≠ id) (hx : key x = id)
    (h : within key id (pre ++ x :: post) i place f = some place') :
    i = pre.length ∧ f x = some place' ∨ i ≠ pre.length ∧ place' = place := by
  unfold within at h
  rw [findIdx?_around key hpre hx] at h
  split at h
  next hi =>
    cases hi
    rw [List.getElem?_append_right (Nat.le_refl _), Nat.sub_self, List.getElem?_cons_zero,
      Option.bind_some] at h
    exact .inl ⟨rfl, h⟩
  next hi =>
    cases h
    exact .inr ⟨fun heq => hi (congrArg some heq.symm), rfl⟩

theorem within_self (key : α → String) (id : String) (xs : List α) (i : Nat) (place : Place) :
    within key id xs i place (fun _ => some place) = some place := by
  unfold within
  split
  next hi =>
    obtain ⟨hlt, -⟩ := List.findIdx?_eq_some_iff_getElem.mp hi
    rw [List.getElem?_eq_getElem hlt, Option.bind_some]
  next => rfl

/-- A node is still there, with the password it had. -/
def KeepsPassword (before after : Option Node) : Prop :=
  ∀ pw, before.map (·.password) = some pw → after.map (·.password) = some pw

theorem kept_keeps {before after : Option Node} (h : kept place before after = some place') :
    place' = place ∧ KeepsPassword before after := by
  unfold kept at h
  split at h
  next hsame =>
    cases h
    exact ⟨rfl, fun pw hpw => hsame.trans hpw⟩
  next => cases h

theorem nodeAt_around {ps : List Project} (h : projects.items = ps ++ p :: ps') :
    nodeAt (.of (ps ++ q :: ps')) place =
      if place.project = ps.length then projectNode place q else nodeAt projects place := by
  unfold nodeAt
  rw [items_of, h, getElem?_around (x := p) (y := q)]
  split <;> rfl

theorem projectNode_around {cs : List Cluster} (h : p.clusters.items = cs ++ c :: cs') :
    projectNode place { p with clusters := .of (cs ++ d :: cs') } =
      if place.cluster = cs.length then clusterNode place d else projectNode place p := by
  unfold projectNode
  rw [items_of, h, getElem?_around (x := c) (y := d)]
  split <;> rfl

theorem clusterNode_around {ns : List Node} (h : c.nodes.items = ns ++ n :: ns') :
    clusterNode place { c with nodes := .of (ns ++ n' :: ns') } =
      if place.node = ns.length then some n' else clusterNode place c := by
  unfold clusterNode
  rw [items_of, h, getElem?_around (x := n) (y := n')]

theorem nodeAt_middle {ps : List Project} (h : projects.items = ps ++ p :: ps')
    (hplace : place.project = ps.length) : nodeAt projects place = projectNode place p := by
  unfold nodeAt
  rw [h, hplace, List.getElem?_append_right (Nat.le_refl _), Nat.sub_self,
    List.getElem?_cons_zero, Option.bind_some]

theorem projectNode_middle {cs : List Cluster} (h : p.clusters.items = cs ++ c :: cs')
    (hplace : place.cluster = cs.length) : projectNode place p = clusterNode place c := by
  unfold projectNode
  rw [h, hplace, List.getElem?_append_right (Nat.le_refl _), Nat.sub_self,
    List.getElem?_cons_zero, Option.bind_some]

theorem clusterNode_middle {ns : List Node} (h : c.nodes.items = ns ++ n :: ns')
    (hplace : place.node = ns.length) : clusterNode place c = some n := by
  unfold clusterNode
  rw [h, hplace, List.getElem?_append_right (Nat.le_refl _), Nat.sub_self,
    List.getElem?_cons_zero]

theorem editProject_kept {patch : Project → Except String Project} {f : Project → Option Place}
    (h : editProject projectID (patched patch) projects = .ok next)
    (hfollow : within Project.id projectID projects.items place.project place f = some place')
    (hpatch : ∀ p q, patch p = .ok q → f p = some place' → place'.project = place.project ∧
      KeepsPassword (projectNode place p) (projectNode place' q)) :
    KeepsPassword (nodeAt projects place) (nodeAt next place') := by
  obtain ⟨pre, p, post, zs, hitems, hpre, hid, hzs, rfl⟩ := editById_ok h
  obtain ⟨q, hq, rfl⟩ := patched_ok hzs
  rw [hitems] at hfollow
  rw [List.singleton_append, nodeAt_around hitems]
  obtain ⟨hi, hf⟩ | ⟨hi, rfl⟩ := within_around hpre hid hfollow
  · obtain ⟨hsame, hkept⟩ := hpatch p q hq hf
    rw [if_pos (hsame.trans hi), nodeAt_middle hitems hi]
    exact hkept
  · rw [if_neg hi]
    exact fun _ hpw => hpw

theorem editCluster_kept {patch : Cluster → Except String Cluster} {f : Cluster → Option Place}
    (h : editCluster clusterID (patched patch) p = .ok q)
    (hfollow : within Cluster.id clusterID p.clusters.items place.cluster place f = some place')
    (hpatch : ∀ c d, patch c = .ok d → f c = some place' → place'.project = place.project ∧
      place'.cluster = place.cluster ∧
      KeepsPassword (clusterNode place c) (clusterNode place' d)) :
    place'.project = place.project ∧
      KeepsPassword (projectNode place p) (projectNode place' q) := by
  obtain ⟨clusters, hclusters, rfl⟩ := editCluster_ok h
  obtain ⟨pre, c, post, zs, hitems, hpre, hid, hzs, rfl⟩ := editById_ok hclusters
  obtain ⟨d, hd, rfl⟩ := patched_ok hzs
  rw [hitems] at hfollow
  rw [List.singleton_append, projectNode_around hitems]
  obtain ⟨hi, hf⟩ | ⟨hi, rfl⟩ := within_around hpre hid hfollow
  · obtain ⟨hproject, hsame, hkept⟩ := hpatch c d hd hf
    rw [if_pos (hsame.trans hi), projectNode_middle hitems hi]
    exact ⟨hproject, hkept⟩
  · rw [if_neg hi]
    exact ⟨rfl, fun _ hpw => hpw⟩

theorem editNode_kept {patch : Node → Except String Node}
    (h : editNode nodeID (patched patch) c = .ok d)
    (hfollow : within Node.id nodeID c.nodes.items place.node place
      (fun n => kept place (some n) (patch n).toOption) = some place') :
    place'.project = place.project ∧ place'.cluster = place.cluster ∧
      KeepsPassword (clusterNode place c) (clusterNode place' d) := by
  obtain ⟨nodes, hnodes, rfl⟩ := editNode_ok h
  obtain ⟨pre, n, post, zs, hitems, hpre, hid, hzs, rfl⟩ := editById_ok hnodes
  obtain ⟨n', hn', rfl⟩ := patched_ok hzs
  rw [hitems] at hfollow
  rw [List.singleton_append, clusterNode_around hitems]
  obtain ⟨hi, hf⟩ | ⟨hi, rfl⟩ := within_around hpre hid hfollow
  · obtain ⟨rfl, hkept⟩ := kept_keeps hf
    rw [hn'] at hkept
    rw [if_pos hi, clusterNode_middle hitems hi]
    exact ⟨rfl, rfl, hkept⟩
  · rw [if_neg hi]
    exact ⟨rfl, rfl, fun _ hpw => hpw⟩

theorem deleteCluster_kept (h : editCluster clusterID deleted p = .ok q)
    (hfollow : ((p.clusters.items.findIdx? (·.id = clusterID)).bind fun j =>
      (without j place.cluster).map fun i => { place with cluster := i }) = some place') :
    place'.project = place.project ∧
      KeepsPassword (projectNode place p) (projectNode place' q) := by
  obtain ⟨clusters, hclusters, rfl⟩ := editCluster_ok h
  obtain ⟨pre, c, post, zs, hitems, hpre, hid, hzs, rfl⟩ := editById_ok hclusters
  cases hzs
  rw [hitems, findIdx?_around Cluster.id hpre hid, Option.bind_some] at hfollow
  obtain ⟨i, hi, rfl⟩ := Option.map_eq_some_iff.mp hfollow
  refine ⟨rfl, ?_⟩
  unfold projectNode
  rw [items_of, List.nil_append, hitems, getElem?_without hi]
  exact fun _ hpw => hpw

theorem deleteNode_kept (h : editNode nodeID deleted c = .ok d)
    (hfollow : ((c.nodes.items.findIdx? (·.id = nodeID)).bind fun j =>
      (without j place.node).map fun i => { place with node := i }) = some place') :
    place'.project = place.project ∧ place'.cluster = place.cluster ∧
      KeepsPassword (clusterNode place c) (clusterNode place' d) := by
  obtain ⟨nodes, hnodes, rfl⟩ := editNode_ok h
  obtain ⟨pre, n, post, zs, hitems, hpre, hid, hzs, rfl⟩ := editById_ok hnodes
  cases hzs
  rw [hitems, findIdx?_around Node.id hpre hid, Option.bind_some] at hfollow
  obtain ⟨i, hi, rfl⟩ := Option.map_eq_some_iff.mp hfollow
  refine ⟨rfl, rfl, ?_⟩
  unfold clusterNode
  rw [items_of, List.nil_append, hitems, getElem?_without hi]
  exact fun _ hpw => hpw

/-- In the order in which the loops over projects, clusters and nodes run. -/
def Before (a b : Place) : Prop :=
  a.project < b.project ∨ a.project = b.project ∧
    (a.cluster < b.cluster ∨ a.cluster = b.cluster ∧ a.node < b.node)

def IsFirst (projects : Slice Project) (nodeID : String) (place : Place) : Prop :=
  ∀ earlier n, nodeAt projects earlier = some n → n.id = nodeID → ¬ Before earlier place

/-- Only the first node with the id changes. -/
theorem updateNodeStatus_ok {nodeID status lastError : String}
    (h : updateNodeStatus nodeID status lastError projects = .ok next) :
    ∃ place n, nodeAt projects place = some n ∧ n.id = nodeID ∧ IsFirst projects nodeID place ∧
      ∀ other, nodeAt next other =
        if other = place then some { n with connectionStatus := status, lastError }
        else nodeAt projects other := by
  obtain ⟨pre, p, post, zs, hps, hpre, hp, rfl⟩ := editSlice_ok h
  obtain ⟨rc, hrc, hzs⟩ := Option.map_eq_some_iff.mp hp
  obtain ⟨clusters, rfl, rfl⟩ : ∃ clusters, rc = .ok clusters ∧
      zs = [{ p with clusters := .of clusters }] := by
    cases rc with
    | error e => cases hzs
    | ok clusters =>
      cases hzs
      exact ⟨clusters, rfl, rfl⟩
  obtain ⟨cpre, c, cpost, cs, hcs, hcpre, hc, rfl⟩ := editFirst_ok hrc
  obtain ⟨rn, hrn, hcs'⟩ := Option.map_eq_some_iff.mp hc
  obtain ⟨nodes, rfl, rfl⟩ : ∃ nodes, rn = .ok nodes ∧ cs = [{ c with nodes := .of nodes }] := by
    cases rn with
    | error e => cases hcs'
    | ok nodes =>
      cases hcs'
      exact ⟨nodes, rfl, rfl⟩
  obtain ⟨npre, n, npost, ns, hns, hnpre, hn, rfl⟩ := editFirst_ok hrn
  have hid : n.id = nodeID := by
    by_contra hne
    rw [if_neg hne] at hn
    cases hn
  rw [if_pos hid] at hn
  cases hn
  refine ⟨⟨pre.length, cpre.length, npre.length⟩, n, ?_, hid, ?_, ?_⟩
  · rw [nodeAt_middle hps rfl, projectNode_middle hcs rfl, clusterNode_middle hns rfl]
  · simp only [Option.map_eq_none_iff, editFirst_none, ite_eq_right_iff, reduceCtorEq, imp_false]
      at hpre hcpre hnpre
    rintro earlier m hm hmid (hlt | ⟨hproject, hlt | ⟨hcluster, hlt⟩⟩)
    · obtain ⟨q, hq, hm⟩ := Option.bind_eq_some_iff.mp hm
      obtain ⟨d, hd, hm⟩ := Option.bind_eq_some_iff.mp hm
      rw [hps, List.getElem?_append_left hlt] at hq
      exact hpre q (List.mem_of_getElem? hq) d (List.mem_of_getElem? hd) m
        (List.mem_of_getElem? hm) hmid
    · rw [nodeAt_middle hps hproject] at hm
      obtain ⟨d, hd, hm⟩ := Option.bind_eq_some_iff.mp hm
      rw [hcs, List.getElem?_append_left hlt] at hd
      exact hcpre d (List.mem_of_getElem? hd) m (List.mem_of_getElem? hm) hmid
    · rw [nodeAt_middle hps hproject, projectNode_middle hcs hcluster] at hm
      unfold clusterNode at hm
      rw [hns, List.getElem?_append_left hlt] at hm
      exact hnpre m (List.mem_of_getElem? hm) hmid
  · intro other
    simp only [List.singleton_append, Place.ext_iff]
    rw [nodeAt_around hps, projectNode_around hcs, clusterNode_around hns]
    by_cases hproject : other.project = pre.length
    · rw [if_pos hproject, nodeAt_middle hps hproject]
      by_cases hcluster : other.cluster = cpre.length
      · rw [if_pos hcluster, projectNode_middle hcs hcluster]
        simp [hproject, hcluster]
      · rw [if_neg hcluster]
        simp [hcluster]
    · rw [if_neg hproject]
      simp [hproject]

theorem editFirst_fine {α ε : Type} {f : α → Option (Except ε (List α))}
    (hf : ∀ x r, f x = some r → ∃ ys, r = .ok ys) {xs : List α} {r : Except ε (List α)}
    (h : editFirst f xs = some r) : ∃ ys, r = .ok ys := by
  induction xs generalizing r with
  | nil => cases h
  | cons x xs ih =>
    unfold editFirst at h
    cases hx : f x with
    | some zs =>
      obtain ⟨ys, rfl⟩ := hf x zs hx
      rw [hx] at h
      cases h
      exact ⟨_, rfl⟩
    | none =>
      rw [hx] at h
      obtain ⟨rest, hrest, rfl⟩ := Option.map_eq_some_iff.mp h
      obtain ⟨ys, rfl⟩ := ih hrest
      exact ⟨_, rfl⟩

theorem map_fine {α β ε : Type} {f : α → β} {o : Option (Except ε α)} {r : Except ε β}
    (ho : ∀ q, o = some q → ∃ y, q = .ok y) (h : o.map (·.map f) = some r) : ∃ y, r = .ok y := by
  obtain ⟨q, hq, rfl⟩ := Option.map_eq_some_iff.mp h
  obtain ⟨y, rfl⟩ := ho q hq
  exact ⟨f y, rfl⟩

theorem updateNodeStatus_total {n : Node} (status lastError : String)
    (hn : nodeAt projects place = some n) :
    ∃ next, updateNodeStatus n.id status lastError projects = .ok next := by
  obtain ⟨p, hp, hn⟩ := Option.bind_eq_some_iff.mp hn
  obtain ⟨c, hc, hn⟩ := Option.bind_eq_some_iff.mp hn
  unfold updateNodeStatus editSlice
  split
  next hnone =>
    have hproject := editFirst_none.mp hnone p (List.mem_of_getElem? hp)
    rw [Option.map_eq_none_iff] at hproject
    have hcluster := editFirst_none.mp hproject c (List.mem_of_getElem? hc)
    rw [Option.map_eq_none_iff] at hcluster
    have hnode := editFirst_none.mp hcluster n (List.mem_of_getElem? hn)
    rw [if_pos rfl] at hnode
    cases hnode
  next r hr =>
    have hfine : ∃ ps, r = .ok ps := by
      apply editFirst_fine _ hr
      intro p rp hrp
      apply map_fine _ hrp
      intro rcs hrcs
      apply editFirst_fine _ hrcs
      intro c rc hrc
      apply map_fine _ hrc
      intro rns hrns
      apply editFirst_fine _ hrns
      intro n rn hrn
      split at hrn
      · cases hrn
        exact ⟨_, rfl⟩
      · cases hrn
    obtain ⟨ps, rfl⟩ := hfine
    exact ⟨_, rfl⟩

end

end LearnPg.Workspace.Edits
