import LearnPg.Api.Crud
import LearnPg.Api.Reads
import LearnPg.Basis.Search
import LearnPg.Workspace.Edits

/-! The searches by which requests find a cluster or a node, with the place of what
they find. Some of their loops are left at the first match, others run on. -/
namespace LearnPg.Api.Lookups

open Workspace Workspace.Data Workspace.Store Workspace.Places Workspace.Edits LearnPg.Basis.Search

@[ext] structure ClusterPlace where
  project : Nat
  cluster : Nat
  deriving DecidableEq

def searchProject (overClusters : Loop) (clusterID : String) (pi : Nat) (p : Project) :
    Option (ClusterPlace × Cluster) :=
  overClusters.run (fun ci c => if c.id = clusterID then some (⟨pi, ci⟩, c) else none)
    p.clusters.items

def searchClusters (overProjects overClusters : Loop) (projects : Slice Project)
    (clusterID : String) : Option (ClusterPlace × Cluster) :=
  overProjects.run (searchProject overClusters clusterID) projects.items

def searchNodes (overProjects overClusters overNodes : Loop) (projects : Slice Project)
    (nodeID : String) : Option (Place × Node) :=
  overProjects.run (fun pi p => overClusters.run (fun ci c => overNodes.run (fun ni n =>
    if n.id = nodeID then some (⟨pi, ci, ni⟩, n) else none) c.nodes.items)
    p.clusters.items) projects.items

inductive ClusterLookup where
  | findClusterByID
  | serveClusterOverview

inductive NodeLookup where
  | serveNodeByID
  | serveNodeActivate
  | serveNodeStatus
  | updateNodeStatus
  | inspectNodeByID

def ClusterLookup.search (projects : Slice Project) (clusterID : String) :
    ClusterLookup → Option (ClusterPlace × Cluster)
  | .findClusterByID => searchClusters .untilFound .untilFound projects clusterID
  | .serveClusterOverview => searchClusters .toEnd .untilFound projects clusterID

/-- The handlers refuse an empty id, `inspectNodeByID` does not look at a node that
has none. -/
def NodeLookup.search (projects : Slice Project) (nodeID : String) :
    NodeLookup → Option (Place × Node)
  | .serveNodeByID | .serveNodeActivate =>
    if nodeID = "" then none
    else searchNodes .untilFound .untilFound .untilFound projects nodeID
  | .serveNodeStatus =>
    if nodeID = "" then none else searchNodes .toEnd .toEnd .untilFound projects nodeID
  | .updateNodeStatus => searchNodes .untilFound .untilFound .untilFound projects nodeID
  | .inspectNodeByID => (searchNodes .toEnd .toEnd .toEnd projects nodeID).filter (·.2.id ≠ "")

def ClusterLookup.resolve (s : WorkspaceStore) (w : World) (file : File) (clusterID : String)
    (lookup : ClusterLookup) : Option (ClusterPlace × Cluster) :=
  (readAll s w file).toOption.bind (lookup.search · clusterID)

def NodeLookup.resolve (s : WorkspaceStore) (w : World) (file : File) (nodeID : String)
    (lookup : NodeLookup) : Option (Place × Node) :=
  (readAll s w file).toOption.bind (lookup.search · nodeID)

def HasCluster (p : Project) (clusterID : String) : Prop :=
  ∃ c ∈ p.clusters.items, c.id = clusterID

def InOneProject (projects : Slice Project) (clusterID : String) : Prop :=
  ∀ (i j : Nat) (p q : Project), projects.items[i]? = some p → projects.items[j]? = some q →
    HasCluster p clusterID → HasCluster q clusterID → i = j

/-- No two nodes have the id, and none has it if it is empty. -/
structure AtOneNode (projects : Slice Project) (nodeID : String) : Prop where
  unique : ∀ a b m n, Places.nodeAt projects a = some m → Places.nodeAt projects b = some n →
    m.id = nodeID → n.id = nodeID → a = b
  named : nodeID = "" → ∀ a n, Places.nodeAt projects a = some n → n.id ≠ nodeID

section

variable {projects : Slice Project} {clusterID nodeID : String} {place : Place} {n : Node}
  {overProjects overClusters overNodes : Loop}

theorem searchNodes_some {found : Place × Node}
    (h : searchNodes overProjects overClusters overNodes projects nodeID = some found) :
    Places.nodeAt projects found.1 = some found.2 ∧ found.2.id = nodeID := by
  obtain ⟨pi, p, hp, h⟩ := run_some h
  obtain ⟨ci, c, hc, h⟩ := run_some h
  obtain ⟨ni, m, hm, h⟩ := run_some h
  split at h
  next hid =>
    cases h
    simp [Places.nodeAt, projectNode, clusterNode, hp, hc, hm, hid]
  next => cases h

theorem searchNodes_none :
    searchNodes overProjects overClusters overNodes projects nodeID = none ↔
      ∀ place n, Places.nodeAt projects place = some n → n.id ≠ nodeID := by
  simp only [searchNodes, run_none, ite_eq_right_iff, reduceCtorEq, imp_false]
  constructor
  · intro h place n hn
    obtain ⟨p, hp, hn⟩ := Option.bind_eq_some_iff.mp hn
    obtain ⟨c, hc, hn⟩ := Option.bind_eq_some_iff.mp hn
    exact h _ p hp _ c hc _ n hn
  · intro h pi p hp ci c hc ni n hn
    apply h ⟨pi, ci, ni⟩ n
    simp [Places.nodeAt, projectNode, clusterNode, hp, hc, hn]

theorem searchProject_some {i : Nat} {p : Project} {found : ClusterPlace × Cluster}
    (h : searchProject overClusters clusterID i p = some found) :
    found.1.project = i ∧ p.clusters.items[found.1.cluster]? = some found.2 ∧
      found.2.id = clusterID := by
  obtain ⟨ci, c, hc, h⟩ := run_some h
  split at h
  next hid =>
    cases h
    exact ⟨rfl, hc, hid⟩
  next => cases h

theorem searchProject_none {i : Nat} {p : Project} :
    searchProject overClusters clusterID i p = none ↔ ¬ HasCluster p clusterID := by
  simp only [searchProject, run_none, ite_eq_right_iff, reduceCtorEq, imp_false, HasCluster,
    not_exists, not_and, List.mem_iff_getElem?]
  exact ⟨fun h c ⟨ci, hc⟩ => h ci c hc, fun h ci c hc => h c ⟨ci, hc⟩⟩

def projectHits (projects : Slice Project) (clusterID : String) : List (ClusterPlace × Cluster) :=
  hits (fun pi p => (searchProject .untilFound clusterID pi p).toList) projects.items

theorem mem_projectHits {found : ClusterPlace × Cluster} :
    found ∈ projectHits projects clusterID ↔ ∃ i p, projects.items[i]? = some p ∧
      searchProject .untilFound clusterID i p = some found := by
  simp only [projectHits, mem_hits, Option.mem_toList]

theorem projectHits_nodup : (projectHits projects clusterID).Nodup := by
  apply hits_nodup fun found => found.1.project
  · intro i p found h
    exact (searchProject_some (Option.mem_toList.mp h)).1
  · intro i p
    cases searchProject .untilFound clusterID i p <;> simp

theorem searchClusters_agree_iff :
    searchClusters .untilFound .untilFound projects clusterID =
        searchClusters .toEnd .untilFound projects clusterID ↔
      InOneProject projects clusterID := by
  unfold searchClusters
  rw [run_eq, run_eq]
  change (projectHits projects clusterID).head? = (projectHits projects clusterID).getLast? ↔ _
  rw [head?_eq_getLast?_iff projectHits_nodup]
  have hhit {i : Nat} {p : Project} (hc : HasCluster p clusterID) :
      ∃ found, searchProject .untilFound clusterID i p = some found := by
    apply Option.ne_none_iff_exists'.mp
    rw [Ne, searchProject_none]
    exact not_not_intro hc
  constructor
  · intro hsame i j p q hp hq hpc hqc
    obtain ⟨a, ha⟩ := hhit hpc
    obtain ⟨b, hb⟩ := hhit hqc
    have hab := hsame a (mem_projectHits.mpr ⟨i, p, hp, ha⟩) b (mem_projectHits.mpr ⟨j, q, hq, hb⟩)
    rw [← (searchProject_some ha).1, ← (searchProject_some hb).1, hab]
  · intro hone a ha b hb
    obtain ⟨i, p, hp, ha⟩ := mem_projectHits.mp ha
    obtain ⟨j, q, hq, hb⟩ := mem_projectHits.mp hb
    have hhas {k : Nat} {r : Project} {found : ClusterPlace × Cluster}
        (hr : searchProject .untilFound clusterID k r = some found) : HasCluster r clusterID := by
      obtain ⟨-, hc, hid⟩ := searchProject_some hr
      exact ⟨found.2, List.mem_of_getElem? hc, hid⟩
    obtain rfl := hone i j p q hp hq (hhas ha) (hhas hb)
    rw [hp] at hq
    cases hq
    rw [ha] at hb
    exact Option.some.inj hb

def nodesWith (projects : Slice Project) (nodeID : String) : List (Place × Node) :=
  hits (fun pi (p : Project) => hits (fun ci (c : Cluster) => hits (fun ni (n : Node) =>
    if n.id = nodeID then [(Place.mk pi ci ni, n)] else []) c.nodes.items) p.clusters.items)
    projects.items

theorem searchNodes_eq (loop : Loop) :
    searchNodes loop loop loop projects nodeID = loop.pick (nodesWith projects nodeID) := by
  have hbody (pi ci ni : Nat) (n : Node) :
      (if n.id = nodeID then some (Place.mk pi ci ni, n) else none) =
        loop.pick (if n.id = nodeID then [(Place.mk pi ci ni, n)] else []) := by
    cases loop <;> split <;> rfl
  simp only [searchNodes, nodesWith, hbody, run_pick]

theorem mem_nodesWith :
    (place, n) ∈ nodesWith projects nodeID ↔
      Places.nodeAt projects place = some n ∧ n.id = nodeID := by
  unfold nodesWith Places.nodeAt projectNode clusterNode
  simp only [mem_hits, Option.bind_eq_some_iff]
  constructor
  · rintro ⟨pi, p, hp, ci, c, hc, ni, m, hm, h⟩
    split at h
    next hid =>
      cases List.mem_singleton.mp h
      exact ⟨⟨p, hp, c, hc, hm⟩, hid⟩
    next => cases h
  · rintro ⟨⟨p, hp, c, hc, hn⟩, hid⟩
    refine ⟨_, p, hp, _, c, hc, _, n, hn, ?_⟩
    rw [if_pos hid]
    exact List.mem_singleton.mpr rfl

theorem nodesWith_nodup : (nodesWith projects nodeID).Nodup := by
  have hnode (pi ci : Nat) : ∀ ni (n : Node), ∀ y ∈ (if n.id = nodeID then
      [(Place.mk pi ci ni, n)] else []), y.1 = ⟨pi, ci, ni⟩ := by
    intro ni n y hy
    split at hy
    · rw [List.mem_singleton.mp hy]
    · cases hy
  have hcluster (pi : Nat) : ∀ ci (c : Cluster), ∀ y ∈ hits (fun ni (n : Node) =>
      if n.id = nodeID then [(Place.mk pi ci ni, n)] else []) c.nodes.items,
      y.1.project = pi ∧ y.1.cluster = ci := by
    intro ci c y hy
    obtain ⟨ni, n, -, hy⟩ := mem_hits.mp hy
    rw [hnode pi ci ni n y hy]
    exact ⟨rfl, rfl⟩
  apply hits_nodup fun y => y.1.project
  · intro pi p y hy
    obtain ⟨ci, c, -, hy⟩ := mem_hits.mp hy
    exact (hcluster pi ci c y hy).1
  · intro pi p
    apply hits_nodup fun y => y.1.cluster
    · exact fun ci c y hy => (hcluster pi ci c y hy).2
    · intro ci c
      apply hits_nodup fun y => y.1.node
      · intro ni n y hy
        rw [hnode pi ci ni n y hy]
      · intro ni n
        split <;> simp

theorem inspectNodeByID_search :
    NodeLookup.inspectNodeByID.search projects nodeID =
      if nodeID = "" then none else searchNodes .toEnd .toEnd .toEnd projects nodeID := by
  simp only [NodeLookup.search]
  cases h : searchNodes .toEnd .toEnd .toEnd projects nodeID with
  | none => simp
  | some found =>
    have hid := (searchNodes_some h).2
    by_cases hempty : nodeID = "" <;> simp [hempty, hid]

theorem searchNodes_unique (hunique : AtOneNode projects nodeID) (a b c a' b' c' : Loop) :
    searchNodes a b c projects nodeID = searchNodes a' b' c' projects nodeID := by
  cases h : searchNodes a b c projects nodeID with
  | none =>
    rw [searchNodes_none] at h
    exact (searchNodes_none.mpr h).symm
  | some found =>
    obtain ⟨hn, hid⟩ := searchNodes_some h
    cases h' : searchNodes a' b' c' projects nodeID with
    | none => exact absurd hid (searchNodes_none.mp h' _ _ hn)
    | some found' =>
      obtain ⟨hn', hid'⟩ := searchNodes_some h'
      have hplace := hunique.unique _ _ _ _ hn hn' hid hid'
      rw [hplace, hn'] at hn
      exact congrArg some (Prod.ext hplace (Option.some.inj hn).symm)

theorem nodeLookups_agree_iff :
    (∀ l l' : NodeLookup, l.search projects nodeID = l'.search projects nodeID) ↔
      AtOneNode projects nodeID := by
  constructor
  · intro hsame
    have hends := hsame .updateNodeStatus .inspectNodeByID
    rw [inspectNodeByID_search] at hends
    simp only [NodeLookup.search] at hends
    by_cases hempty : nodeID = ""
    · rw [if_pos hempty, searchNodes_none] at hends
      exact ⟨fun a b m n hm _ hid _ => absurd hid (hends a m hm), fun _ => hends⟩
    · rw [if_neg hempty, searchNodes_eq, searchNodes_eq] at hends
      have hall := (head?_eq_getLast?_iff nodesWith_nodup).mp hends
      refine ⟨fun a b m n hm hn hmid hnid => ?_, fun h => absurd h hempty⟩
      have hpair := hall _ (mem_nodesWith.mpr ⟨hm, hmid⟩) _ (mem_nodesWith.mpr ⟨hn, hnid⟩)
      exact congrArg Prod.fst hpair
  · intro hone
    have hguard (a b c : Loop) : (if nodeID = "" then none else searchNodes a b c projects nodeID) =
        searchNodes .untilFound .untilFound .untilFound projects nodeID := by
      split
      next hempty => exact (searchNodes_none.mpr (hone.named hempty)).symm
      next => exact searchNodes_unique hone ..
    have hfirst (l : NodeLookup) : l.search projects nodeID =
        searchNodes .untilFound .untilFound .untilFound projects nodeID := by
      cases l with
      | updateNodeStatus => rfl
      | inspectNodeByID => exact inspectNodeByID_search.trans (hguard ..)
      | serveNodeByID | serveNodeActivate | serveNodeStatus => exact hguard ..
    intro l l'
    rw [hfirst l, hfirst l']

/-- In a workspace that can be read, all lookups of an id end at one place exactly
when the clusters that have it are in one project and one node has it. -/
theorem lookups_agree_iff {s : WorkspaceStore} {w : World} {file : File} (id : String)
    (h : readAll s w file = .ok projects) :
    ((∀ l l' : ClusterLookup, l.resolve s w file id = l'.resolve s w file id) ∧
        ∀ l l' : NodeLookup, l.resolve s w file id = l'.resolve s w file id) ↔
      InOneProject projects id ∧ AtOneNode projects id := by
  unfold ClusterLookup.resolve NodeLookup.resolve
  simp only [h, Except.toOption, Option.bind_some]
  rw [nodeLookups_agree_iff, ← searchClusters_agree_iff]
  apply and_congr_left'
  constructor
  · exact fun hsame => hsame .findClusterByID .serveClusterOverview
  · intro hsame l l'
    cases l <;> cases l' <;> simp only [ClusterLookup.search, hsame]

/-! What the searches find is what the handlers go on with. -/

theorem searchClusters_value (loop : Loop) :
    (searchClusters loop .untilFound projects clusterID).map (·.2) =
      loop.pick (projects.items.filterMap fun p => p.clusters.items.find? (·.id = clusterID)) := by
  apply run_map
  intro pi p
  rw [← List.head?_filter]
  apply run_filter .untilFound
  intro ci c
  by_cases hid : c.id = clusterID <;> simp [hid]

theorem searchNodes_value :
    (searchNodes overProjects overClusters overNodes projects nodeID).map (·.2) =
      overProjects.pick (projects.items.filterMap fun p =>
        overClusters.pick (p.clusters.items.filterMap fun c =>
          overNodes.pick (c.nodes.items.filter (·.id = nodeID)))) := by
  apply run_map
  intro pi p
  apply run_map
  intro ci c
  apply run_filter
  intro ni n
  by_cases hid : n.id = nodeID <;> simp [hid]

theorem findClusterByID_eq {s : WorkspaceStore} {w : World} {file : File} :
    (findClusterByID s w file clusterID).toOption.map (·.1) =
      (ClusterLookup.findClusterByID.resolve s w file clusterID).map (·.2) := by
  unfold findClusterByID ClusterLookup.resolve
  cases readAll s w file with
  | error err => rfl
  | ok projects =>
    have hvalue : (locateCluster projects clusterID).map (·.1) =
        (searchClusters .untilFound .untilFound projects clusterID).map (·.2) := by
      rw [searchClusters_value, Loop.pick, List.head?_filterMap]
      unfold locateCluster
      rw [List.map_findSome?]
      congr 1
      ext p : 1
      cases h : p.clusters.items.find? (·.id = clusterID) <;> simp [h]
    simp only [Except.toOption, Option.bind_some, ClusterLookup.search, ← hvalue]
    cases locateCluster projects clusterID <;> rfl

theorem overviewCluster_eq :
    overviewCluster projects clusterID =
      (ClusterLookup.serveClusterOverview.search projects clusterID).map (·.2) :=
  (searchClusters_value .toEnd).symm

theorem findNode_eq {s : WorkspaceStore} {w : World} {file : File} :
    (findNode s w file nodeID).toOption.map (·.2.2) =
      (NodeLookup.serveNodeByID.resolve s w file nodeID).map (·.2) := by
  unfold findNode NodeLookup.resolve
  by_cases hempty : nodeID = ""
  · cases readAll s w file <;>
      simp [hempty, Except.toOption, NodeLookup.search]
  rw [if_neg hempty]
  cases readAll s w file with
  | error err => rfl
  | ok projects =>
    have hvalue : (locateNode projects nodeID).map (·.2.2) =
        (searchNodes .untilFound .untilFound .untilFound projects nodeID).map (·.2) := by
      rw [searchNodes_value]
      simp only [Loop.pick, List.head?_filterMap, List.head?_filter, locateNode,
        List.map_findSome?]
      congr 1
      ext p : 1
      simp only [Function.comp, List.map_findSome?]
      congr 1
      ext c : 1
      cases h : c.nodes.items.find? (·.id = nodeID) <;> simp [h]
    simp only [Except.toOption, Option.bind_some, NodeLookup.search, if_neg hempty, ← hvalue]
    cases locateNode projects nodeID <;> rfl

theorem serveNodeStatus_eq {s : WorkspaceStore} {w : World} {file : File}
    (m : Connection.State) (ping : Nat → Except String Unit) :
    (serveNodeStatus s file m w ping nodeID).toOption =
      (NodeLookup.serveNodeStatus.resolve s w file nodeID).map fun found =>
        (found.2.connectionStatus, (m.health nodeID ping).toBool, found.2.lastError) := by
  unfold serveNodeStatus NodeLookup.resolve
  by_cases hempty : nodeID = ""
  · cases readAll s w file <;> simp [hempty, Except.toOption, NodeLookup.search]
  rw [if_neg hempty]
  cases readAll s w file with
  | error err => rfl
  | ok projects =>
    have hvalue : ((projects.items.flatMap fun p => p.clusters.items).filterMap
          fun c => c.nodes.items.find? (·.id = nodeID)).getLast? =
        (searchNodes .toEnd .toEnd .untilFound projects nodeID).map (·.2) := by
      rw [searchNodes_value, pick_filterMap_pick, List.filterMap_flatMap]
      simp only [Loop.pick, List.head?_filter]
    simp only [hvalue, Except.toOption, Option.bind_some, NodeLookup.search, if_neg hempty]
    cases searchNodes .toEnd .toEnd .untilFound projects nodeID <;> rfl

theorem inspectedNode_eq {s : WorkspaceStore} {w : World} {file : File} :
    inspectedNode s w file nodeID =
      (NodeLookup.inspectNodeByID.resolve s w file nodeID).map (·.2) := by
  unfold inspectedNode NodeLookup.resolve
  cases readAll s w file with
  | error err => rfl
  | ok projects =>
    have hlast : ((allNodes projects).filter (·.id = nodeID)).getLast? =
        (searchNodes .toEnd .toEnd .toEnd projects nodeID).map (·.2) := by
      rw [searchNodes_value]
      simp only [pick_filterMap_pick]
      simp only [Loop.pick, allNodes, List.filter_flatMap]
    simp only [Except.toOption, Option.bind_some, NodeLookup.search, hlast, Option.filter_map]
    rfl

theorem before_or (a b : Place) : a = b ∨ Before a b ∨ Before b a := by
  unfold Before
  rw [Place.ext_iff]
  omega

/-- What a search that is left at the first match finds comes before all others. -/
theorem searchNodes_first {found : Place × Node}
    (h : searchNodes .untilFound .untilFound .untilFound projects nodeID = some found) :
    IsFirst projects nodeID found.1 := by
  obtain ⟨pi, p, hp, h, hps⟩ := run_untilFound_first h
  obtain ⟨ci, c, hc, h, hcs⟩ := run_untilFound_first h
  obtain ⟨ni, m, hm, h, hns⟩ := run_untilFound_first h
  simp only [run_none, ite_eq_right_iff, reduceCtorEq, imp_false] at hps hcs hns
  split at h
  next hid =>
    cases h
    intro earlier other hother hoid hbefore
    obtain ⟨q, hq, hcluster⟩ := Option.bind_eq_some_iff.mp hother
    obtain ⟨d, hd, hnode⟩ := Option.bind_eq_some_iff.mp hcluster
    obtain hlt | ⟨hproject, hlt | ⟨hsame, hlt⟩⟩ := hbefore
    · exact hps _ hlt q hq _ d hd _ other hnode hoid
    · dsimp only at hproject hlt
      rw [hproject, hp] at hq
      cases hq
      exact hcs _ hlt d hd _ other hnode hoid
    · dsimp only at hproject hsame hlt
      rw [hproject, hp] at hq
      cases hq
      rw [hsame, hc] at hd
      cases hd
      exact hns _ hlt other hnode hoid
  next => cases h

theorem updateNodeStatus_at {status lastError : String} {next : Slice Project}
    (h : updateNodeStatus nodeID status lastError projects = .ok next) :
    ∃ found, NodeLookup.updateNodeStatus.search projects nodeID = some found ∧
      ∀ other, Places.nodeAt next other =
        if other = found.1 then some { found.2 with connectionStatus := status, lastError }
        else Places.nodeAt projects other := by
  obtain ⟨place, n, hn, hid, hfirst, hnext⟩ := updateNodeStatus_ok h
  cases hfound : searchNodes .untilFound .untilFound .untilFound projects nodeID with
  | none => exact absurd hid (searchNodes_none.mp hfound place n hn)
  | some found =>
    obtain ⟨hm, hmid⟩ := searchNodes_some hfound
    have hsame : place = found.1 := by
      obtain heq | hlt | hlt := before_or place found.1
      · exact heq
      · exact absurd hlt (searchNodes_first hfound _ _ hn hid)
      · exact absurd hlt (hfirst _ _ hm hmid)
    subst hsame
    rw [hn] at hm
    cases hm
    exact ⟨found, hfound, hnext⟩

end

def twoNodes (first second : Node) : File :=
  .envelope ⟨currentWorkspaceSchemaVersion,
    .of [⟨"p1", "shop", .of [⟨"c1", "main", "streaming", 30, "", "", none, .of [first]⟩,
      ⟨"c2", "copy", "streaming", 30, "", "", none, .of [second]⟩], .of []⟩], .nil⟩

def apart : File := twoNodes (nodeAt "n1") (nodeAt "n2")

theorem lookups_agree_apart :
    InOneProject (normalizeProjects (storedProjects apart)) "n2" ∧
      AtOneNode (normalizeProjects (storedProjects apart)) "n2" ∧
      (NodeLookup.serveNodeStatus.resolve plainStore quiet apart "n2").map (·.2.id) = some "n2" := by
  have hread : readAll plainStore quiet apart = .ok (normalizeProjects (storedProjects apart)) := by
    decide
  obtain ⟨hcluster, hnode⟩ := (lookups_agree_iff "n2" hread).mp
    ⟨fun l l' => by cases l <;> cases l' <;> decide, fun l l' => by cases l <;> cases l' <;> decide⟩
  exact ⟨hcluster, hnode, by decide⟩

def twins : File := twoNodes (nodeAt "n1") (nodeAt "n1")

/-- A request for the node's status answers for the second twin, an activation
writes it to the first. -/
theorem twins_resolved_apart :
    ¬ ∀ (s : WorkspaceStore) (w : World) (file : File) (projects : Slice Project) (id : String),
      readAll s w file = .ok projects →
      (∀ l l' : ClusterLookup, l.resolve s w file id = l'.resolve s w file id) ∧
        ∀ l l' : NodeLookup, l.resolve s w file id = l'.resolve s w file id := by
  intro h
  have hsame := (h plainStore quiet twins _ "n1" rfl).2 .serveNodeStatus .updateNodeStatus
  revert hsame
  decide

end LearnPg.Api.Lookups
