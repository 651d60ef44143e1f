import LearnPg.Workspace.Store

/-! The nodes of a list of projects by their places in it, and what reading and
writing the workspace file do to the node at each place. -/
namespace LearnPg.Workspace.Places

open Data Secrets Store

@[ext] structure Place where
  project : Nat
  cluster : Nat
  node : Nat
  deriving DecidableEq

def clusterNode (place : Place) (c : Cluster) : Option Node :=
  c.nodes.items[place.node]?

def projectNode (place : Place) (p : Project) : Option Node :=
  p.clusters.items[place.cluster]?.bind (clusterNode place)

def nodeAt (projects : Slice Project) (place : Place) : Option Node :=
  projects.items[place.project]?.bind (projectNode place)

def passwordAt (projects : Slice Project) (place : Place) : Option String :=
  (nodeAt projects place).map (·.password)

/-- The projects that a file stores, passwords as they are stored. -/
def storedProjects : File → Slice Project
  | .legacy projects => projects
  | .envelope env => env.projects
  | _ => .nil

def mapCluster (f : Node → Node) (c : Cluster) : Cluster := { c with nodes := c.nodes.map f }

def mapProject (f : Node → Node) (p : Project) : Project :=
  { p with clusters := p.clusters.map (mapCluster f) }

def mapNodes (f : Node → Node) (projects : Slice Project) : Slice Project :=
  projects.map (mapProject f)

section Lifting

variable {α β : Type}

@[simp] theorem items_of (xs : List α) : (Slice.of xs).items = xs := rfl

@[simp] theorem map_of (f : α → β) (xs : List α) :
    (Slice.of xs).map f = .of (xs.map f) := rfl

@[simp] theorem items_map (f : α → β) (xs : Slice α) : (xs.map f).items = xs.items.map f := by
  cases xs <;> rfl

def SliceRel (r : α → β → Prop) : Slice α → Slice β → Prop
  | .nil, .nil => True
  | .of xs, .of ys => List.Forall₂ r xs ys
  | _, _ => False

theorem SliceRel.items {r : α → β → Prop} {xs : Slice α} {ys : Slice β} (h : SliceRel r xs ys) :
    List.Forall₂ r xs.items ys.items := by
  cases xs <;> cases ys
  · exact .nil
  · cases h
  · cases h
  · exact h

theorem SliceRel.map_eq {γ : Type} {r : α → β → Prop} {f : α → γ} {g : β → γ}
    (hfg : ∀ x y, r x y → g y = f x) {xs : Slice α} {ys : Slice β} (h : SliceRel r xs ys) :
    ys.map g = xs.map f := by
  cases xs <;> cases ys
  · rfl
  · cases h
  · cases h
  · apply congrArg Slice.of
    induction h with
    | nil => rfl
    | cons hxy _ ih =>
      rw [List.map_cons, List.map_cons, hfg _ _ hxy, ih]

theorem mapIdx_forall₂ {ε : Type} {f : Nat → α → Except ε β} {r : α → β → Prop}
    (hf : ∀ i x y, f i x = .ok y → r x y) {i : Nat} {xs : List α} {ys : List β}
    (h : Data.mapIdx f i xs = .ok ys) : List.Forall₂ r xs ys := by
  induction xs generalizing i ys with
  | nil =>
    cases h
    exact .nil
  | cons x xs ih =>
    unfold Data.mapIdx at h
    cases hy : f i x with
    | error err =>
      rw [hy] at h
      cases h
    | ok y =>
      cases hys : Data.mapIdx f (i + 1) xs with
      | error err =>
        rw [hy, hys] at h
        cases h
      | ok rest =>
        rw [hy, hys] at h
        cases h
        exact .cons (hf i x y hy) (ih hys)

theorem sliceRel_mapIdx {ε : Type} {f : Nat → α → Except ε β} {r : α → β → Prop}
    (hf : ∀ i x y, f i x = .ok y → r x y) {xs : Slice α} {ys : Slice β}
    (h : xs.mapIdx f = .ok ys) : SliceRel r xs ys := by
  cases xs with
  | nil =>
    cases h
    trivial
  | of xs =>
    cases hys : Data.mapIdx f 0 xs with
    | error err =>
      simp only [Slice.mapIdx, hys] at h
      cases h
    | ok ys =>
      simp only [Slice.mapIdx, hys] at h
      cases h
      exact mapIdx_forall₂ hf hys

theorem SliceRel.getElem? {r : α → β → Prop} {xs : Slice α} {ys : Slice β}
    (h : SliceRel r xs ys) {i : Nat} {x : α} (hx : xs.items[i]? = some x) :
    ∃ y, ys.items[i]? = some y ∧ r x y := by
  obtain ⟨hlength, hrel⟩ := List.forall₂_iff_get.mp h.items
  obtain ⟨hi, rfl⟩ := List.getElem?_eq_some_iff.mp hx
  exact ⟨_, List.getElem?_eq_getElem (hlength ▸ hi), hrel i hi (hlength ▸ hi)⟩

end Lifting

/-- Two lists of projects that differ in their nodes only, each pair of nodes in
the same place being related. -/
def OnNodes (r : Node → Node → Prop) : Slice Project → Slice Project → Prop :=
  SliceRel fun p q => q = { p with clusters := q.clusters } ∧
    SliceRel (fun c d => d = { c with nodes := d.nodes } ∧ SliceRel r c.nodes d.nodes)
      p.clusters q.clusters

section

variable {r : Node → Node → Prop} {projects written : Slice Project} {place : Place} {n : Node}

theorem OnNodes.nodeAt (h : OnNodes r projects written) (hn : nodeAt projects place = some n) :
    ∃ n', nodeAt written place = some n' ∧ r n n' := by
  obtain ⟨p, hp, hn⟩ := Option.bind_eq_some_iff.mp hn
  obtain ⟨c, hc, hn⟩ := Option.bind_eq_some_iff.mp hn
  obtain ⟨q, hq, -, hclusters⟩ := h.getElem? hp
  obtain ⟨d, hd, -, hnodes⟩ := hclusters.getElem? hc
  obtain ⟨n', hn', hrel⟩ := hnodes.getElem? hn
  refine ⟨n', ?_, hrel⟩
  unfold Places.nodeAt projectNode clusterNode
  rw [hq, Option.bind_some, hd, Option.bind_some, hn']

theorem OnNodes.mapNodes_eq {f g : Node → Node} (hfg : ∀ n n', r n n' → g n' = f n)
    (h : OnNodes r projects written) : mapNodes g written = mapNodes f projects := by
  apply h.map_eq
  rintro p q ⟨hq, hclusters⟩
  have hmap : q.clusters.map (mapCluster g) = p.clusters.map (mapCluster f) := by
    apply hclusters.map_eq
    rintro c d ⟨hd, hnodes⟩
    unfold mapCluster
    rw [hnodes.map_eq hfg, hd]
  unfold mapProject
  rw [hmap, hq]

theorem nodeAt_mapNodes (f : Node → Node) :
    nodeAt (mapNodes f projects) place = (nodeAt projects place).map f := by
  unfold nodeAt mapNodes
  rw [items_map, List.getElem?_map]
  cases projects.items[place.project]? with
  | none => rfl
  | some p =>
    unfold projectNode mapProject
    simp only [Option.map_some, Option.bind_some, items_map, List.getElem?_map]
    cases p.clusters.items[place.cluster]? with
    | none => rfl
    | some c =>
      unfold clusterNode mapCluster
      simp only [Option.map_some, Option.bind_some, items_map, List.getElem?_map]

theorem nodeAt_normalize : nodeAt (normalizeProjects projects) place = nodeAt projects place := by
  unfold nodeAt normalizeProjects
  rw [items_of, List.getElem?_map]
  cases projects.items[place.project]? with
  | none => rfl
  | some p =>
    unfold projectNode
    simp only [Option.map_some, Option.bind_some, normalizeProject, items_of, List.getElem?_map]
    cases p.clusters.items[place.cluster]? with
    | none => rfl
    | some c => rfl

theorem OnNodes.refl (hr : ∀ n, r n n) (projects : Slice Project) :
    OnNodes r projects projects := by
  have hslice {α : Type} {t : α → α → Prop} (ht : ∀ x, t x x) (xs : Slice α) :
      SliceRel t xs xs := by
    cases xs with
    | nil => trivial
    | of xs => exact List.forall₂_same.mpr fun x _ => ht x
  exact hslice (fun p => ⟨rfl, hslice (fun c => ⟨rfl, hslice hr _⟩) _⟩) _

theorem mapNodes_self {f : Node → Node} (hf : ∀ n, f n = n) (projects : Slice Project) :
    mapNodes f projects = projects := by
  have hslice {α : Type} {g : α → α} (hg : ∀ x, g x = x) (xs : Slice α) : xs.map g = xs := by
    cases xs with
    | nil => rfl
    | of xs => exact congrArg Slice.of ((List.map_congr_left fun x _ => hg x).trans xs.map_id)
  apply hslice
  intro p
  unfold mapProject
  rw [hslice]
  intro c
  unfold mapCluster
  rw [hslice hf]

end

/-- What the store reads for a node. -/
def readNode (s : WorkspaceStore) (n : Node) : Node :=
  match s.encKey with
  | none => n
  | some key => decryptNode s.crypto key n

/-- What the store may write for a node. -/
def WrittenAs (s : WorkspaceStore) (n n' : Node) : Prop :=
  match s.encKey with
  | none => n' = n
  | some key => ∃ nonce, encryptNode s.crypto key nonce n = .ok n'

section

variable {s : WorkspaceStore} {w : World} {file file' : File} {env : Envelope} {place : Place}

theorem encrypt_onNodes {nonce : Nat → Nat → Nat → Except String Nonce}
    {projects written : Slice Project}
    (h : encryptNodePasswords s.crypto s.encKey nonce projects = .ok written) :
    OnNodes (WrittenAs s) projects written := by
  unfold encryptNodePasswords at h
  cases hkey : s.encKey with
  | none =>
    rw [hkey] at h
    cases h
    apply OnNodes.refl
    intro n
    unfold WrittenAs
    rw [hkey]
  | some key =>
    rw [hkey] at h
    apply sliceRel_mapIdx _ h
    intro pi p q hp
    obtain ⟨clusters, hclusters, hq⟩ := bind_ok.mp hp
    cases hq
    refine ⟨rfl, sliceRel_mapIdx ?_ hclusters⟩
    intro ci c d hc
    obtain ⟨nodes, hnodes, hd⟩ := bind_ok.mp hc
    cases hd
    refine ⟨rfl, sliceRel_mapIdx ?_ hnodes⟩
    intro ni n n' hn
    unfold WrittenAs
    rw [hkey]
    exact ⟨_, hn⟩

theorem decrypt_eq (projects : Slice Project) :
    decryptNodePasswords s.crypto s.encKey projects = mapNodes (readNode s) projects := by
  unfold decryptNodePasswords readNode
  cases s.encKey with
  | some key => rfl
  | none => exact (mapNodes_self (fun _ => rfl) projects).symm

theorem projects_of_read (h : readEnvelopeNoLock s w file = .ok env) :
    env.projects = mapNodes (readNode s) (normalizeProjects (storedProjects file)) := by
  unfold readEnvelopeNoLock at h
  obtain ⟨-, -, h⟩ := bind_ok.mp h
  cases file with
  | missing | blank =>
    cases h
    rfl
  | malformed err => cases h
  | legacy projects =>
    cases h
    exact decrypt_eq _
  | envelope env =>
    cases h
    exact decrypt_eq _

theorem projects_of_write (h : writeEnvelopeLocked s w env = .ok file') :
    OnNodes (WrittenAs s) env.projects (storedProjects file') := by
  obtain ⟨projects, hprojects, rfl⟩ := write_ok h
  exact encrypt_onNodes hprojects

theorem read_of_nodeAt {n : Node} (s : WorkspaceStore) (hread : w.readError = none)
    (hn : nodeAt (storedProjects file) place = some n) :
    ∃ env, readEnvelopeNoLock s w file = .ok env := by
  unfold readEnvelopeNoLock
  rw [hread]
  cases file with
  | missing | blank | malformed => cases hn
  | legacy | envelope => exact ⟨_, rfl⟩

theorem nodeAt_read (h : readEnvelopeNoLock s w file = .ok env) :
    nodeAt env.projects place = (nodeAt (storedProjects file) place).map (readNode s) := by
  rw [projects_of_read h, nodeAt_mapNodes, nodeAt_normalize]

end

end LearnPg.Workspace.Places
