import Mathlib.Data.Finset.Card
import Mathlib.Data.List.Chain

/-! Depth-first search for cycles, with one set of visited vertices for each start.
The fuel bounds the depth, and as many steps as there are vertices are enough. -/
namespace LearnPg.Basis.CycleSearch

variable {V : Type}

def Closes (R : V → V → Prop) (cycle : List V) : Prop :=
  ∃ v rest, cycle = v :: rest ∧ (v :: rest ++ [v]).IsChain R

def IsCycle (adj : V → List V) (cycle : List V) : Prop :=
  ∃ v rest, cycle = v :: rest ∧ (v :: rest ++ [v]).IsChain fun a b => b ∈ adj a

variable {adj : V → List V}

theorem IsCycle.head {cycle : List V} (h : IsCycle adj cycle) :
    ∃ v, (∃ next, next ∈ adj v) ∧ ∃ prev, v ∈ adj prev := by
  obtain ⟨v, rest, -, hchain⟩ := h
  refine ⟨v, ?_, ?_⟩
  · cases rest with
    | nil => exact ⟨v, (List.isChain_pair.mp hchain)⟩
    | cons next rest => exact ⟨next, (List.isChain_cons_cons.mp hchain).1⟩
  · rcases List.eq_nil_or_concat rest with rfl | ⟨init, prev, rfl⟩
    · exact ⟨v, (List.isChain_pair.mp hchain)⟩
    · rw [List.concat_eq_append, show v :: (init ++ [prev]) ++ [v] = v :: init ++ prev :: v :: []
        by simp] at hchain
      exact ⟨prev, (List.isChain_append_cons_cons.mp hchain).2.1⟩

theorem nodup_snoc {path : List V} {node : V} (hnew : node ∉ path) (h : path.Nodup) :
    (path ++ [node]).Nodup :=
  List.nodup_append_comm.mp (List.nodup_cons.mpr ⟨hnew, h⟩)

structure Search (V : Type) where
  visited : List V
  cycles : List (List V)

variable [DecidableEq V]

/-- Visits a vertex reached along `path`. A path that comes back to itself is a cycle,
unless it is a mere loop. -/
def dfs (adj : V → List V) : Nat → V → List V → Search V → Option (Search V)
  | 0, _, _, _ => none
  | fuel + 1, node, path, st =>
    if node ∈ path then
      let cycle := path.drop (path.idxOf node)
      some (if 2 ≤ cycle.length then { st with cycles := st.cycles ++ [cycle] } else st)
    else if node ∈ st.visited then some st
    else
      (adj node).foldlM (fun st next => dfs adj fuel next (path ++ [node]) st)
        { st with visited := node :: st.visited }

def detect (adj : V → List V) (fuel : Nat) (nodes : List V) : Option (List (List V)) :=
  nodes.foldlM (fun cycles node => (dfs adj fuel node [] ⟨[], cycles⟩).map Search.cycles) []

theorem foldlM_keeps {σ α : Type} {f : σ → α → Option σ} {P : σ → Prop} {xs : List α}
    (hstep : ∀ x ∈ xs, ∀ s t, P s → f s x = some t → P t) {s t : σ} (h : P s)
    (ht : xs.foldlM f s = some t) : P t := by
  induction xs generalizing s with
  | nil =>
    cases ht
    exact h
  | cons x xs ih =>
    rw [List.foldlM_cons] at ht
    obtain ⟨m, hm, hrest⟩ := Option.bind_eq_some_iff.mp ht
    exact ih (fun y hy => hstep y (List.mem_cons_of_mem x hy))
      (hstep x List.mem_cons_self s m h hm) hrest

theorem foldlM_total {σ α : Type} {f : σ → α → Option σ} {xs : List α}
    (hstep : ∀ x ∈ xs, ∀ s, ∃ t, f s x = some t) (s : σ) : ∃ t, xs.foldlM f s = some t := by
  induction xs generalizing s with
  | nil => exact ⟨s, rfl⟩
  | cons x xs ih =>
    obtain ⟨m, hm⟩ := hstep x List.mem_cons_self s
    rw [List.foldlM_cons, hm]
    exact ih (fun y hy => hstep y (List.mem_cons_of_mem x hy)) m

theorem closes_drop {R : V → V → Prop} {node : V} {path : List V}
    (hpath : (path ++ [node]).IsChain R) (hmem : node ∈ path) :
    Closes R (path.drop (path.idxOf node)) := by
  have hlt : path.idxOf node < path.length := List.idxOf_lt_length_of_mem hmem
  have hdrop := List.drop_eq_getElem_cons hlt
  rw [List.getElem_idxOf hlt] at hdrop
  refine ⟨node, _, hdrop, ?_⟩
  have hchain := hpath.drop (path.idxOf node)
  rwa [List.drop_append_of_le_length (Nat.le_of_lt hlt), hdrop] at hchain

/-- What the search reports are cycles. -/
theorem dfs_sound {fuel : Nat} {node : V} {path : List V} {st st' : Search V}
    (hpath : (path ++ [node]).IsChain fun a b => b ∈ adj a)
    (hst : ∀ c ∈ st.cycles, IsCycle adj c) (h : dfs adj fuel node path st = some st') :
    ∀ c ∈ st'.cycles, IsCycle adj c := by
  induction fuel generalizing node path st st' with
  | zero => cases h
  | succ fuel ih =>
    rw [dfs] at h
    split at h
    case isTrue hmem =>
      dsimp only at h
      split at h
      · cases h
        exact List.forall_mem_append.mpr
          ⟨hst, List.forall_mem_singleton.mpr (closes_drop hpath hmem)⟩
      · cases h
        exact hst
    split at h
    case isTrue =>
      cases h
      exact hst
    case isFalse =>
      refine foldlM_keeps (P := fun st => ∀ c ∈ st.cycles, IsCycle adj c) ?_ hst h
      intro next hnext s t hs ht
      refine ih ?_ hs ht
      rw [List.append_assoc]
      exact List.isChain_append_cons_cons.mpr ⟨hpath, hnext, List.isChain_singleton next⟩

theorem detect_sound {fuel : Nat} {nodes : List V} {cycles : List (List V)}
    (h : detect adj fuel nodes = some cycles) : ∀ c ∈ cycles, IsCycle adj c := by
  refine foldlM_keeps (P := fun cycles => ∀ c ∈ cycles, IsCycle adj c) ?_
    (List.forall_mem_nil _) h
  intro node _ s t hs ht
  obtain ⟨st, hst, rfl⟩ := Option.map_eq_some_iff.mp ht
  exact dfs_sound (List.isChain_singleton node) hs hst

/-- With more fuel than vertices off the path, the search ends. -/
theorem dfs_total {vertices : Finset V} (hadj : ∀ v, ∀ next ∈ adj v, next ∈ vertices) {fuel : Nat}
    {node : V} {path : List V} (hnode : node ∈ vertices) (hpath : ∀ v ∈ path, v ∈ vertices)
    (hnodup : path.Nodup) (hfuel : vertices.card < fuel + path.length) (st : Search V) :
    ∃ st', dfs adj fuel node path st = some st' := by
  induction fuel generalizing node path st with
  | zero =>
    have hle : path.toFinset.card ≤ vertices.card :=
      Finset.card_le_card fun v hv => hpath v (List.mem_toFinset.mp hv)
    rw [List.toFinset_card_of_nodup hnodup] at hle
    omega
  | succ fuel ih =>
    rw [dfs]
    split
    · exact ⟨_, rfl⟩
    split
    · exact ⟨_, rfl⟩
    · rename_i hnew _
      refine foldlM_total (fun next hnext st => ih (hadj node next hnext) ?_ ?_ ?_ st) _
      · exact List.forall_mem_append.mpr ⟨hpath, List.forall_mem_singleton.mpr hnode⟩
      · exact nodup_snoc hnew hnodup
      · rw [List.length_append, List.length_singleton]
        omega

theorem detect_total {vertices : Finset V} (hadj : ∀ v, ∀ next ∈ adj v, next ∈ vertices)
    {nodes : List V} (hnodes : ∀ v ∈ nodes, v ∈ vertices) {fuel : Nat}
    (hfuel : vertices.card < fuel) : ∃ cycles, detect adj fuel nodes = some cycles := by
  refine foldlM_total (fun node hnode cycles => ?_) []
  obtain ⟨st, hst⟩ := dfs_total hadj (hnodes node hnode) (List.forall_mem_nil _) List.nodup_nil
    (Nat.lt_of_lt_of_le hfuel (Nat.le_add_right _ _)) ⟨[], cycles⟩
  exact ⟨st.cycles, by rw [hst]; rfl⟩

/-- A graph in which no vertex has both a predecessor and a successor has no cycle to
report. -/
theorem detect_eq_nil {vertices : Finset V} (hadj : ∀ v, ∀ next ∈ adj v, next ∈ vertices)
    {nodes : List V} (hnodes : ∀ v ∈ nodes, v ∈ vertices) {fuel : Nat}
    (hfuel : vertices.card < fuel) (hflat : ∀ a b, b ∈ adj a → adj b = []) :
    detect adj fuel nodes = some [] := by
  obtain ⟨cycles, h⟩ := detect_total hadj hnodes hfuel
  have hnil : cycles = [] := by
    rw [List.eq_nil_iff_forall_not_mem]
    intro c hc
    obtain ⟨v, ⟨next, hnext⟩, prev, hprev⟩ := (detect_sound h c hc).head
    rw [hflat prev v hprev] at hnext
    cases hnext
  rw [h, hnil]

end LearnPg.Basis.CycleSearch
