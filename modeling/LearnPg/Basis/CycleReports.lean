import LearnPg.Basis.CycleSearch
import Mathlib.Data.List.Rotate

/-! What the search of `LearnPg.Basis.CycleSearch` reports: simple cycles only, one at least
where there is one, and each that it comes upon first once more from every vertex on it. -/
namespace LearnPg.Basis.CycleSearch

variable {V : Type} {adj : V → List V}

/-- A cycle that passes no vertex twice and is no mere loop. -/
structure IsSimpleCycle (adj : V → List V) (cycle : List V) : Prop where
  isCycle : IsCycle adj cycle
  nodup : cycle.Nodup
  long : 2 ≤ cycle.length

def Calm (adj : V → List V) : List V → Prop
  | [] => True
  | v :: rest => (∀ next ∈ adj v, next = v ∨ next ∈ rest) ∧ v ∉ rest ∧ Calm adj rest

/-- Whoever scans what `a` leads to comes to `b` after vertices of `calm` and `a` itself. -/
def Guided (adj : V → List V) (calm : List V) (a b : V) : Prop :=
  ∃ before after, adj a = before ++ b :: after ∧ ∀ v ∈ before, v ∈ calm ∨ v = a

/-- A cycle that the search from each of its vertices follows. -/
structure IsGuidedCycle (adj : V → List V) (calm cycle : List V) : Prop where
  isCalm : Calm adj calm
  closes : Closes (Guided adj calm) cycle
  nodup : cycle.Nodup
  long : 2 ≤ cycle.length
  apart : ∀ v ∈ cycle, v ∉ calm

section

variable {calm calm' cycle : List V} {a b v : V}

theorem Guided.mono (h : Guided adj calm a b) (hsub : ∀ v ∈ calm, v ∈ calm') :
    Guided adj calm' a b := by
  obtain ⟨before, after, heq, hbefore⟩ := h
  exact ⟨before, after, heq, fun v hv => (hbefore v hv).imp_left (hsub v)⟩

theorem Guided.mem (h : Guided adj calm a b) : b ∈ adj a := by
  obtain ⟨before, after, heq, -⟩ := h
  rw [heq]
  exact List.mem_append_right before List.mem_cons_self

theorem IsGuidedCycle.simple (h : IsGuidedCycle adj calm cycle) : IsSimpleCycle adj cycle := by
  obtain ⟨v, rest, heq, hchain⟩ := h.closes
  exact ⟨⟨v, rest, heq, hchain.imp fun _ _ hguided => hguided.mem⟩, h.nodup, h.long⟩

theorem IsGuidedCycle.rotate {first second : V} {more : List V}
    (h : IsGuidedCycle adj calm (first :: second :: more)) :
    IsGuidedCycle adj calm (second :: (more ++ [first])) := by
  obtain ⟨v, rest, heq, hchain⟩ := h.closes
  cases heq
  obtain ⟨hfirst, hrest⟩ := List.isChain_cons_cons.mp hchain
  have hperm : (second :: (more ++ [first])).Perm (first :: second :: more) :=
    List.perm_append_singleton first (second :: more)
  refine ⟨h.isCalm, ⟨second, more ++ [first], rfl, ?_⟩, hperm.nodup_iff.mpr h.nodup, ?_, ?_⟩
  · rw [List.cons_append, List.append_assoc, ← List.cons_append]
    exact List.isChain_append_cons_cons.mpr ⟨hrest, hfirst, List.isChain_singleton second⟩
  · rw [hperm.length_eq]
    exact h.long
  · exact fun v hv => h.apart v (hperm.mem_iff.mp hv)

theorem IsSimpleCycle.next (h : IsSimpleCycle adj cycle) (hv : v ∈ cycle) :
    ∃ next ∈ cycle, next ≠ v ∧ next ∈ adj v := by
  obtain ⟨first, rest, rfl, hchain⟩ := h.isCycle
  have hnodup := h.nodup
  have hlong := h.long
  obtain ⟨before, after, hsplit⟩ := List.append_of_mem hv
  rw [hsplit] at hchain hnodup
  cases after with
  | cons next after =>
    refine ⟨next, ?_, ?_, ?_⟩
    · rw [hsplit]
      exact List.mem_append_right before (List.mem_cons_of_mem v List.mem_cons_self)
    · rintro rfl
      exact (List.nodup_cons.mp hnodup.of_append_right).1 List.mem_cons_self
    · rw [List.append_assoc] at hchain
      exact (List.isChain_append_cons_cons.mp hchain).2.1
  | nil =>
    refine ⟨first, List.mem_cons_self, ?_, ?_⟩
    · rintro rfl
      cases before with
      | nil =>
        cases hsplit
        simp at hlong
      | cons c before =>
        obtain ⟨rfl, -⟩ := List.cons.inj hsplit
        simp at hnodup
    · rw [List.append_assoc] at hchain
      exact (List.isChain_append_cons_cons.mp hchain).2.1

theorem Calm.acyclic (hcalm : Calm adj calm) (h : IsSimpleCycle adj cycle) :
    ∀ v ∈ cycle, v ∉ calm := by
  induction calm with
  | nil => exact fun v _ => List.not_mem_nil
  | cons first calm ih =>
    obtain ⟨hnext, -, hrest⟩ := hcalm
    intro v hv hmem
    obtain rfl | hmem := List.mem_cons.mp hmem
    · obtain ⟨next, hcycle, hne, hadj⟩ := h.next hv
      exact ih hrest next hcycle ((hnext next hadj).resolve_left hne)
    · exact ih hrest v hv hmem

end

section Search

variable [DecidableEq V] {fuel : Nat} {node : V} {path calm cycle : List V} {st st' : Search V}

theorem dfs_back (hmem : node ∈ path) (h : dfs adj fuel node path st = some st') :
    st'.visited = st.visited ∧ st'.cycles =
      if 2 ≤ (path.drop (path.idxOf node)).length
      then st.cycles ++ [path.drop (path.idxOf node)] else st.cycles := by
  cases fuel with
  | zero => cases h
  | succ fuel =>
    rw [dfs, if_pos hmem] at h
    cases h
    split
    · exact ⟨rfl, rfl⟩
    · exact ⟨rfl, rfl⟩

theorem dfs_cycles (h : dfs adj fuel node path st = some st') : ∀ c ∈ st.cycles, c ∈ st'.cycles := by
  induction fuel generalizing node path st st' with
  | zero => cases h
  | succ fuel ih =>
    rw [dfs] at h
    split at h
    · dsimp only at h
      split at h
      · cases h
        exact fun c hc => List.mem_append_left _ hc
      · cases h
        exact fun c hc => hc
    split at h
    · cases h
      exact fun c hc => hc
    · intro c hc
      exact foldlM_keeps (P := fun t => c ∈ t.cycles) (fun next _ s t hs ht => ih ht c hs) hc h

theorem dfs_simple (hpath : (path ++ [node]).IsChain fun a b => b ∈ adj a) (hnodup : path.Nodup)
    (hst : ∀ c ∈ st.cycles, IsSimpleCycle adj c) (h : dfs adj fuel node path st = some st') :
    ∀ c ∈ st'.cycles, IsSimpleCycle adj c := by
  induction fuel generalizing node path st st' with
  | zero => cases h
  | succ fuel ih =>
    rw [dfs] at h
    split at h
    case isTrue hmem =>
      dsimp only at h
      split at h
      case isTrue hlong =>
        cases h
        refine List.forall_mem_append.mpr ⟨hst, List.forall_mem_singleton.mpr ?_⟩
        exact ⟨closes_drop hpath hmem, hnodup.sublist (List.drop_sublist _ _), hlong⟩
      · cases h
        exact hst
    case isFalse hnew =>
      split at h
      · cases h
        exact hst
      · refine foldlM_keeps (P := fun t => ∀ c ∈ t.cycles, IsSimpleCycle adj c) ?_ hst h
        intro next hnext s t hs ht
        refine ih ?_ (nodup_snoc hnew hnodup) hs ht
        rw [List.append_assoc]
        exact List.isChain_append_cons_cons.mpr ⟨hpath, hnext, List.isChain_singleton next⟩

/-- Between calm vertices the search finds nothing and goes nowhere else. -/
theorem dfs_calm (hcalm : Calm adj calm) (hnode : node ∈ calm) (hpath : ∀ v ∈ calm, v ∉ path)
    (h : dfs adj fuel node path st = some st') :
    st'.cycles = st.cycles ∧ ∀ v ∈ st'.visited, v ∈ st.visited ∨ v ∈ calm := by
  induction calm generalizing fuel node path st st' with
  | nil => cases hnode
  | cons first calm ih =>
    obtain ⟨hnext, hfirst, hrest⟩ := hcalm
    obtain ⟨hnew, hapart⟩ := List.forall_mem_cons.mp hpath
    obtain rfl | hnode := List.mem_cons.mp hnode
    · cases fuel with
      | zero => cases h
      | succ fuel =>
        rw [dfs, if_neg hnew] at h
        split at h
        · cases h
          exact ⟨rfl, fun v hv => .inl hv⟩
        · refine foldlM_keeps (P := fun t => t.cycles = st.cycles ∧
            ∀ v ∈ t.visited, v ∈ st.visited ∨ v ∈ node :: calm) ?_ ?_ h
          · rintro next hadj s t ⟨hs, hvisited⟩ ht
            obtain rfl | hmem := hnext next hadj
            · -- a loop is too short to be reported
              have hback := dfs_back (List.mem_append_right path List.mem_cons_self) ht
              rw [List.idxOf_append_of_notMem hnew, List.idxOf_cons_self, Nat.add_zero,
                List.drop_left] at hback
              rw [hback.1, hback.2]
              exact ⟨hs, hvisited⟩
            · obtain ⟨hsame, hmore⟩ := ih hrest hmem (fun v hv => by
                rw [List.mem_append, List.mem_singleton, not_or]
                exact ⟨hapart v hv, fun heq => hfirst (heq ▸ hv)⟩) ht
              refine ⟨hsame.trans hs, fun v hv => ?_⟩
              obtain hv | hv := hmore v hv
              · exact hvisited v hv
              · exact .inr (List.mem_cons_of_mem _ hv)
          · refine ⟨rfl, fun v hv => ?_⟩
            obtain rfl | hv := List.mem_cons.mp hv
            · exact .inr List.mem_cons_self
            · exact .inl hv
    · obtain ⟨hsame, hmore⟩ := ih hrest hnode hapart h
      exact ⟨hsame, fun v hv => (hmore v hv).imp_right (List.mem_cons_of_mem first)⟩

/-- Where the search has been along a path: at the vertices of the path, and at others that
are calm. -/
structure Clean (adj : V → List V) (path calm visited : List V) : Prop where
  isCalm : Calm adj calm
  visited : ∀ v, v ∈ visited ↔ v ∈ calm ∨ v ∈ path
  apart : ∀ v ∈ calm, v ∉ path

/-- The search has found nothing, and is done with `node`, or comes from there. -/
structure Quiet (adj : V → List V) (path calm : List V) (node : V) (st st' : Search V)
    (calm' : List V) : Prop where
  cycles : st'.cycles = st.cycles
  clean : Clean adj path calm' st'.visited
  grown : ∀ v ∈ calm, v ∈ calm'
  done : node ∈ calm' ∨ path.getLast? = some node

theorem scan_quiet_or (hdfs : ∀ calm next s t, Clean adj (path ++ [node]) calm s.visited →
      (path ++ [node] ++ [next]).IsChain (Guided adj calm) →
      dfs adj fuel next (path ++ [node]) s = some t →
      (∃ calm', Quiet adj (path ++ [node]) calm next s t calm') ∨
        ∃ calm cycle, IsGuidedCycle adj calm cycle)
    {done rest : List V} (hsplit : adj node = done ++ rest)
    (hpath : (path ++ [node]).IsChain (Guided adj calm))
    (hdone : ∀ v ∈ done, v ∈ calm ∨ v = node) (hclean : Clean adj (path ++ [node]) calm st.visited)
    (h : rest.foldlM (fun st next => dfs adj fuel next (path ++ [node]) st) st = some st') :
    (∃ last, st'.cycles = st.cycles ∧ Clean adj (path ++ [node]) last st'.visited ∧
      (∀ v ∈ calm, v ∈ last) ∧ ∀ v ∈ adj node, v ∈ last ∨ v = node) ∨
      ∃ calm cycle, IsGuidedCycle adj calm cycle := by
  induction rest generalizing done calm st with
  | nil =>
    cases h
    rw [List.append_nil] at hsplit
    exact .inl ⟨calm, rfl, hclean, fun v hv => hv, hsplit ▸ hdone⟩
  | cons next rest ih =>
    rw [List.foldlM_cons] at h
    obtain ⟨m, hm, h⟩ := Option.bind_eq_some_iff.mp h
    have hchain : (path ++ [node] ++ [next]).IsChain (Guided adj calm) := by
      rw [List.append_assoc]
      exact List.isChain_append_cons_cons.mpr ⟨hpath, ⟨done, rest, hsplit, hdone⟩,
        List.isChain_singleton next⟩
    obtain ⟨calm', hquiet⟩ | hfound := hdfs calm next st m hclean hchain hm
    · have hnext : next ∈ calm' ∨ next = node := by
        refine hquiet.done.imp_right fun hlast => ?_
        rw [List.getLast?_append, List.getLast?_singleton, Option.some_or] at hlast
        exact (Option.some.inj hlast).symm
      have hdone' : ∀ v ∈ done ++ [next], v ∈ calm' ∨ v = node :=
        List.forall_mem_append.mpr ⟨fun v hv => (hdone v hv).imp_left (hquiet.grown v),
          List.forall_mem_singleton.mpr hnext⟩
      have hsplit' : adj node = done ++ [next] ++ rest := by
        rw [hsplit, List.append_assoc, List.singleton_append]
      have hpath' := hpath.imp fun _ _ hguided => hguided.mono hquiet.grown
      obtain ⟨last, hcycles, hlast, hgrown, hall⟩ | hfound :=
        ih hsplit' hpath' hdone' hquiet.clean h
      · exact .inl ⟨last, hcycles.trans hquiet.cycles, hlast,
          fun v hv => hgrown v (hquiet.grown v hv), hall⟩
      · exact .inr hfound
    · exact .inr hfound

theorem dfs_quiet_or (hclean : Clean adj path calm st.visited) (hnodup : path.Nodup)
    (hpath : (path ++ [node]).IsChain (Guided adj calm))
    (h : dfs adj fuel node path st = some st') :
    (∃ calm', Quiet adj path calm node st st' calm') ∨
      ∃ calm cycle, IsGuidedCycle adj calm cycle := by
  induction fuel generalizing node path calm st st' with
  | zero => cases h
  | succ fuel ih =>
    rw [dfs] at h
    split at h
    case isTrue hmem =>
      dsimp only at h
      split at h
      case isTrue hlong =>
        refine .inr ⟨calm, _, hclean.isCalm, closes_drop hpath hmem,
          hnodup.sublist (List.drop_sublist _ _), hlong, fun v hv hcalm => ?_⟩
        exact hclean.apart v hcalm (List.mem_of_mem_drop hv)
      case isFalse hshort =>
        cases h
        refine .inl ⟨calm, rfl, hclean, fun v hv => hv, .inr ?_⟩
        have hlt : path.idxOf node < path.length := List.idxOf_lt_length_of_mem hmem
        rw [List.length_drop] at hshort
        have hlast : path.length - 1 = path.idxOf node := by omega
        rw [List.getLast?_eq_getElem?, hlast, List.getElem?_eq_getElem hlt, List.getElem_idxOf]
    case isFalse hnew =>
      split at h
      case isTrue hvisited =>
        cases h
        have hcalm := ((hclean.visited node).mp hvisited).resolve_right hnew
        exact .inl ⟨calm, rfl, hclean, fun v hv => hv, .inl hcalm⟩
      case isFalse hfresh =>
        have hout : node ∉ calm := fun hcalm => hfresh ((hclean.visited node).mpr (.inl hcalm))
        have hstart : Clean adj (path ++ [node]) calm (node :: st.visited) := by
          refine ⟨hclean.isCalm, fun v => ?_, fun v hv hmem => ?_⟩
          · rw [List.mem_cons, List.mem_append, List.mem_singleton, hclean.visited v]
            tauto
          · obtain hmem | hmem := List.mem_append.mp hmem
            · exact hclean.apart v hv hmem
            · exact hout (List.mem_singleton.mp hmem ▸ hv)
        obtain ⟨last, hcycles, hlast, hgrown, hall⟩ | hfound := scan_quiet_or
          (fun _ _ _ _ hclean hpath ht => ih hclean (nodup_snoc hnew hnodup) hpath ht)
          (List.nil_append _).symm hpath (List.forall_mem_nil _) hstart h
        · have hself : node ∉ last := fun hmem =>
            hlast.apart node hmem (List.mem_append_right path List.mem_cons_self)
          refine .inl ⟨node :: last, hcycles, ⟨⟨?_, hself, hlast.isCalm⟩, fun v => ?_, ?_⟩,
            fun v hv => List.mem_cons_of_mem node (hgrown v hv), .inl List.mem_cons_self⟩
          · exact fun v hv => (hall v hv).symm
          · rw [hlast.visited v, List.mem_append, List.mem_singleton, List.mem_cons]
            tauto
          · refine List.forall_mem_cons.mpr ⟨hnew, fun v hv hmem => ?_⟩
            exact hlast.apart v hv (List.mem_append_left _ hmem)
        · exact .inr hfound

theorem scan_calm {before : List V} (hcalm : Calm adj calm)
    (hbefore : ∀ v ∈ before, v ∈ calm ∨ v = node) (hapart : ∀ v ∈ calm, v ∉ path ++ [node])
    (hvisited : ∀ v ∈ st.visited, v ∈ calm ∨ v ∈ path ++ [node])
    (h : before.foldlM (fun st next => dfs adj fuel next (path ++ [node]) st) st = some st') :
    ∀ v ∈ st'.visited, v ∈ calm ∨ v ∈ path ++ [node] := by
  refine foldlM_keeps (P := fun s => ∀ v ∈ s.visited, v ∈ calm ∨ v ∈ path ++ [node]) ?_ hvisited h
  intro next hnext s t hs ht
  obtain hmem | rfl := hbefore next hnext
  · obtain ⟨-, hmore⟩ := dfs_calm hcalm hmem hapart ht
    exact fun v hv => (hmore v hv).elim (hs v) .inl
  · rw [(dfs_back (List.mem_append_right path List.mem_cons_self) ht).1]
    exact hs

theorem dfs_follows {first : V} {more : List V} (hcalm : Calm adj calm)
    (hcycle : (path ++ node :: more).head? = some first) (hnodup : (path ++ node :: more).Nodup)
    (hlong : 2 ≤ (path ++ node :: more).length)
    (hchain : (node :: more ++ [first]).IsChain (Guided adj calm))
    (hapart : ∀ v ∈ path ++ node :: more, v ∉ calm)
    (hvisited : ∀ v ∈ st.visited, v ∈ calm ∨ v ∈ path)
    (h : dfs adj fuel node path st = some st') : path ++ node :: more ∈ st'.cycles := by
  induction fuel generalizing node path more st st' with
  | zero => cases h
  | succ fuel ih =>
    have hnew : node ∉ path := fun hmem =>
      List.disjoint_of_nodup_append hnodup hmem List.mem_cons_self
    have hfresh : node ∉ st.visited := fun hmem =>
      (hvisited node hmem).elim (hapart node (List.mem_append_right path List.mem_cons_self)) hnew
    rw [dfs, if_neg hnew, if_neg hfresh] at h
    have hstart : ∀ v ∈ node :: st.visited, v ∈ calm ∨ v ∈ path ++ [node] := by
      refine List.forall_mem_cons.mpr ⟨?_, fun v hv => ?_⟩
      · exact .inr (List.mem_append_right path List.mem_cons_self)
      · exact (hvisited v hv).imp_right (List.mem_append_left _)
    have hout : ∀ v ∈ calm, v ∉ path ++ [node] := fun v hv hmem => by
      rw [List.mem_append, List.mem_singleton] at hmem
      refine hapart v ?_ hv
      rw [List.mem_append, List.mem_cons]
      exact hmem.imp_right .inl
    have hstep (next : V) (hguided : Guided adj calm node next)
        (hreport : ∀ s t : Search V, (∀ v ∈ s.visited, v ∈ calm ∨ v ∈ path ++ [node]) →
          dfs adj fuel next (path ++ [node]) s = some t → path ++ node :: more ∈ t.cycles) :
        path ++ node :: more ∈ st'.cycles := by
      obtain ⟨before, after, hsplit, hbefore⟩ := hguided
      rw [hsplit, List.foldlM_append] at h
      obtain ⟨s, hs, h⟩ := Option.bind_eq_some_iff.mp h
      rw [List.foldlM_cons] at h
      obtain ⟨t, ht, h⟩ := Option.bind_eq_some_iff.mp h
      exact foldlM_keeps (P := fun t => path ++ node :: more ∈ t.cycles)
        (fun _ _ _ _ hs ht => dfs_cycles ht _ hs)
        (hreport s t (scan_calm hcalm hbefore hout hstart hs) ht) h
    cases more with
    | nil =>
      refine hstep first (List.isChain_pair.mp hchain) fun s t _ ht => ?_
      obtain ⟨rest, hrest⟩ := List.head?_eq_some_iff.mp hcycle
      have hback := (dfs_back (List.mem_of_head? hcycle) ht).2
      rw [hrest, List.idxOf_cons_self, List.drop_zero, ← hrest, if_pos hlong] at hback
      rw [hback]
      exact List.mem_append_right _ List.mem_cons_self
    | cons next more =>
      obtain ⟨hguided, hrest⟩ := List.isChain_cons_cons.mp hchain
      have heq : path ++ node :: next :: more = path ++ [node] ++ next :: more := by
        rw [List.append_assoc, List.singleton_append]
      refine hstep next hguided fun s t hs ht => ?_
      rw [heq] at hcycle hnodup hlong hapart ⊢
      exact ih hcycle hnodup hlong hrest hapart hs ht

/-! The search from every vertex in turn. -/

variable {nodes : List V} {cycles : List (List V)}

def reports (adj : V → List V) (fuel : Nat) (node : V) : List (List V) :=
  ((dfs adj fuel node [] ⟨[], []⟩).map Search.cycles).getD []

theorem dfs_append (before : List (List V)) (st : Search V) :
    dfs adj fuel node path { st with cycles := before ++ st.cycles } =
      (dfs adj fuel node path st).map fun st => { st with cycles := before ++ st.cycles } := by
  induction fuel generalizing node path st with
  | zero => rfl
  | succ fuel ih =>
    rw [dfs, dfs]
    split
    · dsimp only
      split
      · rw [Option.map_some, List.append_assoc]
      · rfl
    split
    · rfl
    · have hscan (nexts : List V) (st : Search V) :
          nexts.foldlM (fun st next => dfs adj fuel next (path ++ [node]) st)
              { st with cycles := before ++ st.cycles } =
            (nexts.foldlM (fun st next => dfs adj fuel next (path ++ [node]) st) st).map
              fun st => { st with cycles := before ++ st.cycles } := by
        induction nexts generalizing st with
        | nil => rfl
        | cons next nexts ihnexts =>
          rw [List.foldlM_cons, List.foldlM_cons, ih]
          cases dfs adj fuel next (path ++ [node]) st with
          | none => rfl
          | some m => exact ihnexts m
      exact hscan (adj node) { st with visited := node :: st.visited }

theorem detect_eq_flatMap (h : detect adj fuel nodes = some cycles) :
    cycles = nodes.flatMap (reports adj fuel) ∧
      ∀ node ∈ nodes, ∃ st, dfs adj fuel node [] ⟨[], []⟩ = some st ∧
        reports adj fuel node = st.cycles := by
  suffices hall : ∀ before, nodes.foldlM (fun cycles node =>
      (dfs adj fuel node [] ⟨[], cycles⟩).map Search.cycles) before = some cycles →
      cycles = before ++ nodes.flatMap (reports adj fuel) ∧
        ∀ node ∈ nodes, ∃ st, dfs adj fuel node [] ⟨[], []⟩ = some st ∧
          reports adj fuel node = st.cycles from hall [] h
  clear h
  induction nodes with
  | nil =>
    intro before h
    cases h
    exact ⟨(List.append_nil _).symm, List.forall_mem_nil _⟩
  | cons node nodes ih =>
    intro before h
    rw [List.foldlM_cons] at h
    obtain ⟨next, hnext, h⟩ := Option.bind_eq_some_iff.mp h
    obtain ⟨hcycles, hnodes⟩ := ih next h
    have happend : dfs adj fuel node [] ⟨[], before ++ []⟩ =
        (dfs adj fuel node [] ⟨[], []⟩).map fun st => { st with cycles := before ++ st.cycles } :=
      dfs_append before ⟨[], []⟩
    rw [List.append_nil] at happend
    rw [happend] at hnext
    obtain ⟨st', hst', rfl⟩ := Option.map_eq_some_iff.mp hnext
    obtain ⟨st, hst, rfl⟩ := Option.map_eq_some_iff.mp hst'
    have hreports : reports adj fuel node = st.cycles := by
      rw [reports, hst]
      rfl
    refine ⟨?_, List.forall_mem_cons.mpr ⟨⟨st, hst, hreports⟩, hnodes⟩⟩
    rw [hcycles, List.flatMap_cons, hreports, List.append_assoc]

theorem detect_simple (h : detect adj fuel nodes = some cycles) :
    ∀ c ∈ cycles, IsSimpleCycle adj c := by
  obtain ⟨rfl, hnodes⟩ := detect_eq_flatMap h
  intro c hc
  obtain ⟨node, hnode, hc⟩ := List.mem_flatMap.mp hc
  obtain ⟨st, hst, hreports⟩ := hnodes node hnode
  rw [hreports] at hc
  exact dfs_simple (List.isChain_singleton node) List.nodup_nil (List.forall_mem_nil _) hst c hc

/-- Where there is a cycle there is a guided one. -/
theorem exists_guided (hmem : ∀ v, adj v ≠ [] → v ∈ nodes)
    (h : detect adj fuel nodes = some cycles) (hcycle : IsSimpleCycle adj cycle) :
    ∃ calm cycle, IsGuidedCycle adj calm cycle := by
  obtain ⟨first, rest, heq, -⟩ := hcycle.isCycle
  have hfirst : first ∈ cycle := heq ▸ List.mem_cons_self
  obtain ⟨next, -, -, hnext⟩ := hcycle.next hfirst
  obtain ⟨-, hnodes⟩ := detect_eq_flatMap h
  obtain ⟨st, hst, -⟩ := hnodes first (hmem first (List.ne_nil_of_mem hnext))
  have hclean : Clean adj [] [] ([] : List V) :=
    ⟨trivial, fun v => by simp, List.forall_mem_nil _⟩
  obtain ⟨calm, hquiet⟩ | hfound :=
    dfs_quiet_or hclean List.nodup_nil (List.isChain_singleton first) hst
  · exact absurd (hquiet.done.resolve_right nofun) (hquiet.clean.isCalm.acyclic hcycle first hfirst)
  · exact hfound

/-- The search from a vertex of a guided cycle reports the cycle, as it is from there. -/
theorem mem_reports {first : V} {more : List V} (hguided : IsGuidedCycle adj calm (first :: more))
    (hmem : ∀ v, adj v ≠ [] → v ∈ nodes) (h : detect adj fuel nodes = some cycles) :
    first ∈ nodes ∧ first :: more ∈ reports adj fuel first := by
  obtain ⟨v, rest, heq, hchain⟩ := hguided.closes
  cases heq
  obtain ⟨next, -, -, hnext⟩ := hguided.simple.next List.mem_cons_self
  have hnode := hmem first (List.ne_nil_of_mem hnext)
  obtain ⟨-, hnodes⟩ := detect_eq_flatMap h
  obtain ⟨st, hst, hreports⟩ := hnodes first hnode
  rw [hreports]
  exact ⟨hnode, dfs_follows hguided.isCalm rfl hguided.nodup hguided.long hchain hguided.apart
    (List.forall_mem_nil _) hst⟩

theorem detect_ne_nil_iff (hmem : ∀ v, adj v ≠ [] → v ∈ nodes)
    (h : detect adj fuel nodes = some cycles) :
    cycles ≠ [] ↔ ∃ cycle, IsSimpleCycle adj cycle := by
  constructor
  · intro hne
    obtain ⟨c, hc⟩ := List.exists_mem_of_ne_nil cycles hne
    exact ⟨c, detect_simple h c hc⟩
  · rintro ⟨cycle, hcycle⟩
    obtain ⟨calm, found, hguided⟩ := exists_guided hmem h hcycle
    obtain ⟨first, more, rfl, -⟩ := hguided.closes
    obtain ⟨hnode, hreport⟩ := mem_reports hguided hmem h
    rw [(detect_eq_flatMap h).1]
    exact List.ne_nil_of_mem (List.mem_flatMap.mpr ⟨first, hnode, hreport⟩)

/-- No two reports are one cycle exactly if there is none. -/
theorem detect_distinct_iff (hmem : ∀ v, adj v ≠ [] → v ∈ nodes)
    (h : detect adj fuel nodes = some cycles) :
    (cycles.Pairwise fun a b => ¬ a ~r b) ↔ ¬ ∃ cycle, IsSimpleCycle adj cycle := by
  constructor
  · rintro hdistinct ⟨cycle, hcycle⟩
    obtain ⟨calm, found, hguided⟩ := exists_guided hmem h hcycle
    obtain ⟨first, rest, rfl, -⟩ := hguided.closes
    cases rest with
    | nil => exact absurd hguided.long (by simp)
    | cons second more =>
      obtain ⟨hfirst, hreport⟩ := mem_reports hguided hmem h
      obtain ⟨hsecond, hrotated⟩ := mem_reports hguided.rotate hmem h
      rw [(detect_eq_flatMap h).1, List.pairwise_flatMap] at hdistinct
      have hne : first ≠ second := fun heq =>
        (List.nodup_cons.mp hguided.nodup).1 (heq ▸ List.mem_cons_self)
      have hsymm : Std.Symm fun v w => ∀ a ∈ reports adj fuel v, ∀ b ∈ reports adj fuel w,
          ¬ a ~r b := ⟨fun v w hvw a ha b hb hab => hvw b hb a ha hab.symm⟩
      refine hdistinct.2.forall hfirst hsecond hne _ hreport _ hrotated ⟨1, ?_⟩
      rw [List.rotate_cons_succ, List.rotate_zero]
      rfl
  · intro hnone
    have hnil : cycles = [] := by
      by_contra hne
      exact hnone ((detect_ne_nil_iff hmem h).mp hne)
    rw [hnil]
    exact .nil

end Search

end LearnPg.Basis.CycleSearch
