import LearnPg.Frontend.Session
import LearnPg.Workspace.Edits
import LearnPg.Workspace.Erasure
import LearnPg.Workspace.Writes

/-! When the frontend's autosave keeps what the backend has appended. -/
namespace LearnPg.Frontend

open Workspace.Data Workspace.Store Workspace.Places Workspace.Edits Workspace.Erasure
  Workspace.Writes LearnPg.Basis.Runs LearnPg.Basis

section Holds

variable {s : WorkspaceStore} {w : World} {file file' : File} {ps qs : Slice Project} {item : Item}

theorem projectHolds_congr {p q : Project} (h : skProject p = skProject q)
    (hp : ProjectHolds p item) : ProjectHolds q item := by
  obtain ⟨hid, hclusters⟩ := Prod.mk.inj h
  have hcluster {c : Cluster} (hc : c ∈ p.clusters.items) :
      ∃ d ∈ q.clusters.items, skCluster d = skCluster c := by
    have hmem : skCluster c ∈ q.clusters.items.map skCluster := by
      rw [← hclusters]
      exact List.mem_map_of_mem hc
    exact List.mem_map.mp hmem
  cases item with
  | cluster projectID clusterID =>
    obtain ⟨hproject, c, hc, hcid⟩ := hp
    obtain ⟨d, hd, hsame⟩ := hcluster hc
    exact ⟨hid.symm.trans hproject, d, hd, (Prod.mk.inj hsame).1.trans hcid⟩
  | node projectID clusterID nodeID =>
    obtain ⟨hproject, c, hc, hcid, n, hn, hnid⟩ := hp
    obtain ⟨d, hd, hsame⟩ := hcluster hc
    obtain ⟨hdid, hnodes⟩ := Prod.mk.inj hsame
    have hmem : skNode n ∈ d.nodes.items.map skNode := by
      rw [hnodes]
      exact List.mem_map_of_mem hn
    obtain ⟨m, hm, hskeleton⟩ := List.mem_map.mp hmem
    exact ⟨hid.symm.trans hproject, d, hd, hdid.trans hcid, m, hm,
      (Prod.mk.inj hskeleton).1.trans hnid⟩

theorem holds_congr (h : skeleton ps = skeleton qs) (hps : Holds ps item) : Holds qs item := by
  obtain ⟨p, hp, hitem⟩ := hps
  have hmem : skProject p ∈ skeleton qs := by
    rw [← h]
    exact List.mem_map_of_mem hp
  obtain ⟨q, hq, hsame⟩ := List.mem_map.mp hmem
  exact ⟨q, hq, projectHolds_congr hsame.symm hitem⟩

theorem skeleton_written (h : OnNodes (WrittenAs s) ps qs) : skeleton qs = skeleton ps := by
  have hblank (qs : Slice Project) :
      skeleton (mapNodes (fun n => { n with password := "" }) qs) = skeleton qs :=
    skeleton_mapNodes fun _ => rfl
  have hsame : mapNodes (fun n => { n with password := "" }) qs =
      mapNodes (fun n => { n with password := "" }) ps := by
    apply h.mapNodes_eq
    intro n n' hn
    obtain ⟨password, rfl⟩ := writtenAs_same hn
    rfl
  rw [← hblank, hsame, hblank]

theorem skeleton_read (h : readAll s w file = .ok ps) :
    skeleton ps = skeleton (storedProjects file) := by
  obtain ⟨env, henv, rfl⟩ := read_of_readAll h
  rw [projects_of_read henv, skeleton_mapNodes, skeleton_normalize]
  intro n
  obtain ⟨password, hn⟩ := readNode_same (s := s) n
  rw [hn]
  rfl

theorem skeleton_writeAll (h : writeAll s w ps file = .ok file') :
    skeleton (storedProjects file') = skeleton ps := by
  rw [skeleton_written (projects_of_write h)]
  exact skeleton_normalize

theorem holds_edit {projectID missing : String} {patch : Project → Except String Project}
    (hpatch : ∀ p q, patch p = .ok q → ProjectHolds p item → ProjectHolds q item)
    (h : editSlice (fun p : Project => if p.id = projectID then some (patched patch p) else none)
      missing ps = .ok qs) (hps : Holds ps item) : Holds qs item := by
  obtain ⟨pre, p, post, zs, hitems, -, -, hzs, rfl⟩ := editById_ok h
  obtain ⟨q, hq, rfl⟩ := patched_ok hzs
  obtain ⟨p', hp', hitem⟩ := hps
  rw [hitems, List.mem_append, List.mem_cons] at hp'
  obtain hmem | rfl | hmem := hp'
  · exact ⟨p', List.mem_append_left _ hmem, hitem⟩
  · exact ⟨q, by simp, hpatch p' q hq hitem⟩
  · exact ⟨p', by simp [hmem], hitem⟩

theorem holds_edited {projectID missing : String} {patch : Project → Except String Project}
    (hpatch : ∀ p q, p.id = projectID → patch p = .ok q → ProjectHolds q item)
    (h : editSlice (fun p : Project => if p.id = projectID then some (patched patch p) else none)
      missing ps = .ok qs) : Holds qs item := by
  obtain ⟨pre, p, post, zs, -, -, hid, hzs, rfl⟩ := editById_ok h
  obtain ⟨q, hq, rfl⟩ := patched_ok hzs
  exact ⟨q, by simp, hpatch p q hid hq⟩

theorem appendCluster_holds {projectID : String} {cluster : Cluster}
    (h : appendCluster s w projectID cluster file = .ok qs) :
    Holds qs (.cluster projectID cluster.id) ∧
      ∀ item, Holds (storedProjects file) item → Holds qs item := by
  unfold appendCluster at h
  split at h
  · cases h
  obtain ⟨ps, hread, h⟩ := bind_ok.mp h
  refine ⟨holds_edited ?_ h, fun item hitem => ?_⟩
  · intro p q hid hq
    split at hq
    · cases hq
    cases hq
    exact ⟨hid, { cluster with nodes := .of cluster.nodes.items },
      List.mem_append_right _ (List.mem_singleton.mpr rfl), rfl⟩
  · apply holds_edit _ h (holds_congr (skeleton_read hread).symm hitem)
    intro p q hq hp
    split at hq
    · cases hq
    cases hq
    cases item with
    | cluster =>
      obtain ⟨hid, c, hc, hcid⟩ := hp
      exact ⟨hid, c, List.mem_append_left _ hc, hcid⟩
    | node =>
      obtain ⟨hid, c, hc, hnode⟩ := hp
      exact ⟨hid, c, List.mem_append_left _ hc, hnode⟩

theorem appendNode_holds {projectID clusterID : String} {node : Node}
    (h : appendNode s w projectID clusterID node file = .ok qs) :
    Holds qs (.node projectID clusterID node.id) ∧
      ∀ item, Holds (storedProjects file) item → Holds qs item := by
  unfold appendNode at h
  split at h
  · cases h
  obtain ⟨ps, hread, h⟩ := bind_ok.mp h
  refine ⟨holds_edited ?_ h, fun item hitem => ?_⟩
  · intro p q hid hq
    obtain ⟨clusters, hclusters, rfl⟩ := editCluster_ok hq
    obtain ⟨pre, c, post, ds, -, -, hcid, hds, rfl⟩ := editById_ok hclusters
    obtain ⟨d, hd, rfl⟩ := patched_ok hds
    split at hd
    · cases hd
    cases hd
    exact ⟨hid, _, List.mem_append_right _ List.mem_cons_self, hcid, node,
      List.mem_append_right _ (List.mem_singleton.mpr rfl), rfl⟩
  · apply holds_edit _ h (holds_congr (skeleton_read hread).symm hitem)
    intro p q hq hp
    obtain ⟨clusters, hclusters, rfl⟩ := editCluster_ok hq
    obtain ⟨pre, c, post, ds, hitems, -, -, hds, rfl⟩ := editById_ok hclusters
    obtain ⟨d, hd, rfl⟩ := patched_ok hds
    split at hd
    · cases hd
    cases hd
    have hkept {b : Cluster} (hb : b ∈ p.clusters.items) :
        ∃ d ∈ pre ++ ({ c with nodes := c.nodes.append node } :: post), d.id = b.id ∧
          ∀ n ∈ b.nodes.items, n ∈ d.nodes.items := by
      rw [hitems, List.mem_append, List.mem_cons] at hb
      obtain hmem | rfl | hmem := hb
      · exact ⟨b, List.mem_append_left _ hmem, rfl, fun _ => id⟩
      · exact ⟨_, List.mem_append_right _ List.mem_cons_self, rfl,
          fun n hn => List.mem_append_left _ hn⟩
      · exact ⟨b, List.mem_append_right _ (List.mem_cons_of_mem _ hmem), rfl, fun _ => id⟩
    cases item with
    | cluster =>
      obtain ⟨hid, b, hb, hbid⟩ := hp
      obtain ⟨d, hd, hsame, -⟩ := hkept hb
      exact ⟨hid, d, hd, hsame.trans hbid⟩
    | node =>
      obtain ⟨hid, b, hb, hbid, n, hn, hnid⟩ := hp
      obtain ⟨d, hd, hsame, hnodes⟩ := hkept hb
      exact ⟨hid, d, hd, hsame.trans hbid, n, hnodes n hn, hnid⟩

end Holds

section Run

variable {ι : Type} {s : WorkspaceStore} {appends : ι → Append × World} {st t : Session ι}

def itemOf (appends : ι → Append × World) (i : ι) : Item := (appends i).1.item

/-- The list has every append reported when it was loaded, but what the user has
removed. -/
def Covers (appends : ι → Append × World) (removed : Set Item) (copy : Copy ι) : Prop :=
  ∀ i ∈ copy.seen, itemOf appends i ∉ removed → Holds copy.projects (itemOf appends i)

def Session.Carries (st : Session ι) (copy : Copy ι) : Prop :=
  copy = st.page.projects ∨ st.page.timer = some copy ∨ copy ∈ st.responses ∨ copy ∈ st.puts

structure Sound (appends : ι → Append × World) (st : Session ι) : Prop where
  file : ∀ i ∈ st.reported, itemOf appends i ∉ st.removed →
    Holds (storedProjects st.backend.shared) (itemOf appends i)
  plans : ∀ i plan, st.backend.pc i = .prepared plan → Holds plan (itemOf appends i) ∧
    ∀ j ∈ st.prepared i, itemOf appends j ∉ st.removed → Holds plan (itemOf appends j)
  copies : ∀ copy, st.Carries copy → Covers appends st.removed copy

/-- No call of a write fails. -/
def WritesWork (w : World) : Prop :=
  w.mkdirError = none ∧ w.writeError = none ∧ w.renameError = none

/-- The list was read when every append reported by now had been reported, but those
the user has removed. -/
def UpToDate (appends : ι → Append × World) (st : Session ι) (seen : Set ι) : Prop :=
  ∀ i ∈ st.reported, i ∈ seen ∨ itemOf appends i ∈ st.removed

/-- What keeps the appends in the file: no list is written that was read before the
latest of them. -/
def Fits (appends : ι → Append × World) (st : Session ι) : Label ι → Prop
  | .append i =>
    (∃ plan, st.backend.pc i = .prepared plan) → WritesWork (appends i).2 →
      UpToDate appends st (st.prepared i)
  | .servePut j w => ∀ put, st.puts[j]? = some put → WritesWork w → UpToDate appends st put.seen
  | _ => True

theorem Covers.mono {removed removed' : Set Item} {copy : Copy ι} (h : Covers appends removed copy)
    (hsub : removed ⊆ removed') : Covers appends removed' copy :=
  fun i hi hremoved => h i hi fun hmem => hremoved (hsub hmem)

theorem Sound.carry (h : Sound appends st) (hbackend : t.backend = st.backend)
    (hprepared : t.prepared = st.prepared) (hremoved : t.removed = st.removed)
    (hcopies : ∀ copy, t.Carries copy → st.Carries copy ∨ copy.seen = ∅) : Sound appends t where
  file := by
    unfold Session.reported
    rw [hbackend, hremoved]
    exact h.file
  plans := by
    rw [hbackend, hprepared, hremoved]
    exact h.plans
  copies := by
    intro copy hcopy
    rw [hremoved]
    obtain hold | hseen := hcopies copy hcopy
    · exact h.copies copy hold
    · intro i hi
      rw [hseen] at hi
      exact hi.elim

/-- The page shows a list that the backend has answered. -/
theorem Sound.load (h : Sound appends st) {j : Nat} {response : Copy ι}
    (hresponse : st.responses[j]? = some response) {page : Page ι}
    (hprojects : page.projects = response) (htimer : page.timer = st.page.timer) :
    Sound appends { st with responses := st.responses.eraseIdx j, page } := by
  refine h.carry rfl rfl rfl ?_
  rintro copy (rfl | hpending | hmem | hput)
  · rw [hprojects]
    exact .inl (.inr (.inr (.inl (List.mem_of_getElem? hresponse))))
  · exact .inl (.inr (.inl (htimer.symm.trans hpending)))
  · exact .inl (.inr (.inr (.inl (List.mem_of_mem_eraseIdx hmem))))
  · exact .inl (.inr (.inr (.inr hput)))

theorem writesWork {w : World} {ps : Slice Project} {file file' : File}
    (h : writeAll s w ps file = .ok file') : WritesWork w := by
  unfold writeAll writeEnvelopeLocked at h
  obtain ⟨_, hmkdir, h⟩ := bind_ok.mp h
  obtain ⟨_, -, h⟩ := bind_ok.mp h
  obtain ⟨_, hwrite, h⟩ := bind_ok.mp h
  obtain ⟨_, hrename, -⟩ := bind_ok.mp h
  exact ⟨check_ok hmkdir, check_ok hwrite, check_ok hrename⟩

variable [DecidableEq ι] {i : ι}

/-- The sections of an append: it prepares a list that has the new item and all that
the file has, or it writes such a list. -/
theorem append_cases {b b' : Sections.State ι File (Slice Project) String}
    (h : Sections.step (ops s appends) b i = some b') :
    (∃ pc, b' = b.move i pc ∧ pc ≠ .succeeded ∧ b.pc i ≠ .succeeded ∧
      ∀ plan, pc = .prepared plan → Holds plan (itemOf appends i) ∧
        ∀ item, Holds (storedProjects b.shared) item → Holds plan item) ∨
    ∃ plan file, b.pc i = .prepared plan ∧ writeAll s (appends i).2 plan b.shared = .ok file ∧
      b' = { b with shared := file }.move i .succeeded := by
  obtain ⟨prepare, hop, hprepare⟩ : ∃ prepare,
      ops s appends i = .split prepare (writeAll s (appends i).2) ∧
      ∀ file plan, prepare file = .ok plan → Holds plan (itemOf appends i) ∧
        ∀ item, Holds (storedProjects file) item → Holds plan item := by
    unfold ops itemOf
    cases (appends i).1 with
    | cluster projectID c => exact ⟨_, rfl, fun file plan => appendCluster_holds⟩
    | node projectID clusterID n => exact ⟨_, rfl, fun file plan => appendNode_holds⟩
  unfold Sections.step at h
  rw [hop] at h
  cases hpc : b.pc i with
  | waiting =>
    rw [hpc] at h
    dsimp only at h
    split at h
    next plan hplan =>
      cases h
      refine .inl ⟨.prepared plan, rfl, by simp, by simp, fun plan' heq => ?_⟩
      cases heq
      exact hprepare _ _ hplan
    next e he =>
      cases h
      exact .inl ⟨.failed e, rfl, by simp, by simp, fun plan heq => by cases heq⟩
  | prepared plan =>
    rw [hpc] at h
    dsimp only at h
    cases hwrite : writeAll s (appends i).2 plan b.shared with
    | error e =>
      rw [hwrite] at h
      cases h
      exact .inl ⟨.failed e, rfl, by simp, by simp, fun plan heq => by cases heq⟩
    | ok file =>
      rw [hwrite] at h
      cases h
      exact .inr ⟨plan, file, rfl, hwrite, rfl⟩
  | succeeded =>
    rw [hpc] at h
    cases h
  | failed e =>
    rw [hpc] at h
    cases h

theorem Sound.plans_update (h : Sound appends st) {reported : Set ι} {j : ι} (hij : j ≠ i)
    {plan : Slice Project} (hj : st.backend.pc j = .prepared plan) :
    Holds plan (itemOf appends j) ∧ ∀ k ∈ Function.update st.prepared i reported j,
      itemOf appends k ∉ st.removed → Holds plan (itemOf appends k) := by
  rw [Function.update_of_ne hij]
  exact h.plans j plan hj

theorem Sound.append (h : Sound appends st) (hfits : Fits appends st (.append i))
    (hstep : step s appends st (.append i) = some t) : Sound appends t := by
  obtain ⟨backend, hbackend, rfl⟩ := Option.map_eq_some_iff.mp hstep
  obtain ⟨pc, rfl, hto, hfrom, hplan⟩ | ⟨plan, file, hpc, hwrite, rfl⟩ := append_cases hbackend
  · refine ⟨fun j hj => h.file j ?_, fun j plan hj => ?_, h.copies⟩
    · change (st.backend.move i pc).pc j = .succeeded at hj
      by_cases hij : j = i
      · rw [hij, Sections.State.pc_move_self] at hj
        exact absurd hj hto
      · rw [Sections.State.pc_move_of_ne _ hij] at hj
        exact hj
    · change (st.backend.move i pc).pc j = .prepared plan at hj
      by_cases hij : j = i
      · rw [hij, Sections.State.pc_move_self] at hj
        obtain ⟨hitem, hall⟩ := hplan plan hj
        rw [hij]
        refine ⟨hitem, fun k hk hremoved => hall _ (h.file k ?_ hremoved)⟩
        change k ∈ Function.update st.prepared i st.reported i at hk
        rw [Function.update_self] at hk
        exact hk
      · rw [Sections.State.pc_move_of_ne _ hij] at hj
        exact h.plans_update hij hj
  · have hupdated := hfits ⟨plan, hpc⟩ (writesWork hwrite)
    obtain ⟨hitem, hplan⟩ := h.plans i plan hpc
    refine ⟨fun j hj hremoved => ?_, fun j plan' hj => ?_, h.copies⟩
    · apply holds_congr (skeleton_writeAll hwrite).symm
      change ({ st.backend with shared := file }.move i .succeeded).pc j = .succeeded at hj
      by_cases hij : j = i
      · rw [hij]
        exact hitem
      · rw [Sections.State.pc_move_of_ne _ hij] at hj
        obtain hseen | hgone := hupdated j hj
        · exact hplan j hseen hremoved
        · exact absurd hgone hremoved
    · change ({ st.backend with shared := file }.move i .succeeded).pc j = .prepared plan' at hj
      by_cases hij : j = i
      · rw [hij, Sections.State.pc_move_self] at hj
        cases hj
      · rw [Sections.State.pc_move_of_ne _ hij] at hj
        exact h.plans_update hij hj

theorem Sound.serveGet (h : Sound appends st) {w : World}
    (hstep : step s appends st (.serveGet w) = some t) : Sound appends t := by
  unfold step at hstep
  dsimp only at hstep
  split at hstep
  · cases hstep
    exact h
  next projects hread =>
    cases hstep
    refine ⟨h.file, h.plans, fun copy hcopy => ?_⟩
    obtain hpage | htimer | hresponse | hput := hcopy
    · exact h.copies copy (.inl hpage)
    · exact h.copies copy (.inr (.inl htimer))
    · obtain hold | hnew := List.mem_append.mp hresponse
      · exact h.copies copy (.inr (.inr (.inl hold)))
      · obtain rfl := List.mem_singleton.mp hnew
        intro j hj hremoved
        apply holds_congr _ (h.file j hj hremoved)
        rw [← skeleton_read hread]
        exact skeleton_normalize.symm
    · exact h.copies copy (.inr (.inr (.inr hput)))

theorem Sound.servePut (h : Sound appends st) {j : Nat} {w : World}
    (hfits : Fits appends st (.servePut j w))
    (hstep : step s appends st (.servePut j w) = some t) : Sound appends t := by
  obtain ⟨put, hput, rfl⟩ := Option.map_eq_some_iff.mp hstep
  have herase : Sound appends { st with puts := st.puts.eraseIdx j } := by
    refine h.carry rfl rfl rfl ?_
    rintro copy (hpage | htimer | hresponse | hmem)
    · exact .inl (.inl hpage)
    · exact .inl (.inr (.inl htimer))
    · exact .inl (.inr (.inr (.inl hresponse)))
    · exact .inl (.inr (.inr (.inr (List.mem_of_mem_eraseIdx hmem))))
  unfold Session.replaceFile
  split
  next file hwrite =>
    refine ⟨fun i hi hremoved => ?_, herase.plans, herase.copies⟩
    apply holds_congr (skeleton_writeAll hwrite).symm
    have hcovers := h.copies put (.inr (.inr (.inr (List.mem_of_getElem? hput))))
    obtain hseen | hgone := hfits put hput (writesWork hwrite) i hi
    · exact hcovers i hseen hremoved
    · exact absurd hgone hremoved
  next => exact herase

theorem Sound.edit (h : Sound appends st) {next : Slice Project}
    (hstep : step s appends st (.edit next) = some t) : Sound appends t := by
  cases hstep
  have hsub : st.removed ⊆ st.removed ∪
      { item | Holds st.page.projects.projects item ∧ ¬ Holds next item } := fun _ => Or.inl
  refine ⟨fun i hi hremoved => h.file i hi fun hmem => hremoved (hsub hmem),
    fun i plan hplan => ⟨(h.plans i plan hplan).1, fun j hj hremoved =>
      (h.plans i plan hplan).2 j hj fun hmem => hremoved (hsub hmem)⟩, fun copy hcopy => ?_⟩
  obtain rfl | hrest := hcopy
  · intro i hi hremoved
    have hbefore := h.copies _ (.inl rfl) i hi fun hmem => hremoved (hsub hmem)
    by_contra hnext
    exact hremoved (.inr ⟨hbefore, hnext⟩)
  · exact (h.copies copy (.inr hrest)).mono hsub

theorem Sound.step (h : Sound appends st) {l : Label ι} (hfits : Fits appends st l)
    (hstep : step s appends st l = some t) : Sound appends t := by
  cases l with
  | append i => exact h.append hfits hstep
  | serveGet w => exact h.serveGet hstep
  | servePut j w => exact h.servePut hfits hstep
  | edit next => exact h.edit hstep
  | mounted j =>
    cases j with
    | none =>
      unfold Frontend.step at hstep
      dsimp only at hstep
      split at hstep
      · cases hstep
      · cases hstep
        exact h.carry rfl rfl rfl fun copy => .inl
    | some j =>
      unfold Frontend.step at hstep
      dsimp only at hstep
      split at hstep
      · cases hstep
      · obtain ⟨response, hresponse, rfl⟩ := Option.map_eq_some_iff.mp hstep
        exact h.load hresponse rfl rfl
  | reload j =>
    obtain ⟨response, hresponse, rfl⟩ := Option.map_eq_some_iff.mp hstep
    exact h.load hresponse rfl rfl
  | effect =>
    unfold Frontend.step at hstep
    dsimp only at hstep
    split at hstep
    · cases hstep
      refine h.carry rfl rfl rfl ?_
      rintro copy (hpage | htimer | hrest)
      · exact .inl (.inl hpage)
      · unfold Page.autosave at htimer
        split at htimer
        · cases htimer
          exact .inl (.inl rfl)
        · cases htimer
      · exact .inl (.inr (.inr hrest))
    · cases hstep
  | timeout =>
    obtain ⟨projects, htimer, rfl⟩ := Option.map_eq_some_iff.mp hstep
    refine h.carry rfl rfl rfl ?_
    rintro copy (hpage | hnone | hresponse | hmem)
    · exact .inl (.inl hpage)
    · cases hnone
    · exact .inl (.inr (.inr (.inl hresponse)))
    · obtain hput | hnew := List.mem_append.mp hmem
      · exact .inl (.inr (.inr (.inr hput)))
      · obtain rfl := List.mem_singleton.mp hnew
        exact .inl (.inr (.inl htimer))
  | save =>
    cases hstep
    refine h.carry rfl rfl rfl ?_
    rintro copy (hpage | htimer | hresponse | hmem)
    · exact .inl (.inl hpage)
    · exact .inl (.inr (.inl htimer))
    · exact .inl (.inr (.inr (.inl hresponse)))
    · obtain hput | hnew := List.mem_append.mp hmem
      · exact .inl (.inr (.inr (.inr hput)))
      · exact .inl (.inl (List.mem_singleton.mp hnew))
  | openPage =>
    cases hstep
    refine h.carry rfl rfl rfl ?_
    rintro copy (rfl | htimer | hmem | hput)
    · exact .inr rfl
    · cases htimer
    · cases hmem
    · exact .inl (.inr (.inr (.inr hput)))

/-- In every run whose steps fit, what the backend has reported as appended and the
user has not removed is in the file. -/
theorem appends_kept {file : File} {labels : List (Label ι)}
    (hfits : (session s appends file).Meets (Fits appends) (session s appends file).init labels)
    (hrun : (session s appends file).run labels = some t) {i : ι}
    (hreported : t.backend.pc i = .succeeded) (hremoved : itemOf appends i ∉ t.removed) :
    Holds (storedProjects t.backend.shared) (itemOf appends i) := by
  have hsound : Sound appends t := by
    apply runFrom_keeps_of_meets _ _ hfits hrun
    · intro st l t h hfits hstep
      exact h.step hfits hstep
    · refine ⟨?_, ?_, ?_⟩
      · intro i hi
        cases hi
      · intro i plan hplan
        cases hplan
      rintro copy (rfl | htimer | hmem | hmem)
      · exact fun i hi => hi.elim
      · cases htimer
      · cases hmem
      · cases hmem
  exact hsound.file i hreported hremoved

end Run

def oneProject : File :=
  .envelope ⟨currentWorkspaceSchemaVersion, .of [⟨"p1", "shop", .of [], .of []⟩], .nil⟩

def provision (_ : Unit) : Append × World :=
  (.cluster "p1" ⟨"c1", "main", "physical", 30, "container", "", none, .of []⟩, quiet)

/-- The cluster is appended, then the page loads the projects and saves them. -/
def loadAfter : List (Label Unit) :=
  [.append (), .append (), .serveGet quiet, .mounted (some 0), .effect, .timeout,
    .servePut 0 quiet]

theorem appends_kept_loadAfter :
    ∃ t, (session plainStore provision oneProject).run loadAfter = some t ∧
      Holds (storedProjects t.backend.shared) (itemOf provision ()) := by
  have hfits : (session plainStore provision oneProject).Meets (Fits provision)
      (session plainStore provision oneProject).init loadAfter := by
    refine (meets_cons rfl).mpr ⟨?_, ?_⟩
    · rintro ⟨plan, hplan⟩
      cases hplan
    refine (meets_cons rfl).mpr ⟨?_, ?_⟩
    · intro _ _ i hi
      cases hi
    refine (meets_cons rfl).mpr ⟨trivial, ?_⟩
    refine (meets_cons rfl).mpr ⟨trivial, ?_⟩
    refine (meets_cons rfl).mpr ⟨trivial, ?_⟩
    refine (meets_cons rfl).mpr ⟨trivial, ?_⟩
    refine (meets_cons rfl).mpr ⟨?_, trivial⟩
    intro put hput _ i hi
    cases hput
    exact .inl hi
  obtain ⟨t, hrun⟩ : ∃ t,
    (session plainStore provision oneProject).run loadAfter = some t := ⟨_, rfl⟩
  refine ⟨t, hrun, appends_kept hfits hrun ?_ ?_⟩
  · cases hrun
    rfl
  · cases hrun
    exact id

/-- The page loads the projects, the cluster is appended, and the page saves what it
has loaded. -/
theorem autosave_erases :
    ¬ ∀ (ι : Type) (_ : DecidableEq ι) (s : WorkspaceStore) (appends : ι → Append × World)
      (file : File) (labels : List (Label ι)) (t : Session ι) (i : ι),
      (session s appends file).run labels = some t → t.backend.pc i = .succeeded →
      itemOf appends i ∉ t.removed → Holds (storedProjects t.backend.shared) (itemOf appends i) := by
  intro h
  obtain ⟨p, hp, -, c, hc, -⟩ := h Unit inferInstance plainStore provision oneProject
    [.serveGet quiet, .mounted (some 0), .effect, .append (), .append (), .timeout,
      .servePut 0 quiet] _ () rfl rfl id
  cases List.mem_singleton.mp hp
  cases hc

end LearnPg.Frontend
