import Mathlib.Data.List.Induction
import Mathlib.Tactic.ByContra
import LearnPg.Frontend.App

/-! When a project that a template built for a look is saved after all. -/
namespace LearnPg.Frontend.App
open Workspace.Data LearnPg.Basis.Runs

def Undone (edits : List Edit) : Prop :=
  ∀ pre projectId built post, edits = pre ++ .previewTemplate projectId built :: post →
    .removeProject projectId ∈ post

/-- What an edit does to the ids of the previews in the list. -/
def keepLeft (left : List String) : Edit → List String
  | .previewTemplate projectId _ => left ++ [projectId]
  | .removeProject projectId => left.filter (· ≠ projectId)
  | _ => left

def leftPreviews (edits : List Edit) : List String := edits.foldl keepLeft []

theorem leftPreviews_snoc (edits : List Edit) (e : Edit) :
    leftPreviews (edits ++ [e]) = keepLeft (leftPreviews edits) e := by
  rw [leftPreviews, List.foldl_append]
  rfl

theorem mem_leftPreviews {edits : List Edit} {projectId : String} :
    projectId ∈ leftPreviews edits ↔ ∃ pre built post,
      edits = pre ++ .previewTemplate projectId built :: post ∧
        .removeProject projectId ∉ post := by
  induction edits using List.reverseRecOn with
  | nil => simp [leftPreviews]
  | append_singleton edits e ih =>
    rw [leftPreviews_snoc]
    constructor
    · intro h
      have hgrow (hleft : projectId ∈ leftPreviews edits) (he : .removeProject projectId ≠ e) :
          ∃ pre built post, edits ++ [e] = pre ++ .previewTemplate projectId built :: post ∧
            .removeProject projectId ∉ post := by
        obtain ⟨pre, built, post, rfl, hpost⟩ := ih.mp hleft
        refine ⟨pre, built, post ++ [e], by rw [List.append_assoc, List.cons_append], ?_⟩
        simp only [List.mem_append, List.mem_singleton, not_or]
        exact ⟨hpost, he⟩
      cases e with
      | previewTemplate id built =>
        rcases List.mem_append.mp h with h | h
        · exact hgrow h nofun
        · cases List.mem_singleton.mp h
          exact ⟨edits, built, [], rfl, List.not_mem_nil⟩
      | removeProject id =>
        obtain ⟨hleft, hne⟩ := List.mem_filter.mp h
        refine hgrow hleft fun heq => ?_
        cases heq
        exact of_decide_eq_true hne rfl
      | createProject id => exact hgrow h nofun
      | createTemplate id name => exact hgrow h nofun
      | project id edit => exact hgrow h nofun
    · rintro ⟨pre, built, post, heq, hpost⟩
      obtain ⟨rfl, rfl, rfl⟩ | ⟨init, rfl, rfl⟩ := snoc_split heq
      · exact List.mem_append_right _ (List.mem_singleton_self _)
      · rw [List.mem_append, List.mem_singleton, not_or] at hpost
        have hleft := ih.mpr ⟨pre, built, init, rfl, hpost.1⟩
        cases e with
        | previewTemplate id built => exact List.mem_append_left _ hleft
        | removeProject id =>
          refine List.mem_filter.mpr ⟨hleft, decide_eq_true fun heq => hpost.2 ?_⟩
          rw [heq]
        | createProject id => exact hleft
        | createTemplate id name => exact hleft
        | project id edit => exact hleft

theorem leftPreviews_eq_nil {edits : List Edit} : leftPreviews edits = [] ↔ Undone edits := by
  rw [List.eq_nil_iff_forall_not_mem]
  constructor
  · intro h pre projectId built post heq
    by_contra hpost
    exact h projectId (mem_leftPreviews.mpr ⟨pre, built, post, heq, hpost⟩)
  · intro h projectId hmem
    obtain ⟨pre, built, post, heq, hpost⟩ := mem_leftPreviews.mp hmem
    exact hpost (h pre projectId built post heq)

def previews (projects : List Listed) : List String :=
  (projects.filter Listed.preview).map fun p => p.project.id

theorem previews_eq_nil {projects : List Listed} :
    previews projects = [] ↔ ∀ p ∈ projects, p.preview = false := by
  simp [previews]

theorem projectEdit_id (p : Project) (e : ProjectEdit) : (e.apply p).id = p.id := by
  cases e <;> rfl

theorem previews_apply (projects : List Listed) (e : Edit) :
    previews (e.apply projects) = keepLeft (previews projects) e := by
  cases e with
  | createProject projectId => simp [previews, Edit.apply, keepLeft]
  | createTemplate projectId name => simp [previews, Edit.apply, keepLeft]
  | previewTemplate projectId built => simp [previews, Edit.apply, keepLeft]
  | removeProject projectId =>
    simp only [previews, Edit.apply, keepLeft, List.filter_map, List.filter_filter]
    congr 1
    apply List.filter_congr
    intro p _
    exact Bool.and_comm _ _
  | project projectId edit =>
    simp only [previews, Edit.apply, onProject, keepLeft, List.filter_map, List.map_map]
    have hpreview (p : Listed) : (if p.project.id = projectId then
        { p with project := edit.apply p.project } else p).preview = p.preview := by
      split <;> rfl
    have hid (p : Listed) : (if p.project.id = projectId then
        { p with project := edit.apply p.project } else p).project.id = p.project.id := by
      split
      · exact projectEdit_id p.project edit
      · rfl
    simp only [Function.comp_def, hpreview, hid]

def NoPreviewPut (traffic : List Traffic) : Prop :=
  ∀ body, Traffic.put body ∈ traffic → ∀ p ∈ body.projects, p.preview = false

/-- Whenever a list is put, the user has by then taken every preview out again that was
confirmed since the list was loaded: before the effect took the list that the timer saves, or
before the creation that saves it at once. -/
def PreviewsUndone (st : State) : Label → Prop
  | .timeout => ∀ c, st.timer = some c → Undone c.edits
  | .createTemplate _ _ => Undone st.projects.edits
  | _ => True

theorem previewsUndone_quiet {a : Label} (h : a.Quiet) (st : State) : PreviewsUndone st a := by
  cases a <;> trivial

def Copy.Tracked (c : Copy) : Prop := previews c.projects = leftPreviews c.edits

theorem Copy.Tracked.edit {c : Copy} (h : c.Tracked) (e : Edit) : (c.edit e).Tracked := by
  rw [Copy.Tracked, Copy.edit]
  rw [previews_apply, leftPreviews_snoc, h]

theorem tracked_loaded (remote : List Project) : (Copy.loaded remote).Tracked := by
  simp [Copy.Tracked, Copy.loaded, previews, fresh, leftPreviews]

theorem Copy.Tracked.undone_iff {c : Copy} (h : c.Tracked) :
    Undone c.edits ↔ ∀ p ∈ c.projects, p.preview = false := by
  rw [← previews_eq_nil, h, leftPreviews_eq_nil]

def ListsTracked (st : State) : Prop :=
  st.projects.Tracked ∧ ∀ c, st.timer = some c → c.Tracked

theorem listsTracked_step (st : State) (a : Label) (t : State) (h : ListsTracked st)
    (ht : machine.step st a = some t) : ListsTracked t := by
  obtain ⟨hlist, htimer⟩ := h
  cases step_cases ht with
  | idle quiet projects timer => exact ⟨projects ▸ hlist, timer ▸ htimer⟩
  | load quiet remote projects timer => exact ⟨projects ▸ tracked_loaded remote, timer ▸ htimer⟩
  | edit quiet e projects timer => exact ⟨projects ▸ hlist.edit e, timer ▸ htimer⟩
  | create projectId name projects timer => exact ⟨projects ▸ hlist.edit _, timer ▸ htimer⟩
  | effect projects timer =>
    refine ⟨projects ▸ hlist, fun c hc => ?_⟩
    rw [timer] at hc
    split at hc
    · cases hc
      exact hlist
    · cases hc
  | timeout c was projects timer =>
    refine ⟨projects ▸ hlist, ?_⟩
    rw [timer]
    nofun

theorem noPreviewPut_snoc {traffic : List Traffic} {c : Copy} :
    NoPreviewPut (traffic ++ [.put c]) ↔
      NoPreviewPut traffic ∧ ∀ p ∈ c.projects, p.preview = false := by
  simp only [NoPreviewPut, List.mem_append, List.mem_singleton]
  constructor
  · exact fun h => ⟨fun body hbody => h body (.inl hbody), h c (.inr rfl)⟩
  · rintro ⟨hall, hlast⟩ body (hbody | hbody)
    · exact hall body hbody
    · cases hbody
      exact hlast

theorem noPreviewPut_step (st : State) (a : Label) (t : State) (h : ListsTracked st)
    (ht : machine.step st a = some t) :
    NoPreviewPut t.traffic ↔ NoPreviewPut st.traffic ∧ PreviewsUndone st a := by
  obtain ⟨hlist, htimer⟩ := h
  cases step_cases ht with
  | idle quiet projects timer traffic =>
    rw [traffic]
    exact (and_iff_left (previewsUndone_quiet quiet st)).symm
  | load quiet remote projects timer traffic =>
    rw [traffic, and_iff_left (previewsUndone_quiet quiet st)]
    simp [NoPreviewPut]
  | edit quiet e projects timer traffic =>
    rw [traffic]
    exact (and_iff_left (previewsUndone_quiet quiet st)).symm
  | create projectId name projects timer traffic =>
    rw [traffic, noPreviewPut_snoc]
    apply and_congr_right
    intro _
    rw [PreviewsUndone, hlist.undone_iff, ← previews_eq_nil, ← previews_eq_nil, projects,
      Copy.edit, previews_apply]
    rfl
  | effect projects timer traffic =>
    rw [traffic]
    exact (and_iff_left trivial).symm
  | timeout c was projects timer traffic =>
    rw [traffic, noPreviewPut_snoc]
    apply and_congr_right
    intro _
    rw [PreviewsUndone, was]
    simp only [Option.some.injEq, forall_eq']
    exact (htimer c was).undone_iff.symm

/-- Previews stay out of what is put in exactly the runs in which the user removes each
before the list is put. -/
theorem noPreviewPut_iff {labels : List Label} {st : State}
    (hrun : machine.run labels = some st) :
    NoPreviewPut st.traffic ↔ machine.Meets PreviewsUndone machine.init labels :=
  run_monitored listsTracked_step noPreviewPut_step ⟨rfl, nofun⟩ nofun hrun

/-- An empty workspace is loaded, a template is looked at, and a quarter of a second passes. -/
def lookRun : List Label :=
  [.bootstrap (.body (some true) (some [])), .edit (.previewTemplate "p1" (emptyProject "" "demo")),
    .effect, .timeout]

def lookedAt : Copy :=
  ⟨[⟨emptyProject "p1" "demo", true⟩], some [], [.previewTemplate "p1" (emptyProject "" "demo")]⟩

def afterLook : State := ⟨lookedAt, true, false, none, [], [.loaded [], .put lookedAt]⟩

theorem noPreviewPut_iff_look :
    NoPreviewPut afterLook.traffic ↔ machine.Meets PreviewsUndone machine.init lookRun :=
  noPreviewPut_iff rfl

theorem preview_put : machine.run lookRun = some afterLook ∧ ¬ NoPreviewPut afterLook.traffic := by
  refine ⟨rfl, fun h => ?_⟩
  have hpreview := h lookedAt (List.mem_cons_of_mem _ (List.mem_singleton_self _)) _
    (List.mem_singleton_self _)
  cases hpreview

end LearnPg.Frontend.App
