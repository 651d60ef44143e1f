import LearnPg.Frontend.App

/-! What the app saves stems from what it loaded, as long as it has loaded before it
first may save. -/
namespace LearnPg.Frontend.App
open Workspace.Data LearnPg.Basis.Runs

/-- The list is one that was loaded, with the edits made since. -/
def Stems (traffic : List Traffic) (c : Copy) : Prop :=
  ∃ loaded, Traffic.loaded loaded ∈ traffic ∧ c.origin = some loaded ∧
    c.projects = c.edits.foldl Edit.apply (fresh loaded)

/-- Every list put stems from a load before it. -/
def PutsStem (traffic : List Traffic) : Prop :=
  ∀ pre body post, traffic = pre ++ .put body :: post → Stems pre body

def HasLoaded (traffic : List Traffic) : Prop := ∃ loaded, Traffic.loaded loaded ∈ traffic

theorem Stems.mono {traffic : List Traffic} {c : Copy} (h : Stems traffic c) (t : Traffic) :
    Stems (traffic ++ [t]) c := by
  obtain ⟨loaded, hmem, hc⟩ := h
  exact ⟨loaded, List.mem_append_left _ hmem, hc⟩

theorem Stems.edit {traffic : List Traffic} {c : Copy} (h : Stems traffic c) (e : Edit) :
    Stems traffic (c.edit e) := by
  obtain ⟨loaded, hmem, horigin, hprojects⟩ := h
  refine ⟨loaded, hmem, horigin, ?_⟩
  show e.apply c.projects = (c.edits ++ [e]).foldl Edit.apply (fresh loaded)
  rw [List.foldl_append, ← hprojects]
  rfl

theorem stems_loaded (traffic : List Traffic) (remote : List Project) :
    Stems (traffic ++ [.loaded remote]) (.loaded remote) :=
  ⟨remote, List.mem_append_right _ (List.mem_singleton_self _), rfl, rfl⟩

theorem putsStem_snoc {traffic : List Traffic} {t : Traffic} (h : PutsStem traffic)
    (ht : ∀ body, t = .put body → Stems traffic body) : PutsStem (traffic ++ [t]) := by
  intro pre body post heq
  obtain ⟨rfl, hbody, -⟩ | ⟨init, -, hpre⟩ := snoc_split heq
  · exact ht body hbody.symm
  · exact h pre body init hpre

structure Sound (st : State) : Prop where
  puts : PutsStem st.traffic
  list : HasLoaded st.traffic → Stems st.traffic st.projects
  ready : st.bootstrapped = true → HasLoaded st.traffic
  timer : ∀ c, st.timer = some c → Stems st.traffic c

/-- The first load does not fail, and no cluster is created, before a load has succeeded. -/
def AfterLoad (st : State) : Label → Prop
  | .bootstrap r => loadProjectsFromBackend r = none → HasLoaded st.traffic
  | .createTemplate _ _ => HasLoaded st.traffic
  | _ => True

theorem sound_init : Sound machine.init where
  puts := by
    intro pre body post heq
    cases pre <;> cases heq
  list := nofun
  ready := nofun
  timer := nofun

theorem sound_step (st : State) (a : Label) (t : State) (h : Sound st) (hcond : AfterLoad st a)
    (ht : machine.step st a = some t) : Sound t := by
  cases step_cases ht with
  | idle quiet projects timer traffic ready =>
    refine ⟨traffic ▸ h.puts, ?_, fun hready => ?_, ?_⟩
    · rw [traffic, projects]
      exact h.list
    · rw [traffic]
      obtain hready | ⟨r, rfl, hnone⟩ := ready hready
      · exact h.ready hready
      · exact hcond hnone
    · rw [traffic, timer]
      exact h.timer
  | load quiet remote projects timer traffic =>
    have hstems : Stems t.traffic t.projects := by
      rw [traffic, projects]
      exact stems_loaded st.traffic remote
    refine ⟨traffic ▸ putsStem_snoc h.puts nofun, fun _ => hstems, fun _ => ?_, ?_⟩
    · obtain ⟨loaded, hmem, -⟩ := hstems
      exact ⟨loaded, hmem⟩
    · rw [traffic, timer]
      exact fun c hc => (h.timer c hc).mono _
  | edit quiet e projects timer traffic ready =>
    refine ⟨traffic ▸ h.puts, ?_, ?_, ?_⟩
    · rw [traffic, projects]
      exact fun hloaded => (h.list hloaded).edit e
    · rw [traffic, ready]
      exact h.ready
    · rw [traffic, timer]
      exact h.timer
  | create projectId name projects timer traffic ready =>
    have hstems : Stems st.traffic t.projects := by
      rw [projects]
      exact (h.list hcond).edit _
    refine ⟨traffic ▸ putsStem_snoc h.puts ?_, fun _ => traffic ▸ hstems.mono _, ?_, ?_⟩
    · rintro body ⟨⟩
      exact hstems
    · intro hready
      obtain ⟨loaded, hmem, -⟩ := hstems
      exact ⟨loaded, traffic ▸ List.mem_append_left _ hmem⟩
    · rw [traffic, timer]
      exact fun c hc => (h.timer c hc).mono _
  | effect projects timer traffic ready =>
    refine ⟨traffic ▸ h.puts, ?_, ?_, fun c hc => ?_⟩
    · rw [traffic, projects]
      exact h.list
    · rw [traffic, ready]
      exact h.ready
    · rw [timer] at hc
      split at hc
      next hready =>
        cases hc
        exact traffic ▸ h.list (h.ready hready)
      · cases hc
  | timeout c was projects timer traffic ready =>
    have hstems := h.timer c was
    refine ⟨traffic ▸ putsStem_snoc h.puts ?_, ?_, ?_, ?_⟩
    · rintro body ⟨⟩
      exact hstems
    · intro _
      obtain ⟨loaded, hmem, -⟩ := hstems
      rw [traffic, projects]
      exact (h.list ⟨loaded, hmem⟩).mono _
    · intro _
      obtain ⟨loaded, hmem, -⟩ := hstems
      exact ⟨loaded, traffic ▸ List.mem_append_left _ hmem⟩
    · rw [timer]
      nofun

/-- In a run whose first load succeeds, and that creates clusters only after a load, a
save never loses what the backend has: what it puts is what was loaded, edited. -/
theorem puts_stem {labels : List Label} {st : State} (hrun : machine.run labels = some st)
    (hmeets : machine.Meets AfterLoad machine.init labels) : PutsStem st.traffic :=
  (runFrom_keeps_of_meets sound_step sound_init hmeets hrun).puts

def idleRun (r : Response) : List Label := [.bootstrap r, .effect, .timeout]

def saved (c : Copy) (traffic : List Traffic) : State :=
  ⟨c, true, false, none, [], traffic ++ [.put c]⟩

theorem puts_stem_idle :
    PutsStem (saved (.loaded [emptyProject "p1" "demo"])
      [.loaded [emptyProject "p1" "demo"]]).traffic := by
  have hrun : machine.run (idleRun (.body (some true) (some [emptyProject "p1" "demo"]))) =
      some (saved (.loaded [emptyProject "p1" "demo"]) [.loaded [emptyProject "p1" "demo"]]) := rfl
  exact puts_stem hrun ⟨nofun, fun _ _ => ⟨trivial, fun _ _ => ⟨trivial, fun _ _ => trivial⟩⟩⟩

/-- After a first load that fails, the empty list is put. -/
theorem empty_put :
    machine.run (idleRun .networkFailure) = some (saved ⟨[], none, []⟩ []) ∧
      ¬ PutsStem (saved ⟨[], none, []⟩ []).traffic := by
  refine ⟨rfl, fun h => ?_⟩
  obtain ⟨loaded, hmem, -⟩ := h [] _ [] rfl
  cases hmem

end LearnPg.Frontend.App
