import LearnPg.Provision.Providers

/-! What the providers leave behind. A provider that fails leaves nothing exactly
when no call of its run leaks: the failures that it does not clean up after, and the
removals that themselves fail. -/
namespace LearnPg.Provision

open Basis.Calls Workspace.Store

/-- A command with error `err` after which something of the run is there that the
code does not remove any more. -/
def commandLeaks (err : Option String) (made : List Resource) : Command → Prop
  | .dockerRun .. | .pgCtlStart .. => err ≠ none ∧ made ≠ []
  | .composeUp project => err ≠ none ∧ .composeProject project ∈ made
  | .pgCtlStop dataDir => err ≠ none ∧ .dataDir dataDir ∈ made
  | .dockerRm container => .container container ∈ made
  | .dockerVolumeRm volume => .volume volume ∈ made
  | .composeDown project => .composeProject project ∈ made
  | _ => False

def Leaks (s : WorkspaceStore) (f : Fate) (e : Env) : Call → Prop
  | .command c =>
    commandLeaks (handle s f e (.command c)).1 (handle s f e (.command c)).2.made c
  | .findFreePort port => (handle s f e (.findFreePort port)).1 = 0 ∧ e.made ≠ []
  | .statVersion dir =>
    (∃ err, (handle s f e (.statVersion dir)).1 = .failed err) ∧ e.made ≠ []
  | .removeAll dir => .dataDir dir ∈ (handle s f e (.removeAll dir)).2.made
  | _ => False

/-- `Q` of a run's result, the environment after it and of whether no call leaks. -/
def Runs {α : Type} (s : WorkspaceStore) (f : Fate) (p : Prog α) (e : Env)
    (Q : α → Env → Prop → Prop) : Prop :=
  p.Does (handle s f) (fun e c => ¬ Leaks s f e c) e Q

/-- Nothing has changed but the resources of the run. -/
structure Frame (e t : Env) : Prop where
  file : t.file = e.file
  tasks : t.tasks = e.tasks
  saved : t.saved = e.saved

def Idle (e t : Env) : Prop := Frame e t ∧ t.made = e.made

/-- The resources `rs` are removed, as far as the run is clean, and no others. -/
structure Removes (rs : List Resource) (e t : Env) (m : Prop) : Prop where
  frame : Frame e t
  subset : ∀ x ∈ t.made, x ∈ e.made
  others : ∀ x ∈ e.made, x ∉ rs → x ∈ t.made
  clean : m ↔ ∀ x ∈ rs, x ∉ t.made

section Steps

variable {s : WorkspaceStore} {f : Fate} {e t u : Env} {c : Call} {rs rs' : List Resource}
  {m m' : Prop}

theorem Frame.trans (h : Frame e t) (h' : Frame t u) : Frame e u :=
  ⟨h'.file.trans h.file, h'.tasks.trans h.tasks, h'.saved.trans h.saved⟩

theorem Idle.trans (h : Idle e t) (h' : Idle t u) : Idle e u :=
  ⟨h.1.trans h'.1, h'.2.trans h.2⟩

theorem idle_refl (e : Env) : Idle e e := ⟨⟨rfl, rfl, rfl⟩, rfl⟩

theorem Idle.removes (h : Idle e t) (h' : Removes rs t u m) : Removes rs e u m where
  frame := h.1.trans h'.frame
  subset := fun x hx => h.2 ▸ h'.subset x hx
  others := fun x hx => h'.others x (h.2.symm ▸ hx)
  clean := h'.clean

theorem Removes.trans (h : Removes rs e t m) (h' : Removes rs' t u m')
    (hdisjoint : ∀ x ∈ rs, x ∉ rs') : Removes (rs ++ rs') e u (m ∧ m') where
  frame := h.frame.trans h'.frame
  subset := fun x hx => h.subset x (h'.subset x hx)
  others := by
    intro x hx hnot
    rw [List.mem_append, not_or] at hnot
    exact h'.others x (h.others x hx hnot.1) hnot.2
  clean := by
    rw [List.forall_mem_append, h.clean, h'.clean]
    refine and_congr_left fun _ => forall₂_congr fun x hx => not_congr ?_
    exact ⟨fun hxt => h'.others x hxt (hdisjoint x hx), h'.subset x⟩

theorem runs_invoke {Q : Reply c → Env → Prop → Prop}
    (h : Q (handle s f e c).1 (handle s f e c).2 (¬ Leaks s f e c)) :
    Runs s f (invoke c) e Q := does_ask h

def Quiet (c : Call) : Prop :=
  ∀ s f e, Idle e (handle s f e c).2 ∧ ¬ Leaks s f e c

/-- Calls of which the environment only keeps that they were made. -/
def Inert : Call → Prop
  | .command _ | .mkdirAll _ | .removeAll _ | .findFreePort _ | .statVersion _ => False
  | .setProvisionTask _ | .appendCluster .. | .deleteClusterLocked .. => False
  | _ => True

theorem quiet_of_inert (h : Inert c) : Quiet c := by
  intro s f e
  cases c with
  | command | mkdirAll | removeAll | findFreePort | statVersion => exact h.elim
  | setProvisionTask | appendCluster | deleteClusterLocked => exact h.elim
  | _ => exact ⟨⟨⟨rfl, rfl, rfl⟩, rfl⟩, not_false⟩

theorem handle_idle {c : Command} (heffect : c.effect = id) :
    Idle e (handle s f e (.command c)).2 := by
  unfold handle
  dsimp only
  rw [heffect]
  split
  · exact ⟨⟨rfl, rfl, rfl⟩, rfl⟩
  · split <;> exact ⟨⟨rfl, rfl, rfl⟩, rfl⟩

theorem quiet_command {c : Command} (heffect : c.effect = id)
    (hleaks : ∀ err made, ¬ commandLeaks err made c) : Quiet (.command c) :=
  fun _ _ _ => ⟨handle_idle heffect, hleaks _ _⟩

theorem runs_quiet (h : Quiet c) :
    Runs s f (invoke c) e fun r t m => m ∧ Idle e t ∧ r = (handle s f e c).1 :=
  runs_invoke ⟨(h s f e).2, (h s f e).1, rfl⟩

theorem runs_inert (h : Inert c) :
    Runs s f (invoke c) e fun r t m => m ∧ Idle e t ∧ r = (handle s f e c).1 :=
  runs_quiet (quiet_of_inert h)

theorem waitReady_runs {probe : Command} (hprobe : Quiet (.command probe)) (timeout : String)
    (attempts : Nat) : Runs s f (waitReady probe timeout attempts) e fun _ t m => m ∧ Idle e t := by
  induction attempts generalizing e with
  | zero => exact does_pure ⟨trivial, idle_refl e⟩
  | succ attempts ih =>
    refine does_bind_clean (runs_inert trivial) fun err t ht => ?_
    cases err with
    | some err => exact does_pure ⟨trivial, ht.1⟩
    | none =>
      refine does_bind_clean (runs_quiet hprobe) fun err u hu => ?_
      cases err with
      | none => exact does_pure ⟨trivial, ht.1.trans hu.1⟩
      | some err => exact ih.imp fun r v m hv => ⟨hv.1, (ht.1.trans hu.1).trans hv.2⟩

theorem waitForPort_runs (host : String) (port : Int) (attempts : Nat) :
    Runs s f (waitForPort host port attempts) e fun _ t m => m ∧ Idle e t := by
  induction attempts generalizing e with
  | zero => exact does_pure ⟨trivial, idle_refl e⟩
  | succ attempts ih =>
    refine does_bind_clean (runs_inert trivial) fun err t ht => ?_
    cases err with
    | some err => exact does_pure ⟨trivial, ht.1⟩
    | none =>
      refine does_bind_clean (runs_inert trivial) fun reached u hu => ?_
      split
      · exact does_pure ⟨trivial, ht.1.trans hu.1⟩
      · exact ih.imp fun r v m hv => ⟨hv.1, (ht.1.trans hu.1).trans hv.2⟩

end Steps

section Stop

variable {s : WorkspaceStore} {f : Fate} {e t : Env} {m : Prop}

theorem removes_of_filter {x : Resource} (hframe : Frame e t)
    (hmade : t.made = e.made ∨ t.made = e.made.filter (· ≠ x)) (hclean : m ↔ x ∉ t.made) :
    Removes [x] e t m where
  frame := hframe
  subset := by
    intro y hy
    obtain hmade | hmade := hmade
    · exact hmade ▸ hy
    · rw [hmade] at hy
      exact List.mem_of_mem_filter hy
  others := by
    intro y hy hne
    rw [List.mem_singleton] at hne
    obtain hmade | hmade := hmade
    · exact hmade ▸ hy
    · rw [hmade, List.mem_filter]
      exact ⟨hy, decide_eq_true hne⟩
  clean := by
    rw [hclean]
    simp

theorem command_removes {c : Command} {x : Resource} (heffect : c.effect = List.filter (· ≠ x))
    (hleaks : ∀ err made, commandLeaks err made c ↔ x ∈ made) :
    Runs s f (command c) e fun _ t m => Removes [x] e t m := by
  refine runs_invoke (removes_of_filter ?_ ?_ (not_congr (hleaks _ _)))
  · unfold handle
    dsimp only
    split
    · exact ⟨rfl, rfl, rfl⟩
    · split <;> exact ⟨rfl, rfl, rfl⟩
  · unfold handle
    dsimp only
    rw [heffect]
    split
    · exact .inl rfl
    · split
      · exact .inr rfl
      · exact .inl rfl

theorem removeAll_removes (dir : String) :
    Runs s f (invoke (.removeAll dir)) e fun _ t m => Removes [.dataDir dir] e t m := by
  refine runs_invoke (removes_of_filter ?_ ?_ Iff.rfl)
  · unfold handle
    dsimp only
    split <;> exact ⟨rfl, rfl, rfl⟩
  · unfold handle
    dsimp only
    split
    · exact .inr rfl
    · exact .inl rfl

theorem dockerStop_removes (info : InstanceInfo) :
    Runs s f (Docker.stop info) e fun _ t m =>
      Removes [.container info.containerID, .volume info.dataDir] e t m := by
  have hstop : Quiet (.command (.dockerStop info.containerID)) :=
    quiet_command rfl fun _ _ => not_false
  refine does_bind_clean (runs_quiet hstop) fun _ t ht => ?_
  refine does_bind (command_removes rfl fun _ _ => Iff.rfl) fun _ u m hu => ?_
  refine does_bind (command_removes rfl fun _ _ => Iff.rfl) fun _ v m' hv => ?_
  have hboth := ht.1.removes (hu.trans hv (by simp))
  refine does_pure ?_
  rw [and_true]
  exact hboth

theorem command_idle {c : Command} (heffect : c.effect = id) :
    Runs s f (command c) e fun err t m => Idle e t ∧ (m ↔ ¬ commandLeaks err t.made c) :=
  runs_invoke ⟨handle_idle heffect, Iff.rfl⟩

theorem localStop_removes (info : InstanceInfo) :
    Runs s f (Local.stop info) e fun _ t m => Removes [.dataDir info.dataDir] e t m := by
  refine does_bind (command_idle rfl) fun err t m ht => ?_
  cases err with
  | some err =>
    -- the data directory stays
    have hclean : m ↔ .dataDir info.dataDir ∉ t.made := by
      rw [ht.2]
      exact not_congr (and_iff_right (Option.some_ne_none err))
    refine does_pure ?_
    rw [and_true]
    exact removes_of_filter ht.1.1 (.inl ht.1.2) hclean
  | none =>
    have hm : m := ht.2.mpr fun hleak => hleak.1 rfl
    refine does_bind (removeAll_removes info.dataDir) fun _ u m' hu => ?_
    refine does_pure ?_
    rw [and_true, and_iff_right hm]
    exact ht.1.removes hu

theorem composeDown_removes (projectName : String) :
    Runs s f (DockerReplication.down projectName) e fun _ t m =>
      Removes [.composeProject projectName] e t m := by
  refine does_bind_silent (command_removes rfl fun _ _ => Iff.rfl) fun err => ?_
  cases err with
  | none => exact ⟨none, rfl⟩
  | some err => exact ⟨_, rfl⟩

theorem Removes.empty_iff {rs : List Resource} (h : Removes rs e t m)
    (hmade : ∀ x ∈ e.made, x ∈ rs) : m ↔ t.made = [] := by
  rw [h.clean, List.eq_nil_iff_forall_not_mem]
  exact ⟨fun hall x hx => hall x (hmade x (h.subset x hx)) hx, fun hall x _ => hall x⟩

end Stop

section Start

variable {s : WorkspaceStore} {f : Fate} {e t : Env} {m : Prop}

structure DockerInstance (info : InstanceInfo) (made : List Resource) : Prop where
  provider : info.providerID = "docker"
  named : info.containerID ≠ ""
  volume : info.dataDir = info.containerID ++ "-data"
  container : .container info.containerID ∈ made
  only : ∀ x ∈ made, x ∈ [.container info.containerID, .volume info.dataDir]

structure LocalInstance (info : InstanceInfo) (made : List Resource) : Prop where
  provider : info.providerID = "local"
  only : made = [.dataDir info.dataDir]

/-- The outcome of a start with nothing made before it. -/
def Starts (e : Env) (Made : InstanceInfo → List Resource → Prop)
    (r : Except String InstanceInfo) (t : Env) (m : Prop) : Prop :=
  Frame e t ∧ match r with
    | .ok info => m ∧ info.host = "127.0.0.1" ∧ Made info t.made
    | .error _ => m ↔ t.made = []

/-- The resources `xs` may be there after the call, and are when the call succeeds. -/
structure Makes (xs : List Resource) (e t : Env) (err : Option String) : Prop where
  frame : Frame e t
  subset : ∀ y ∈ t.made, y ∈ xs ∨ y ∈ e.made
  made : err = none → ∀ x ∈ xs, x ∈ t.made

theorem Makes.only {xs rs : List Resource} {err : Option String} (h : Makes xs e t err)
    (hxs : ∀ x ∈ xs, x ∈ rs) (hmade : ∀ y ∈ e.made, y ∈ rs) : ∀ y ∈ t.made, y ∈ rs :=
  fun y hy => (h.subset y hy).elim (hxs y) (hmade y)

theorem handle_makes {c : Command} {xs : List Resource}
    (heffect : ∀ made y, y ∈ c.effect made ↔ y ∈ xs ∨ y ∈ made) :
    Makes xs e (handle s f e (.command c)).2 (handle s f e (.command c)).1 := by
  unfold handle
  dsimp only
  split
  · exact ⟨⟨rfl, rfl, rfl⟩, fun y hy => .inr hy, nofun⟩
  · split
    · exact ⟨⟨rfl, rfl, rfl⟩, fun y hy => (heffect e.made y).mp hy,
        fun _ x hx => (heffect e.made x).mpr (.inl hx)⟩
    next hnone =>
      exact ⟨⟨rfl, rfl, rfl⟩, fun y hy => .inr hy, fun herr => (hnone (.inl herr)).elim⟩

theorem command_makes {c : Command} {xs : List Resource}
    (heffect : ∀ made y, y ∈ c.effect made ↔ y ∈ xs ∨ y ∈ made) :
    Runs s f (command c) e fun err t m => Makes xs e t err ∧ (m ↔ ¬ commandLeaks err t.made c) :=
  runs_invoke ⟨handle_makes heffect, Iff.rfl⟩

theorem volumeCreate_effect (volume : String) (made : List Resource) (y : Resource) :
    y ∈ (Command.dockerVolumeCreate volume).effect made ↔ y ∈ [.volume volume] ∨ y ∈ made := by
  rw [List.mem_singleton]
  exact List.mem_insert_iff

theorem dockerRun_effect (container volume : String) (port : Int) (image : String)
    (made : List Resource) (y : Resource) :
    y ∈ (Command.dockerRun container volume port image).effect made ↔
      y ∈ [.container container, .volume volume] ∨ y ∈ made := by
  simp [Command.effect, or_assoc]

theorem composeUp_effect (project : String) (made : List Resource) (y : Resource) :
    y ∈ (Command.composeUp project).effect made ↔ y ∈ [.composeProject project] ∨ y ∈ made := by
  rw [List.mem_singleton]
  exact List.mem_insert_iff

theorem ensureImage_runs (image : String) :
    Runs s f (Docker.ensureImage image) e fun _ t m => m ∧ Idle e t := by
  have hpull : Quiet (.command (.dockerPull image)) := quiet_command rfl fun _ _ => not_false
  refine does_bind_clean (runs_inert trivial) fun found t ht => ?_
  split
  · exact does_pure ⟨trivial, ht.1⟩
  · exact (runs_quiet hpull).imp fun _ u m hu => ⟨hu.1, ht.1.trans hu.2.1⟩

theorem choosePort_runs (specPort : Int) : Runs s f (Docker.choosePort specPort) e fun port t m =>
    Idle e t ∧ (m ↔ ¬ (port = 0 ∧ t.made ≠ [])) := by
  have hport : (if specPort = 0 then 5432 else specPort) ≠ 0 := by
    split
    · decide
    · assumption
  refine does_bind_clean (runs_inert trivial) fun used t ht => ?_
  split
  · exact runs_invoke ⟨ht.1.trans ⟨⟨rfl, rfl, rfl⟩, rfl⟩, Iff.rfl⟩
  · exact does_pure ⟨ht.1, iff_of_true trivial fun hzero => hport hzero.1⟩

theorem dockerStart_runs (spec : InstanceSpec) (hmade : e.made = []) :
    Runs s f (Docker.start spec) e (Starts e DockerInstance) := by
  refine does_bind_clean (runs_inert trivial) fun now e1 h1 => ?_
  let containerName := "pgv-" ++ sanitizeContainerName spec.name ++ "-" ++ toString now
  have hnamed : containerName ≠ "" := by
    simp [containerName]
  refine does_bind_clean (ensureImage_runs _) fun err e2 h2 => ?_
  have hidle := h1.1.trans h2
  cases err with
  | some err =>
    exact does_pure ⟨hidle.1, iff_of_true trivial (hidle.2.trans hmade)⟩
  | none =>
    refine does_bind (command_makes (volumeCreate_effect _)) fun _ e3 m h3 => ?_
    refine does_of_true (h3.2.mpr not_false) ?_
    refine does_bind (choosePort_runs _) fun port e4 m' h4 => ?_
    have hframe := hidle.1.trans (h3.1.frame.trans h4.1.1)
    have hmade4 : ∀ y ∈ e4.made,
        y ∈ [.container containerName, .volume (containerName ++ "-data")] := by
      rw [h4.1.2]
      refine h3.1.only (fun x hx => List.mem_cons_of_mem _ hx) ?_
      rw [hidle.2, hmade]
      exact List.forall_mem_nil _
    split
    next hport =>
      refine does_pure ⟨hframe, ?_⟩
      rw [and_true, h4.2, not_and_not_right, forall_prop_of_true hport]
    next hport =>
      refine does_of_true (h4.2.mpr fun hleak => hport hleak.1) ?_
      refine does_bind (command_makes (dockerRun_effect _ _ _ _)) fun err e5 m h5 => ?_
      have hframe5 := hframe.trans h5.1.frame
      have hmade5 := h5.1.only (fun x hx => hx) hmade4
      cases err with
      | some err =>
        refine does_pure ⟨hframe5, ?_⟩
        rw [and_true, h5.2]
        exact not_and_not_right.trans (forall_prop_of_true (Option.some_ne_none err))
      | none =>
        refine does_of_true (h5.2.mpr fun hleak => hleak.1 rfl) ?_
        have hready : Quiet (.command (.dockerPgIsReady containerName)) :=
          quiet_command rfl fun _ _ => not_false
        refine does_bind_clean (waitReady_runs hready _ _) fun err e6 h6 => ?_
        have hframe6 := hframe5.trans h6.1
        rw [← h6.2] at hmade5
        cases err with
        | some err =>
          refine does_bind (dockerStop_removes _) fun _ e7 m h7 => ?_
          refine does_pure ⟨hframe6.trans h7.frame, ?_⟩
          rw [and_true]
          exact h7.empty_iff hmade5
        | none =>
          have hcontainer : .container containerName ∈ e6.made :=
            h6.2 ▸ h5.1.made rfl _ List.mem_cons_self
          exact does_pure ⟨hframe6, trivial, rfl, rfl, hnamed, rfl, hcontainer, hmade5⟩

theorem chooseDataDir_runs (spec : InstanceSpec) :
    Runs s f (Local.chooseDataDir spec) e fun _ t m => m ∧ Idle e t := by
  unfold Local.chooseDataDir
  split
  · exact does_bind_clean (runs_inert trivial) fun now t ht => does_pure ⟨trivial, ht.1⟩
  · exact does_pure ⟨trivial, idle_refl e⟩

theorem mkdirAll_runs (dir : String) : Runs s f (invoke (.mkdirAll dir)) e fun err t m =>
    m ∧ Frame e t ∧ t.made = if err = none then e.made.insert (.dataDir dir) else e.made := by
  refine runs_invoke ⟨not_false, ?_⟩
  unfold handle
  dsimp only
  split
  · exact ⟨⟨rfl, rfl, rfl⟩, rfl⟩
  · exact ⟨⟨rfl, rfl, rfl⟩, rfl⟩

theorem statVersion_runs (dir : String) : Runs s f (invoke (.statVersion dir)) e fun stat t m =>
    Idle e t ∧ (m ↔ ¬ ((∃ err, stat = Stat.failed err) ∧ t.made ≠ [])) :=
  runs_invoke ⟨⟨⟨rfl, rfl, rfl⟩, rfl⟩, Iff.rfl⟩

/-- The outcome of a step that leaves what is made, or fails and removes it. -/
def Keeps (e : Env) (err : Option String) (t : Env) (m : Prop) : Prop :=
  Frame e t ∧ match err with
    | none => m ∧ t.made = e.made
    | some _ => m ↔ t.made = []

theorem ensureInitialized_runs (dir : String) (hmade : e.made = [.dataDir dir]) :
    Runs s f (Local.ensureInitialized dir) e (Keeps e) := by
  refine does_bind (statVersion_runs dir) fun stat t m ht => ?_
  cases stat with
  | found => exact does_pure ⟨ht.1.1, ⟨ht.2.mpr (by simp), trivial⟩, ht.1.2⟩
  | failed err =>
    refine does_pure ⟨ht.1.1, ?_⟩
    rw [and_true, ht.2]
    exact not_and_not_right.trans (forall_prop_of_true ⟨err, rfl⟩)
  | notExist =>
    refine does_of_true (ht.2.mpr (by simp)) ?_
    have hinitdb : Quiet (.command (.pgCtlInitdb dir)) := quiet_command rfl fun _ _ => not_false
    refine does_bind_clean (runs_quiet hinitdb) fun err u hu => ?_
    have hidle := ht.1.trans hu.1
    cases err with
    | none => exact does_pure ⟨hidle.1, trivial, hidle.2⟩
    | some err =>
      refine does_bind (removeAll_removes dir) fun _ v m hv => ?_
      refine does_pure ⟨hidle.1.trans hv.frame, ?_⟩
      rw [and_true]
      exact hv.empty_iff fun x hx => hmade ▸ hidle.2 ▸ hx

theorem localStart_runs (pid : Nat) (spec : InstanceSpec) (hmade : e.made = []) :
    Runs s f (Local.start pid spec) e (Starts e LocalInstance) := by
  refine does_bind_clean (chooseDataDir_runs spec) fun dir e1 h1 => ?_
  refine does_bind_clean (mkdirAll_runs dir) fun err e2 h2 => ?_
  have hframe2 := h1.1.trans h2.1
  have hmade1 := h1.2.trans hmade
  cases err with
  | some err => exact does_pure ⟨hframe2, iff_of_true trivial (h2.2.trans hmade1)⟩
  | none =>
    have hmade2 : e2.made = [.dataDir dir] := by
      rw [h2.2, if_pos rfl, hmade1]
      rfl
    refine does_bind (ensureInitialized_runs dir hmade2) fun err e3 m h3 => ?_
    have hframe3 := hframe2.trans h3.1
    cases err with
    | some err =>
      refine does_pure ⟨hframe3, ?_⟩
      rw [and_true]
      exact h3.2
    | none =>
      refine does_of_true h3.2.1 ?_
      refine does_bind (command_idle rfl) fun err e4 m h4 => ?_
      have hframe4 := hframe3.trans h4.1.1
      have hmade4 := h4.1.2.trans (h3.2.2.trans hmade2)
      cases err with
      | some err =>
        refine does_pure ⟨hframe4, ?_⟩
        rw [and_true, h4.2]
        exact not_and_not_right.trans (forall_prop_of_true (Option.some_ne_none err))
      | none =>
        refine does_of_true (h4.2.mpr fun hleak => hleak.1 rfl) ?_
        have hready : Quiet (.command (.pgIsReady spec.port)) :=
          quiet_command rfl fun _ _ => not_false
        refine does_bind_clean (waitReady_runs hready _ _) fun err e5 h5 => ?_
        have hframe5 := hframe4.trans h5.1
        have hmade5 := h5.2.trans hmade4
        cases err with
        | some err =>
          refine does_bind (localStop_removes _) fun _ e6 m h6 => ?_
          refine does_pure ⟨hframe5.trans h6.frame, ?_⟩
          rw [and_true]
          exact h6.empty_iff fun x hx => hmade5 ▸ hx
        | none => exact does_pure ⟨hframe5, trivial, rfl, rfl, hmade5⟩

end Start

section Services

variable {s : WorkspaceStore} {f : Fate} {service : Service} {e t : Env} {m : Prop}

def Instance (providerID : String) (info : InstanceInfo) (made : List Resource) : Prop :=
  info.providerID = providerID ∧ (DockerInstance info made ∨ LocalInstance info made)

theorem Starts.imp {r : Except String InstanceInfo} {P Q : InstanceInfo → List Resource → Prop}
    (h : Starts e P r t m) (hpq : ∀ info made, P info made → Q info made) : Starts e Q r t m := by
  cases r with
  | error err => exact h
  | ok info => exact ⟨h.1, h.2.1, h.2.2.1, hpq info t.made h.2.2.2⟩

theorem startWith_runs (spec : InstanceSpec) (providerID : String) (hmade : e.made = []) :
    Runs s f (service.startWith spec providerID) e (Starts e (Instance providerID)) := by
  unfold Service.startWith
  split
  next hid =>
    refine (dockerStart_runs spec hmade).imp fun r t m ht => ht.imp fun info made hinfo => ?_
    exact ⟨hinfo.provider.trans hid.symm, .inl hinfo⟩
  next =>
    split
    next hid =>
      refine (localStart_runs service.pid spec hmade).imp fun r t m ht => ht.imp
        fun info made hinfo => ?_
      exact ⟨hinfo.provider.trans hid.symm, .inr hinfo⟩
    next => exact does_pure ⟨⟨rfl, rfl, rfl⟩, iff_of_true trivial hmade⟩

theorem startSingle_runs (spec : InstanceSpec) (providerID : String) (hmade : e.made = []) :
    Runs s f (service.startSingle spec providerID) e (Starts e (Instance providerID)) := by
  unfold Service.startSingle
  split
  · refine does_bind_clean (runs_inert trivial) fun port t ht => ?_
    have hnone := ht.1.2.trans hmade
    cases port with
    | error err => exact does_pure ⟨ht.1.1, iff_of_true trivial hnone⟩
    | ok port =>
      refine (startWith_runs _ providerID hnone).imp fun r u m hu => ?_
      exact ⟨ht.1.1.trans hu.1, hu.2⟩
  · exact startWith_runs spec providerID hmade

def resources (info : InstanceInfo) : List Resource :=
  if info.providerID = "docker" then [.container info.containerID, .volume info.dataDir]
  else if info.providerID = "local" then [.dataDir info.dataDir]
  else []

theorem stopInstance_removes (info : InstanceInfo) :
    Runs s f (Service.stopInstance info) e fun _ t m => Removes (resources info) e t m := by
  unfold Service.stopInstance resources
  by_cases hdocker : info.providerID = "docker"
  · rw [if_pos hdocker, if_pos hdocker]
    exact dockerStop_removes info
  rw [if_neg hdocker, if_neg hdocker]
  by_cases hlocal : info.providerID = "local"
  · rw [if_pos hlocal, if_pos hlocal]
    exact localStop_removes info
  rw [if_neg hlocal, if_neg hlocal]
  exact does_pure ⟨⟨rfl, rfl, rfl⟩, fun x hx => hx, fun x hx _ => hx,
    iff_of_true trivial (List.forall_mem_nil _)⟩

theorem Instance.only {providerID : String} {info : InstanceInfo} {made : List Resource}
    (h : Instance providerID info made) : ∀ x ∈ made, x ∈ resources info := by
  unfold resources
  obtain ⟨-, h | h⟩ := h
  · rw [if_pos h.provider]
    exact h.only
  · have hlocal : ¬ info.providerID = "docker" := by
      rw [h.provider]
      decide
    rw [if_neg hlocal, if_pos h.provider, h.only]
    exact fun x hx => hx

theorem resources_disjoint (info : InstanceInfo) (project : String) :
    ∀ x ∈ [Resource.composeProject project], x ∉ resources info := by
  intro x hx
  rw [List.mem_singleton.mp hx]
  unfold resources
  split
  · simp
  · split <;> simp

theorem Instance.no_project {providerID : String} {info : InstanceInfo} {made : List Resource}
    (h : Instance providerID info made) (project : String) : .composeProject project ∉ made :=
  fun hmem => resources_disjoint info project _ (List.mem_singleton_self _) (h.only _ hmem)

theorem Instance.only_project {providerID project : String} {info : InstanceInfo}
    {made after : List Resource} (h : Instance providerID info made)
    (honly : ∀ x ∈ after, x ∈ .composeProject project :: made) :
    ∀ x ∈ after, x ∈ [.composeProject project] ++ resources info := by
  intro x hx
  obtain rfl | hx := List.mem_cons.mp (honly x hx)
  · exact List.mem_cons_self
  · exact List.mem_cons_of_mem _ (h.only x hx)

structure ReplicaInstance (before : List Resource) (info : ReplicaInfo)
    (made : List Resource) : Prop where
  project : .composeProject info.composeProject ∈ made
  only : ∀ x ∈ made, x ∈ .composeProject info.composeProject :: before
  host : info.secondaryInfo.host = "127.0.0.1"

/-- The outcome of a start of a replica. One that fails may have made its project
and removes it as far as the run is clean. -/
def StartsReplica (e : Env) (r : Except String ReplicaInfo) (t : Env) (m : Prop) : Prop :=
  match r with
  | .ok info => m ∧ Frame e t ∧ ReplicaInstance e.made info t.made
  | .error _ => ∃ project mid, Frame e mid ∧
      (∀ x ∈ mid.made, x ∈ .composeProject project :: e.made) ∧
      Removes [.composeProject project] mid t m

theorem up_runs {projectName : String} (content : String)
    (hnew : .composeProject projectName ∉ e.made) :
    Runs s f (DockerReplication.up projectName content) e fun err t m =>
      Frame e t ∧ (∀ x ∈ t.made, x ∈ .composeProject projectName :: e.made) ∧
      (err = none → .composeProject projectName ∈ t.made) ∧
      (m ↔ (err = none ∨ .composeProject projectName ∉ t.made)) := by
  refine does_bind_clean (runs_inert trivial) fun err e1 h1 => ?_
  cases err with
  | some err =>
    have hnew1 : .composeProject projectName ∉ e1.made := h1.1.2 ▸ hnew
    exact does_pure ⟨h1.1.1, fun x hx => List.mem_cons_of_mem _ (h1.1.2 ▸ hx), nofun,
      iff_of_true trivial (.inr hnew1)⟩
  | none =>
    refine does_bind (command_makes (composeUp_effect _)) fun err e2 m h2 => ?_
    have hframe := h1.1.1.trans h2.1.frame
    have hrest : ∀ x ∈ e1.made, x ∈ .composeProject projectName :: e.made := by
      rw [h1.1.2]
      exact fun x hx => List.mem_cons_of_mem _ hx
    have honly := h2.1.only (fun x hx => List.mem_cons.mpr (.inl (List.mem_singleton.mp hx))) hrest
    cases err with
    | some err =>
      refine does_pure ⟨hframe, honly, nofun, ?_⟩
      rw [and_true, h2.2, or_iff_right (Option.some_ne_none _)]
      exact not_congr (and_iff_right (Option.some_ne_none err))
    | none =>
      refine does_pure ⟨hframe, honly, fun _ => h2.1.made rfl _ List.mem_cons_self, ?_⟩
      exact iff_of_true ⟨h2.2.mpr fun hleak => hleak.1 rfl, trivial⟩ (.inl rfl)

theorem startReplica_runs (compose : String → String) (spec : ReplicationSpec)
    (primaryInfo : InstanceInfo) (hnew : ∀ project, .composeProject project ∉ e.made) :
    Runs s f (DockerReplication.startReplica compose spec primaryInfo) e (StartsReplica e) := by
  refine does_bind_clean (runs_inert trivial) fun now e1 h1 => ?_
  refine does_bind (up_runs _ (h1.1.2.symm ▸ hnew _)) fun err e2 m h2 => ?_
  have hframe2 := h1.1.1.trans h2.1
  have honly2 := h1.1.2 ▸ h2.2.1
  cases err with
  | some err =>
    have hclean := h2.2.2.2.trans (or_iff_right (Option.some_ne_none err))
    refine does_pure ⟨_, e2, hframe2, honly2, ?_⟩
    rw [and_true]
    exact removes_of_filter ⟨rfl, rfl, rfl⟩ (.inl rfl) hclean
  | none =>
    refine does_of_true (h2.2.2.2.mpr (.inl rfl)) ?_
    refine does_bind_clean (waitForPort_runs _ _ _) fun err e3 h3 => ?_
    have hframe3 := hframe2.trans h3.1
    have honly3 := h3.2.symm ▸ honly2
    cases err with
    | some err =>
      refine does_bind (composeDown_removes _) fun _ e4 m h4 => ?_
      refine does_pure ⟨_, e3, hframe3, honly3, ?_⟩
      rw [and_true]
      exact h4
    | none => exact does_pure ⟨trivial, hframe3, h3.2.symm ▸ h2.2.2.1 rfl, honly3, rfl⟩

end Services

end LearnPg.Provision
