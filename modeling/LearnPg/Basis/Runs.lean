import Mathlib.Data.List.Induction

/-! A machine whose labels name what happens next: a step is taken or not
enabled, a run is a list of labels. Invariants and run conditions are each
reduced here to one fact about a single step. -/
namespace LearnPg.Basis.Runs

structure Machine (σ α : Type) where
  init : σ
  step : σ → α → Option σ

variable {σ α : Type}

def Machine.runFrom (M : Machine σ α) : σ → List α → Option σ
  | s, [] => some s
  | s, a :: as => (M.step s a).bind fun t => M.runFrom t as

def Machine.run (M : Machine σ α) (as : List α) : Option σ :=
  M.runFrom M.init as

def Machine.Enabled (M : Machine σ α) (s : σ) (a : α) : Prop :=
  (M.step s a).isSome = true

/-- Every step of the run from `s` is taken in a state that meets `cond`. -/
def Machine.Meets (M : Machine σ α) (cond : σ → α → Prop) : σ → List α → Prop
  | _, [] => True
  | s, a :: as => cond s a ∧ ∀ t, M.step s a = some t → M.Meets cond t as

theorem runFrom_cons {M : Machine σ α} {s t : σ} {a : α} {as : List α} :
    M.runFrom s (a :: as) = some t ↔
      ∃ m, M.step s a = some m ∧ M.runFrom m as = some t := by
  simp only [Machine.runFrom, Option.bind_eq_some_iff]

theorem runFrom_append {M : Machine σ α} {s : σ} {as bs : List α} :
    M.runFrom s (as ++ bs) = (M.runFrom s as).bind fun t => M.runFrom t bs := by
  induction as generalizing s with
  | nil => rfl
  | cons a as ih =>
    simp only [List.cons_append, Machine.runFrom, ih, Option.bind_assoc]

theorem run_concat {M : Machine σ α} {t : σ} {as : List α} {a : α} (h : M.run as = some t) :
    M.run (as ++ [a]) = M.step t a := by
  unfold Machine.run at h ⊢
  rw [runFrom_append, h]
  simp [Machine.runFrom]

/-- What the steps of a run record, each of them with the labels before it. -/
def Machine.logFrom {γ : Type} (M : Machine σ α) (record : List α → σ → α → σ → List γ) :
    List α → σ → List α → List γ
  | _, _, [] => []
  | past, s, a :: as =>
    (M.step s a).elim [] fun t => record past s a t ++ M.logFrom record (past ++ [a]) t as

def Machine.log {γ : Type} (M : Machine σ α) (record : List α → σ → α → σ → List γ)
    (as : List α) : List γ :=
  M.logFrom record [] M.init as

theorem meets_cons {M : Machine σ α} {cond : σ → α → Prop} {s m : σ} {a : α} {as : List α}
    (h : M.step s a = some m) :
    M.Meets cond s (a :: as) ↔ cond s a ∧ M.Meets cond m as := by
  simp only [Machine.Meets, h, Option.some.injEq, forall_eq']

instance decidableMeets {M : Machine σ α} {cond : σ → α → Prop} [∀ s a, Decidable (cond s a)] :
    ∀ s as, Decidable (M.Meets cond s as)
  | _, [] => .isTrue trivial
  | s, a :: as =>
    match h : M.step s a with
    | none => decidable_of_iff (cond s a) (by simp [Machine.Meets, h])
    | some m =>
      have : Decidable (M.Meets cond m as) := decidableMeets m as
      decidable_of_iff (cond s a ∧ M.Meets cond m as) (meets_cons h).symm

/-- What every step that meets `cond` keeps holds after every run of such steps. -/
theorem runFrom_keeps_of_meets {M : Machine σ α} {Inv : σ → Prop} {cond : σ → α → Prop}
    (hstep : ∀ s a t, Inv s → cond s a → M.step s a = some t → Inv t) {s t : σ} {as : List α}
    (h : Inv s) (hmeets : M.Meets cond s as) (hrun : M.runFrom s as = some t) : Inv t := by
  induction as generalizing s with
  | nil =>
    cases hrun
    exact h
  | cons a as ih =>
    obtain ⟨m, hm, hrest⟩ := runFrom_cons.mp hrun
    obtain ⟨hcond, hmeets⟩ := (meets_cons hm).mp hmeets
    exact ih (hstep s a m h hcond hm) hmeets hrest

/-- A condition that follows from another one and from what the run keeps. -/
theorem meets_of_keeps {M : Machine σ α} {Inv : σ → Prop} {cond cond' : σ → α → Prop}
    (hstep : ∀ s a t, Inv s → cond s a → M.step s a = some t → Inv t)
    (hcond : ∀ s a, Inv s → cond s a → cond' s a) {s : σ} {as : List α} (h : Inv s)
    (hmeets : M.Meets cond s as) : M.Meets cond' s as := by
  induction as generalizing s with
  | nil => trivial
  | cons a as ih =>
    exact ⟨hcond s a h hmeets.1, fun t ht => ih (hstep s a t h hmeets.1 ht) (hmeets.2 t ht)⟩

theorem meets_append {M : Machine σ α} {cond : σ → α → Prop} {s : σ} {as bs : List α} :
    M.Meets cond s (as ++ bs) ↔
      M.Meets cond s as ∧ ∀ t, M.runFrom s as = some t → M.Meets cond t bs := by
  induction as generalizing s with
  | nil => simp [Machine.Meets, Machine.runFrom]
  | cons a as ih =>
    cases hm : M.step s a with
    | none => simp [Machine.Meets, Machine.runFrom, hm]
    | some m => simp [meets_cons hm, Machine.runFrom, hm, ih, and_assoc]

/-- A statement about a state and the run that led there. -/
theorem run_history_of_meets {M : Machine σ α} {Inv : List α → σ → Prop} {cond : σ → α → Prop}
    (hinit : Inv [] M.init)
    (hstep : ∀ as s a t, M.run as = some s → Inv as s → cond s a → M.step s a = some t →
      Inv (as ++ [a]) t) {as : List α} {t : σ}
    (hmeets : M.Meets cond M.init as) (hrun : M.run as = some t) : Inv as t := by
  induction as using List.reverseRecOn generalizing t with
  | nil =>
    cases hrun
    exact hinit
  | append_singleton as a ih =>
    obtain ⟨hmeets, hlast⟩ := meets_append.mp hmeets
    unfold Machine.run at hrun
    rw [runFrom_append] at hrun
    obtain ⟨s, hs, hrun⟩ := Option.bind_eq_some_iff.mp hrun
    obtain ⟨m, hm, hrun⟩ := runFrom_cons.mp hrun
    cases hrun
    exact hstep as s a _ hs (ih hmeets hs) (hlast s hs).1 hm

theorem logFrom_append {γ : Type} {M : Machine σ α} {record : List α → σ → α → σ → List γ}
    {past as bs : List α} {s t : σ} (hrun : M.runFrom s as = some t) :
    M.logFrom record past s (as ++ bs) =
      M.logFrom record past s as ++ M.logFrom record (past ++ as) t bs := by
  induction as generalizing past s with
  | nil =>
    cases hrun
    simp [Machine.logFrom]
  | cons a as ih =>
    obtain ⟨m, hm, hrest⟩ := runFrom_cons.mp hrun
    simp [Machine.logFrom, hm, ih hrest]

theorem log_concat {γ : Type} {M : Machine σ α} {record : List α → σ → α → σ → List γ}
    {as : List α} {a : α} {s t : σ} (hrun : M.run as = some s) (hstep : M.step s a = some t) :
    M.log record (as ++ [a]) = M.log record as ++ record as s a t := by
  unfold Machine.log
  rw [logFrom_append hrun]
  simp [Machine.logFrom, hstep]

theorem meets_true {M : Machine σ α} (s : σ) (as : List α) :
    M.Meets (fun _ _ => True) s as := by
  induction as generalizing s with
  | nil => trivial
  | cons a as ih => exact ⟨trivial, fun t _ => ih t⟩

theorem run_history {M : Machine σ α} {Inv : List α → σ → Prop} (hinit : Inv [] M.init)
    (hstep : ∀ as s a t, M.run as = some s → Inv as s → M.step s a = some t → Inv (as ++ [a]) t)
    {as : List α} {t : σ} (hrun : M.run as = some t) : Inv as t :=
  run_history_of_meets hinit (fun as s a t hs h _ => hstep as s a t hs h) (meets_true _ as) hrun

/-- What every step keeps holds after every run. -/
theorem runFrom_keeps {M : Machine σ α} {Inv : σ → Prop}
    (hstep : ∀ s a t, Inv s → M.step s a = some t → Inv t) {s t : σ} {as : List α}
    (h : Inv s) (hrun : M.runFrom s as = some t) : Inv t :=
  runFrom_keeps_of_meets (fun s a t hs _ => hstep s a t hs) h (meets_true s as) hrun

theorem run_keeps {M : Machine σ α} {Inv : σ → Prop} (hinit : Inv M.init)
    (hstep : ∀ s a t, Inv s → M.step s a = some t → Inv t) {t : σ} {as : List α}
    (hrun : M.run as = some t) : Inv t :=
  runFrom_keeps hstep hinit hrun

/-- A property that a step keeps exactly when it meets `cond`, and that no step
restores, holds at the end of exactly the runs that meet `cond` throughout. -/
theorem runFrom_monitored {M : Machine σ α} {Inv Good : σ → Prop} {cond : σ → α → Prop}
    (hkeep : ∀ s a t, Inv s → M.step s a = some t → Inv t)
    (hstep : ∀ s a t, Inv s → M.step s a = some t → (Good t ↔ Good s ∧ cond s a)) {s t : σ}
    {as : List α} (h : Inv s) (hrun : M.runFrom s as = some t) :
    Good t ↔ Good s ∧ M.Meets cond s as := by
  induction as generalizing s with
  | nil =>
    cases hrun
    simp only [Machine.Meets, and_true]
  | cons a as ih =>
    obtain ⟨m, hm, hrest⟩ := runFrom_cons.mp hrun
    rw [ih (hkeep s a m h hm) hrest, hstep s a m h hm, meets_cons hm, and_assoc]

theorem run_monitored {M : Machine σ α} {Inv Good : σ → Prop} {cond : σ → α → Prop}
    (hkeep : ∀ s a t, Inv s → M.step s a = some t → Inv t)
    (hstep : ∀ s a t, Inv s → M.step s a = some t → (Good t ↔ Good s ∧ cond s a))
    (hinit : Inv M.init) (hgood : Good M.init) {t : σ} {as : List α}
    (hrun : M.run as = some t) :
    Good t ↔ M.Meets cond M.init as := by
  rw [runFrom_monitored hkeep hstep hinit hrun]
  exact and_iff_right hgood

/-- What holds of a state's successor exactly when the step meets `cond` holds in every
state of exactly the runs that meet `cond` throughout. -/
theorem reached_iff_meets {M : Machine σ α} {Inv : σ → Prop} {cond : σ → α → Prop}
    (hstep : ∀ s a t, Inv s → M.step s a = some t → (Inv t ↔ cond s a)) {s t : σ}
    {as : List α} (h : Inv s) (hrun : M.runFrom s as = some t) :
    (∀ bs u, bs <+: as → M.runFrom s bs = some u → Inv u) ↔ M.Meets cond s as := by
  induction as generalizing s with
  | nil =>
    refine iff_of_true (fun bs u hbs hu => ?_) trivial
    rw [List.prefix_nil.mp hbs] at hu
    cases hu
    exact h
  | cons a as ih =>
    obtain ⟨m, hm, hrest⟩ := runFrom_cons.mp hrun
    rw [meets_cons hm, ← hstep s a m h hm]
    constructor
    · intro hall
      have hnext := hall [a] m ⟨as, rfl⟩ (runFrom_cons.mpr ⟨m, hm, rfl⟩)
      refine ⟨hnext, (ih hnext hrest).mp fun bs u hbs hu => ?_⟩
      exact hall (a :: bs) u ((List.prefix_cons_inj a).mpr hbs) (runFrom_cons.mpr ⟨m, hm, hu⟩)
    · rintro ⟨hnext, hmeets⟩ bs u hbs hu
      cases bs with
      | nil =>
        cases hu
        exact h
      | cons b bs =>
        obtain ⟨rfl, hrest'⟩ := List.cons_prefix_cons.mp hbs
        obtain ⟨m', hm', hu⟩ := runFrom_cons.mp hu
        rw [hm] at hm'
        cases hm'
        exact (ih hnext hrest).mpr hmeets bs u hrest' hu

theorem meets_iff_forall {M : Machine σ α} {P : α → Prop} {s t : σ} {as : List α}
    (hrun : M.runFrom s as = some t) : M.Meets (fun _ a => P a) s as ↔ ∀ a ∈ as, P a := by
  induction as generalizing s with
  | nil => exact iff_of_true trivial (List.forall_mem_nil _)
  | cons a as ih =>
    obtain ⟨m, hm, hrest⟩ := runFrom_cons.mp hrun
    rw [meets_cons hm, ih hrest, List.forall_mem_cons]

end LearnPg.Basis.Runs
