/-! Programs that call their environment and go on by what it replies. The
environment is a state, and in every state it has one reply to every call; a
condition on a run is a condition on its calls. -/
namespace LearnPg.Basis.Calls

variable {κ : Type} {ρ : κ → Type} {σ τ α β : Type}

inductive Program (κ : Type) (ρ : κ → Type) (α : Type) where
  | done (a : α)
  | call (c : κ) (next : ρ c → Program κ ρ α)

def Program.bind : Program κ ρ α → (α → Program κ ρ β) → Program κ ρ β
  | .done a, f => f a
  | .call c next, f => .call c fun r => (next r).bind f

instance : Monad (Program κ ρ) where
  pure := .done
  bind := .bind

def ask (c : κ) : Program κ ρ (ρ c) := .call c .done

def Program.run (reply : σ → (c : κ) → ρ c × σ) : Program κ ρ α → σ → α × σ
  | .done a, s => (a, s)
  | .call c next, s => (next (reply s c).1).run reply (reply s c).2

/-- Every call of the run is made in a state that meets `cond`. -/
def Program.Meets (reply : σ → (c : κ) → ρ c × σ) (cond : σ → κ → Prop) :
    Program κ ρ α → σ → Prop
  | .done _, _ => True
  | .call c next, s => cond s c ∧ (next (reply s c).1).Meets reply cond (reply s c).2

/-- Whatever the replies are, the calls are among those with `ok`. -/
def Program.Only (ok : κ → Prop) : Program κ ρ α → Prop
  | .done _ => True
  | .call c next => ok c ∧ ∀ r, (next r).Only ok

/-- Whatever the replies are, an automaton allows the calls and ends in a state with `Q`. -/
def Program.Follows (allowed : τ → κ → Prop) (after : τ → κ → τ) (Q : τ → Prop) :
    Program κ ρ α → τ → Prop
  | .done _, t => Q t
  | .call c next, t => allowed t c ∧ ∀ r, (next r).Follows allowed after Q (after t c)

/-- `Q` of the result, the state after it and of whether the calls meet `cond`. -/
def Program.Does (reply : σ → (c : κ) → ρ c × σ) (cond : σ → κ → Prop) (p : Program κ ρ α)
    (s : σ) (Q : α → σ → Prop → Prop) : Prop :=
  Q (p.run reply s).1 (p.run reply s).2 (p.Meets reply cond s)

section

variable {reply : σ → (c : κ) → ρ c × σ} {cond : σ → κ → Prop} {p : Program κ ρ α}
  {f : α → Program κ ρ β} {s : σ} {c : κ} {a : α} {Q R : α → σ → Prop → Prop}

theorem run_bind : (p >>= f).run reply s = (f (p.run reply s).1).run reply (p.run reply s).2 := by
  induction p generalizing s with
  | done a => rfl
  | call c next ih => exact ih (reply s c).1

theorem meets_bind : (p >>= f).Meets reply cond s ↔
    p.Meets reply cond s ∧ (f (p.run reply s).1).Meets reply cond (p.run reply s).2 := by
  induction p generalizing s with
  | done a => exact (and_iff_right trivial).symm
  | call c next ih =>
    change cond s c ∧ _ ↔ (cond s c ∧ _) ∧ _
    rw [and_assoc]
    exact and_congr_right fun _ => ih (reply s c).1

theorem does_pure (h : Q a s True) : (pure a : Program κ ρ α).Does reply cond s Q := h

theorem does_ask {Q : ρ c → σ → Prop → Prop}
    (h : Q (reply s c).1 (reply s c).2 (cond s c)) : (ask c).Does reply cond s Q := by
  have hmeets : (ask c : Program κ ρ (ρ c)).Meets reply cond s = cond s c :=
    propext (and_iff_left trivial)
  unfold Program.Does
  rw [hmeets]
  exact h

theorem Program.Does.imp (h : p.Does reply cond s Q) (hqr : ∀ a t m, Q a t m → R a t m) :
    p.Does reply cond s R :=
  hqr _ _ _ h

theorem Program.Meets.imp {cond' : σ → κ → Prop} (h : p.Meets reply cond s)
    (himp : ∀ s c, cond s c → cond' s c) : p.Meets reply cond' s := by
  induction p generalizing s with
  | done a => trivial
  | call c next ih => exact ⟨himp s c h.1, ih _ h.2⟩

theorem meets_of_forall (h : ∀ s c, cond s c) : p.Meets reply cond s := by
  induction p generalizing s with
  | done a => trivial
  | call c next ih => exact ⟨h s c, ih _⟩

/-- What a sequence does, from what its first part does. -/
theorem does_bind {R : β → σ → Prop → Prop} (h : p.Does reply cond s Q)
    (hf : ∀ a t m, Q a t m → (f a).Does reply cond t fun b u m' => R b u (m ∧ m')) :
    (p >>= f).Does reply cond s R := by
  have hmeets : (p >>= f).Meets reply cond s = _ := propext meets_bind
  unfold Program.Does
  rw [run_bind, hmeets]
  exact hf _ _ _ h

theorem does_bind_silent {R : σ → Prop → Prop} (h : p.Does reply cond s fun _ t m => R t m)
    (hf : ∀ a, ∃ b, f a = pure b) : (p >>= f).Does reply cond s fun _ t m => R t m := by
  refine does_bind h fun a t m ht => ?_
  obtain ⟨b, hb⟩ := hf a
  rw [hb]
  refine does_pure ?_
  rw [and_true]
  exact ht

theorem does_of_true {m : Prop} (hm : m) (h : p.Does reply cond s Q) :
    p.Does reply cond s fun a t m' => Q a t (m ∧ m') := by
  have hrest (m' : Prop) : (m ∧ m') = m' := propext (and_iff_right hm)
  simp only [hrest]
  exact h

theorem does_bind_clean {S : α → σ → Prop} {R : β → σ → Prop → Prop}
    (h : p.Does reply cond s fun a t m => m ∧ S a t)
    (hf : ∀ a t, S a t → (f a).Does reply cond t R) : (p >>= f).Does reply cond s R :=
  does_bind h fun a t _ hm => does_of_true hm.1 (hf a t hm.2)

end

section

variable {ok : κ → Prop} {allowed : τ → κ → Prop} {after : τ → κ → τ} {Q R : τ → Prop}
  {p : Program κ ρ α} {f : α → Program κ ρ β} {c : κ} {a : α} {t : τ}

theorem only_pure : (pure a : Program κ ρ α).Only ok := trivial

theorem only_ask (h : ok c) : (ask c : Program κ ρ (ρ c)).Only ok := ⟨h, fun _ => trivial⟩

theorem only_bind (h : p.Only ok) (hf : ∀ a, (f a).Only ok) : (p >>= f).Only ok := by
  induction p with
  | done a => exact hf a
  | call c next ih => exact ⟨h.1, fun r => ih r (h.2 r)⟩

theorem follows_bind (h : p.Follows allowed after Q t)
    (hf : ∀ a u, Q u → (f a).Follows allowed after R u) :
    (p >>= f).Follows allowed after R t := by
  induction p generalizing t with
  | done a => exact hf a t h
  | call c next ih => exact ⟨h.1, fun r => ih r (h.2 r)⟩

/-- A program whose calls leave the automaton where it is. -/
theorem follows_of_only (hok : ∀ t c, ok c → allowed t c ∧ after t c = t) (h : p.Only ok) :
    p.Follows allowed after (· = t) t := by
  induction p with
  | done a => rfl
  | call c next ih =>
    refine ⟨(hok t c h.1).1, fun r => ?_⟩
    rw [(hok t c h.1).2]
    exact ih r (h.2 r)

theorem follows_bind_only (hok : ∀ t c, ok c → allowed t c ∧ after t c = t) (h : p.Only ok)
    (hf : ∀ a, (f a).Follows allowed after R t) : (p >>= f).Follows allowed after R t := by
  refine follows_bind (follows_of_only hok h) fun a u hu => ?_
  rw [hu]
  exact hf a

end

end LearnPg.Basis.Calls
