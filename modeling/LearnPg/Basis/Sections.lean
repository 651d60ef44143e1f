import LearnPg.Basis.Runs
import Mathlib.Data.List.Nodup
import Mathlib.Logic.Function.Basic

/-! Requests on one shared state, each a sequence of sections under a mutex: one
section, or one that reads and prepares and a later one that commits what was
prepared. A section that fails leaves the state as it was. When no commit is
stale, the requests that succeeded have the effect of running them whole, one
after another, in the order of their last sections. -/
namespace LearnPg.Basis.Sections

open Runs

variable {ι σ π ε : Type}

inductive Txn (σ π ε : Type) where
  | whole (run : σ → Except ε σ)
  | split (prepare : σ → Except ε π) (commit : π → σ → Except ε σ)

def Txn.exec : Txn σ π ε → σ → Except ε σ
  | .whole run, s => run s
  | .split prepare commit, s => prepare s >>= fun plan => commit plan s

inductive Pc (π ε : Type) where
  | waiting
  | prepared (plan : π)
  | succeeded
  | failed (e : ε)

structure State (ι σ π ε : Type) where
  shared : σ
  pc : ι → Pc π ε

section Steps

variable [DecidableEq ι]

def State.move (s : State ι σ π ε) (i : ι) (pc : Pc π ε) : State ι σ π ε :=
  { s with pc := Function.update s.pc i pc }

theorem State.pc_move_self (s : State ι σ π ε) (i : ι) (pc : Pc π ε) :
    (s.move i pc).pc i = pc := by
  unfold State.move
  exact Function.update_self i pc s.pc

theorem State.pc_move_of_ne (s : State ι σ π ε) {i j : ι} (h : j ≠ i) (pc : Pc π ε) :
    (s.move i pc).pc j = s.pc j := by
  unfold State.move
  exact Function.update_of_ne h pc s.pc

def State.finish (s : State ι σ π ε) (i : ι) : Except ε σ → State ι σ π ε
  | .ok shared => { s with shared := shared }.move i .succeeded
  | .error e => s.move i (.failed e)

/-- The next section of request `i`. -/
def step (ops : ι → Txn σ π ε) (s : State ι σ π ε) (i : ι) : Option (State ι σ π ε) :=
  match ops i, s.pc i with
  | .whole run, .waiting => some (s.finish i (run s.shared))
  | .split prepare _, .waiting =>
    match prepare s.shared with
    | .ok plan => some (s.move i (.prepared plan))
    | .error e => some (s.move i (.failed e))
  | .split _ commit, .prepared plan => some (s.finish i (commit plan s.shared))
  | _, _ => none

def requests (ops : ι → Txn σ π ε) (shared : σ) : Machine (State ι σ π ε) ι :=
  ⟨⟨shared, fun _ => .waiting⟩, step ops⟩

end Steps

def serial (ops : ι → Txn σ π ε) (order : List ι) (shared : σ) : Except ε σ :=
  order.foldlM (fun s i => (ops i).exec s) shared

theorem serial_append {ops : ι → Txn σ π ε} {shared next : σ} (order : List ι) (i : ι)
    (h : serial ops order shared = .ok next) :
    serial ops (order ++ [i]) shared = (ops i).exec next := by
  unfold serial at h ⊢
  rw [List.foldlM_append, h]
  exact bind_pure ((ops i).exec next)

/-- A commit that takes effect commits what preparing again would yield. -/
def Fresh (ops : ι → Txn σ π ε) (s : State ι σ π ε) (i : ι) : Prop :=
  match ops i, s.pc i with
  | .split prepare commit, .prepared plan =>
    ∀ t, commit plan s.shared = .ok t → prepare s.shared = .ok plan
  | _, _ => True

/-- `order` lists the requests that succeeded, and running them so yields the
shared state. -/
structure Serialized (ops : ι → Txn σ π ε) (shared : σ) (s : State ι σ π ε)
    (order : List ι) : Prop where
  nodup : order.Nodup
  mem_iff : ∀ i, i ∈ order ↔ s.pc i = .succeeded
  result : serial ops order shared = .ok s.shared

variable [DecidableEq ι] {ops : ι → Txn σ π ε} {shared : σ} {s t : State ι σ π ε}
  {order : List ι} {i : ι}

theorem Serialized.move (h : Serialized ops shared s order) {pc : Pc π ε}
    (hfrom : s.pc i ≠ .succeeded) (hto : pc ≠ .succeeded) :
    Serialized ops shared (s.move i pc) order where
  nodup := h.nodup
  mem_iff := by
    intro j
    rw [h.mem_iff]
    change _ ↔ Function.update s.pc i pc j = _
    by_cases hj : j = i
    · subst hj
      rw [Function.update_self]
      exact iff_of_false hfrom hto
    · rw [Function.update_of_ne hj]
  result := h.result

/-- A request whose last section does what the whole request would do now. -/
theorem Serialized.succeed (h : Serialized ops shared s order) {next : σ}
    (hfrom : s.pc i ≠ .succeeded) (hexec : (ops i).exec s.shared = .ok next) :
    Serialized ops shared ({ s with shared := next }.move i .succeeded) (order ++ [i]) where
  nodup := by
    have hi : i ∉ order := fun hmem => hfrom ((h.mem_iff i).mp hmem)
    rw [List.nodup_append_comm]
    exact List.nodup_cons.mpr ⟨hi, h.nodup⟩
  mem_iff := by
    intro j
    rw [List.mem_append, h.mem_iff, List.mem_singleton]
    change _ ↔ Function.update s.pc i .succeeded j = _
    by_cases hj : j = i
    · subst hj
      simp
    · simp [hj]
  result := (serial_append order i h.result).trans hexec

theorem Serialized.finish (h : Serialized ops shared s order) {r : Except ε σ}
    (hfrom : s.pc i ≠ .succeeded)
    (hexec : ∀ next, r = .ok next → (ops i).exec s.shared = .ok next) :
    ∃ order', Serialized ops shared (s.finish i r) order' := by
  cases r with
  | ok next => exact ⟨_, h.succeed hfrom (hexec next rfl)⟩
  | error e => exact ⟨order, h.move hfrom (by simp)⟩

theorem Serialized.step (h : Serialized ops shared s order) (hfresh : Fresh ops s i)
    (hstep : Sections.step ops s i = some t) : ∃ order', Serialized ops shared t order' := by
  unfold Sections.step at hstep
  split at hstep
  case h_1 run hop hpc =>
    cases hstep
    apply h.finish (by simp [hpc])
    intro next hrun
    rw [hop]
    exact hrun
  case h_2 prepare commit hop hpc =>
    split at hstep <;> cases hstep <;> exact ⟨order, h.move (by simp [hpc]) (by simp)⟩
  case h_3 prepare commit plan hop hpc =>
    cases hstep
    apply h.finish (by simp [hpc])
    intro next hcommit
    simp only [Fresh, hop, hpc] at hfresh
    rw [hop]
    simp only [Txn.exec, hfresh next hcommit]
    exact hcommit
  case h_4 => cases hstep

theorem run_serialized {is : List ι} (hrun : (requests ops shared).run is = some s)
    (hfresh : (requests ops shared).Meets (Fresh ops) (requests ops shared).init is) :
    ∃ order, Serialized ops shared s order := by
  apply runFrom_keeps_of_meets _ _ hfresh hrun
  · rintro s i t ⟨order, h⟩ hfresh hstep
    exact h.step hfresh hstep
  · exact ⟨[], List.nodup_nil, by simp [requests], rfl⟩

end LearnPg.Basis.Sections
