/-! A buffered channel that one side may close: a send that does not wait, a
close, a receive. Sending on a closed channel and closing it twice are panics. -/
namespace LearnPg.Basis.Channel

structure Chan (μ : Type) where
  cap : Nat
  queue : List μ
  closed : Bool
  deriving DecidableEq

variable {μ : Type}

inductive Panic where
  | sendOnClosed
  | closeOfClosed
  deriving DecidableEq

def Chan.make (cap : Nat) : Chan μ := ⟨cap, [], false⟩

inductive Offer (μ : Type) where
  | sent (ch : Chan μ)
  | full
  | panicked

/-- `select { case ch <- m: default: }`. -/
def Chan.offer (ch : Chan μ) (m : μ) : Offer μ :=
  if ch.closed then .panicked
  else if ch.queue.length < ch.cap then .sent { ch with queue := ch.queue ++ [m] }
  else .full

def Chan.close (ch : Chan μ) : Except Panic (Chan μ) :=
  if ch.closed then .error .closeOfClosed else .ok { ch with closed := true }

/-- `m, ok := <-ch`: nothing while the channel is empty and open, `(none, ch)`
once it is closed and drained. -/
def Chan.receive (ch : Chan μ) : Option (Option μ × Chan μ) :=
  match ch.queue with
  | m :: rest => some (some m, { ch with queue := rest })
  | [] => if ch.closed then some (none, ch) else none

@[simp] theorem make_closed (cap : Nat) : (Chan.make cap : Chan μ).closed = false := rfl

theorem offer_sent {ch ch' : Chan μ} {m : μ} (h : ch.offer m = .sent ch') :
    ch.queue.length < ch.cap ∧ ch' = { ch with queue := ch.queue ++ [m] } := by
  unfold Chan.offer at h
  split at h
  · cases h
  · split at h
    · cases h
      exact ⟨‹_›, rfl⟩
    · cases h

theorem offer_open {ch ch' : Chan μ} {m : μ} (h : ch.offer m = .sent ch') : ch.closed = false := by
  unfold Chan.offer at h
  split at h
  · cases h
  · next hopen => simpa using hopen

theorem offer_full {ch : Chan μ} {m : μ} (h : ch.offer m = .full) :
    ch.cap ≤ ch.queue.length := by
  unfold Chan.offer at h
  split at h
  · cases h
  · split at h
    · cases h
    · omega

theorem offer_panicked {ch : Chan μ} {m : μ} (h : ch.offer m = .panicked) :
    ch.closed = true := by
  unfold Chan.offer at h
  split at h
  · assumption
  · split at h <;> cases h

theorem close_open {ch : Chan μ} (hopen : ch.closed = false) :
    ch.close = .ok { ch with closed := true } := by
  simp [Chan.close, hopen]

theorem receive_some {ch ch' : Chan μ} {m : μ} (h : ch.receive = some (some m, ch')) :
    ∃ rest, ch.queue = m :: rest ∧ ch' = { ch with queue := rest } := by
  unfold Chan.receive at h
  split at h
  · cases h
    exact ⟨_, ‹_›, rfl⟩
  · split at h <;> cases h

theorem receive_none {ch ch' : Chan μ} (h : ch.receive = some (none, ch')) :
    ch.queue = [] ∧ ch.closed = true ∧ ch' = ch := by
  unfold Chan.receive at h
  split at h
  · cases h
  · split at h
    · cases h
      exact ⟨‹_›, ‹_›, rfl⟩
    · cases h

theorem receive_closed {ch ch' : Chan μ} {m : Option μ} (h : ch.receive = some (m, ch')) :
    ch'.closed = ch.closed := by
  unfold Chan.receive at h
  split at h
  · cases h
    rfl
  · split at h
    · cases h
      rfl
    · cases h

end LearnPg.Basis.Channel
