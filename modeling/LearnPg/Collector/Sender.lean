import LearnPg.Basis.Channel
import LearnPg.Basis.Runs

/-! The task that sends the collector's events to the backend, one connection after another. -/
namespace LearnPg.Collector.Sender

open Basis.Channel Basis.Runs

section

variable {ε : Type}

/-- Where `ws_sender` waits: for a connection, after a failed attempt, for an event or a
frame, or for a send to end. -/
inductive Phase (ε : Type) where
  | connecting
  | sleeping
  | connected
  | sending (event : ε)

/-- The channel and the task; `put`, `taken` and `written` record what happened to events. -/
structure State (ε : Type) where
  rx : Chan ε
  phase : Phase ε
  put : List ε
  taken : List ε
  written : List ε

inductive Label (ε : Type) where
  /-- A producer's send; it waits while the channel is full. -/
  | put (event : ε)
  /-- The last producer is gone. -/
  | close
  | connects
  | connectFails
  | awakes
  /-- A frame is read, or the end of the stream, or an error. -/
  | frame
  | takes
  | sends
  | sendFails

/-- What happens before the shutdown. -/
def step (st : State ε) : Label ε → Option (State ε)
  | .put event =>
    match st.rx.offer event with
    | .sent rx => some { st with rx, put := st.put ++ [event] }
    | _ => none
  | .close =>
    match st.rx.close with
    | .ok rx => some { st with rx }
    | .error _ => none
  | .connects =>
    match st.phase with
    | .connecting => some { st with phase := .connected }
    | _ => none
  | .connectFails =>
    match st.phase with
    | .connecting => some { st with phase := .sleeping }
    | _ => none
  | .awakes =>
    match st.phase with
    | .sleeping => some { st with phase := .connecting }
    | _ => none
  | .frame =>
    match st.phase with
    | .connected => some st
    | _ => none
  | .takes =>
    match st.phase, st.rx.receive with
    | .connected, some (some event, rx) =>
      some { st with rx, phase := .sending event, taken := st.taken ++ [event] }
    | .connected, some (none, rx) => some { st with rx, phase := .connecting }
    | _, _ => none
  | .sends =>
    match st.phase with
    | .sending event => some { st with phase := .connected, written := st.written ++ [event] }
    | _ => none
  | .sendFails =>
    match st.phase with
    -- the loop of the connection ends, and `event` with it
    | .sending _ => some { st with phase := .connecting }
    | _ => none

def wsSender : Machine (State ε) (Label ε) where
  init := { rx := Chan.make 1000, phase := .connecting, put := [], taken := [], written := [] }
  step := step

def Phase.inHand : Phase ε → List ε
  | .sending event => [event]
  | _ => []

/-- Events are taken in the order they were put; those taken are the ones written, but for the
one in hand. -/
structure Delivers (st : State ε) : Prop where
  order : st.put = st.taken ++ st.rx.queue
  written : st.taken = st.written ++ st.phase.inHand

variable {st st' : State ε}

theorem receive_queue {rx rx' : Chan ε} {event : Option ε} (h : rx.receive = some (event, rx')) :
    rx.queue = event.toList ++ rx'.queue := by
  cases event with
  | some event =>
    obtain ⟨rest, hqueue, rfl⟩ := receive_some h
    exact hqueue
  | none =>
    obtain ⟨-, -, rfl⟩ := receive_none h
    rfl

theorem Delivers.phase {phase : Phase ε} (h : Delivers st)
    (hphase : phase.inHand = st.phase.inHand) : Delivers { st with phase } :=
  ⟨h.order, h.written.trans (congrArg _ hphase.symm)⟩

theorem step_delivers {label : Label ε} (h : Delivers st) (hstep : step st label = some st')
    (hne : label ≠ .sendFails) : Delivers st' := by
  have horder := h.order
  have hwritten := h.written
  unfold step at hstep
  cases label with
  | put event =>
    dsimp only at hstep
    split at hstep
    next rx hoffer =>
      cases hstep
      obtain ⟨-, rfl⟩ := offer_sent hoffer
      exact ⟨by rw [horder, List.append_assoc], hwritten⟩
    next => cases hstep
  | close =>
    dsimp only at hstep
    split at hstep
    next rx hclose =>
      cases hstep
      have hqueue : rx.queue = st.rx.queue := by
        unfold Chan.close at hclose
        split at hclose
        · cases hclose
        · cases hclose
          rfl
      exact ⟨by rw [hqueue, horder], hwritten⟩
    next => cases hstep
  | connects | connectFails | awakes =>
    dsimp only at hstep
    split at hstep
    next hphase =>
      cases hstep
      exact h.phase (by rw [hphase]; rfl)
    next => cases hstep
  | frame =>
    dsimp only at hstep
    split at hstep
    next =>
      cases hstep
      exact h
    next => cases hstep
  | takes =>
    dsimp only at hstep
    split at hstep
    next event rx hphase hreceive =>
      cases hstep
      have hqueue := receive_queue hreceive
      rw [hphase] at hwritten
      refine ⟨?_, ?_⟩
      · rw [horder, hqueue, List.append_assoc]
        rfl
      · rw [hwritten]
        exact congrArg (· ++ [event]) (List.append_nil st.written)
    next rx hphase hreceive =>
      cases hstep
      have hqueue := receive_queue hreceive
      rw [hphase] at hwritten
      exact ⟨by rw [horder, hqueue]; rfl, hwritten⟩
    next => cases hstep
  | sends =>
    dsimp only at hstep
    split at hstep
    next event hphase =>
      cases hstep
      rw [hphase] at hwritten
      exact ⟨horder, hwritten.trans (List.append_nil _).symm⟩
    next => cases hstep
  | sendFails => exact absurd rfl hne

theorem sendFails_not_delivers (h : Delivers st) (hstep : step st .sendFails = some st') :
    ¬ Delivers st' := by
  have hwritten := h.written
  unfold step at hstep
  dsimp only at hstep
  split at hstep
  next event hphase =>
    cases hstep
    rw [hphase] at hwritten
    intro hafter
    have hlost : st.written ++ [event] = st.written ++ [] := hwritten.symm.trans hafter.written
    cases List.append_cancel_left hlost
  next => cases hstep

/-- The record holds all along exactly the runs in which no send fails. -/
theorem delivers_iff {labels : List (Label ε)} (hrun : wsSender.run labels = some st) :
    (∀ before u, before <+: labels → wsSender.run before = some u → Delivers u) ↔
      ∀ label ∈ labels, label ≠ .sendFails := by
  have hinit : Delivers (wsSender : Machine (State ε) (Label ε)).init := ⟨rfl, rfl⟩
  rw [← meets_iff_forall hrun]
  refine reached_iff_meets (fun s label t h hstep => ?_) hinit hrun
  refine ⟨fun hafter heq => ?_, step_delivers h hstep⟩
  subst heq
  exact sendFails_not_delivers h hstep hafter

end

def brokenSend : List (Label Nat) := [.connects, .put 1, .takes, .sendFails]

theorem broken_send_loses : ∃ st, wsSender.run brokenSend = some st ∧
    st.taken = [1] ∧ st.written = [] ∧ st.phase.inHand = [] ∧ ¬ Delivers st := by
  refine ⟨_, rfl, rfl, rfl, rfl, fun h => ?_⟩
  cases h.written

theorem delivers_iff_sent : ∃ st : State Nat,
    wsSender.run [.connects, .put 1, .takes, .sends] = some st ∧ st.written = [1] ∧
      Delivers st := by
  have hall := (@delivers_iff Nat _ [.connects, .put 1, .takes, .sends] rfl).mpr (by simp)
  exact ⟨_, rfl, rfl, hall _ _ (List.prefix_refl _) rfl⟩

end LearnPg.Collector.Sender
