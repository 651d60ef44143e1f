import LearnPg.Ws.Steps

/-! No step of the hub or of a client's goroutines sends on a closed channel or
closes one twice. Membership in `h.clients` decides whether a registered client's
channel is open, and whoever is still to send on a channel has its client in the
map: `Run` because only `Run` deletes, a read pump because it holds the read lock. -/
namespace LearnPg.Ws.Closing

open LearnPg.Basis.Channel LearnPg.Basis.Runs Hub Steps

variable {κ β : Type} [DecidableEq κ]

def Registered (s : State κ β) (c : κ) : Prop :=
  s.serveWs c = .served ∧ s.run ≠ .adding c

/-- The clients that `Run` still has to send to or to evict. -/
def pending : RunPc κ → Finset κ
  | .ranging _ todo | .resuming _ todo => todo
  | .evicting _ todo c => insert c todo
  | _ => ∅

structure Inv (s : State κ β) : Prop where
  running : s.panic = none
  members : ∀ c ∈ s.clients, Registered s c
  closed_iff : ∀ c, (s.send c).closed = true ↔ Registered s c ∧ c ∉ s.clients
  pending : pending s.run ⊆ s.clients
  evicted : ∀ m todo c, s.run = .evicting m todo c → c ∉ todo
  forwarding : ∀ c m todo, s.readPump c = .forwarding m todo →
    c ∈ s.readers ∧ todo ⊆ s.clients
  exclusive : s.run = .closing → s.readers = ∅
  adding : ∀ c, s.run = .adding c → s.serveWs c = .served

theorem inv_newHub : Inv (newHub : State κ β) where
  running := rfl
  members := by simp [newHub]
  closed_iff := by simp [newHub, Registered]
  pending := by simp [newHub, pending]
  evicted := by simp [newHub]
  forwarding := by simp [newHub]
  exclusive := by simp [newHub]
  adding := by simp [newHub]

variable {s t : State κ β}

theorem Inv.open_of_mem (h : Inv s) {c : κ} (hc : c ∈ s.clients) :
    (s.send c).closed = false := by
  rw [Bool.eq_false_iff]
  intro hclosed
  exact ((h.closed_iff c).mp hclosed).2 hc

/-- The parts of the state that the invariant does not read may change freely. -/
theorem Inv.frame (h : Inv s) (hpanic : t.panic = s.panic) (hclients : t.clients = s.clients)
    (hsend : ∀ c, (t.send c).closed = (s.send c).closed) (hserve : t.serveWs = s.serveWs)
    (hrun : t.run = s.run) (hreaders : t.readers = s.readers)
    (hread : t.readPump = s.readPump) : Inv t where
  running := by rw [hpanic, h.running]
  members := by
    intro c hc
    unfold Registered
    rw [hserve, hrun]
    exact h.members c (hclients ▸ hc)
  closed_iff := by
    intro c
    unfold Registered
    rw [hsend, hserve, hrun, hclients]
    exact h.closed_iff c
  pending := by rw [hrun, hclients]; exact h.pending
  evicted := by rw [hrun]; exact h.evicted
  forwarding := by rw [hread, hreaders, hclients]; exact h.forwarding
  exclusive := by rw [hrun, hreaders]; exact h.exclusive
  adding := by rw [hrun, hserve]; exact h.adding

theorem setSend_closed (s : State κ β) (c d : κ) {ch : Chan Message}
    (hch : ch.closed = (s.send c).closed) :
    ((s.setSend c ch).send d).closed = (s.send d).closed := by
  unfold State.setSend
  by_cases hd : d = c
  · subst hd
    simp [hch]
  · simp [hd]

theorem Inv.setSend (h : Inv s) {c : κ} {ch : Chan Message}
    (hch : ch.closed = (s.send c).closed) : Inv (s.setSend c ch) :=
  h.frame rfl rfl (fun d => setSend_closed s c d hch) rfl rfl rfl rfl

theorem Inv.setRun (h : Inv s) {pc : RunPc κ} (hfrom : ∀ c, s.run ≠ .adding c)
    (hto : ∀ c, pc ≠ .adding c) (hpending : Closing.pending pc ⊆ s.clients)
    (hevicted : ∀ m todo c, pc = .evicting m todo c → c ∉ todo)
    (hexclusive : pc = .closing → s.readers = ∅) : Inv (s.setRun pc) := by
  have hreg : ∀ c, Registered (s.setRun pc) c ↔ Registered s c := fun c =>
    and_congr_right fun _ => iff_of_true (hto c) (hfrom c)
  exact
    { running := h.running
      members := fun c hc => (hreg c).mpr (h.members c hc)
      closed_iff := fun c => by rw [hreg c]; exact h.closed_iff c
      pending := hpending
      evicted := hevicted
      forwarding := h.forwarding
      exclusive := hexclusive
      adding := fun c hc => absurd hc (hto c) }

/-- Where `Run` holds no client of the map and no lock across steps. -/
def Plain : RunPc κ → Prop
  | .select | .removing _ | .sharing _ | .stopping | .returned => True
  | _ => False

theorem Inv.setRun_plain (h : Inv s) {pc : RunPc κ} (hfrom : ∀ c, s.run ≠ .adding c)
    (hto : Plain pc) : Inv (s.setRun pc) := by
  apply h.setRun hfrom
  · rintro c rfl
    exact hto
  · cases pc <;> first | exact Finset.empty_subset _ | cases hto
  · rintro m todo c rfl
    cases hto
  · rintro rfl
    cases hto

theorem Inv.setReadPump (h : Inv s) {c : κ} {pc : ReadPumpPc κ}
    (hpc : ∀ m todo, pc = .forwarding m todo → c ∈ s.readers ∧ todo ⊆ s.clients) :
    Inv (s.setReadPump c pc) :=
  { h with
    forwarding := by
      intro d m todo hd
      change Function.update s.readPump c pc d = _ at hd
      by_cases hdc : d = c
      · subst hdc
        rw [Function.update_self] at hd
        exact hpc m todo hd
      · rw [Function.update_of_ne hdc] at hd
        exact h.forwarding d m todo hd }

theorem Inv.drop (h : Inv s) {c : κ} (hc : c ∈ s.clients) (hreaders : s.readers = ∅)
    (hpending : c ∉ Closing.pending s.run) : Inv (s.drop c) := by
  have hdrop : s.drop c = { s with clients := s.clients.erase c }.setSend c
      { s.send c with closed := true } := by
    simp only [State.drop, close_open (h.open_of_mem hc)]
  rw [hdrop]
  exact
    { running := h.running
      members := fun d hd => h.members d (Finset.mem_of_mem_erase hd)
      closed_iff := by
        intro d
        have hd := h.closed_iff d
        by_cases hdc : d = c
        · subst hdc
          have hreg := h.members d hc
          simp only [State.setSend, Function.update_self, Finset.notMem_erase,
            not_false_eq_true, and_true, true_iff]
          exact hreg
        · simp only [State.setSend, Function.update_of_ne hdc, Finset.mem_erase, ne_eq, hdc,
            not_false_eq_true, true_and]
          exact hd
      pending := fun d hd =>
        Finset.mem_erase.mpr ⟨fun heq => hpending (heq ▸ hd), h.pending hd⟩
      evicted := h.evicted
      forwarding := by
        intro d m todo hd
        have hmem := (h.forwarding d m todo hd).1
        rw [hreaders] at hmem
        simp at hmem
      exclusive := h.exclusive
      adding := h.adding }

theorem Inv.setSend_sent (h : Inv s) {d : κ} {m : Message} {ch : Chan Message}
    (hoffer : (s.send d).offer m = .sent ch) : Inv (s.setSend d ch) := by
  obtain ⟨-, rfl⟩ := offer_sent hoffer
  exact h.setSend rfl

/-- A send to a client still in the map does not panic. -/
theorem Inv.not_panicked (h : Inv s) {d : κ} (hd : d ∈ s.clients) (m : Message) :
    (s.send d).offer m ≠ .panicked := by
  intro hoffer
  have hclosed := offer_panicked hoffer
  rw [h.open_of_mem hd] at hclosed
  cases hclosed

theorem Inv.register (h : Inv s) {c : κ} (hrun : s.run = .select)
    (hserve : s.serveWs c = .registering) {write : κ → WritePumpPc} :
    Inv { s with
      run := .adding c
      serveWs := Function.update s.serveWs c .served
      writePump := write } := by
  have hreg : ∀ d, (Function.update s.serveWs c .served d = .served ∧
      (RunPc.adding c : RunPc κ) ≠ .adding d) ↔ Registered s d := by
    intro d
    unfold Registered
    by_cases hdc : d = c
    · subst hdc
      simp [hserve]
    · simp [Function.update_of_ne hdc, hrun, Ne.symm hdc]
  exact
    { running := h.running
      members := fun d hd => (hreg d).mpr (h.members d hd)
      closed_iff := fun d => (h.closed_iff d).trans (and_congr_left' (hreg d).symm)
      pending := Finset.empty_subset _
      evicted := by simp
      forwarding := h.forwarding
      exclusive := by simp
      adding := by
        intro d hd
        cases hd
        exact Function.update_self .. }

theorem Inv.add (h : Inv s) {c : κ} (hrun : s.run = .adding c) :
    Inv { s with clients := insert c s.clients, run := .select } := by
  have hnew : (s.send c).closed = false := by
    rw [Bool.eq_false_iff]
    intro hclosed
    exact ((h.closed_iff c).mp hclosed).1.2 hrun
  have hreg : ∀ d, d ≠ c → (Registered s d ↔ s.serveWs d = .served) := by
    intro d hdc
    simp [Registered, hrun, Ne.symm hdc]
  exact
    { running := h.running
      members := by
        intro d hd
        refine ⟨?_, by simp⟩
        rcases Finset.mem_insert.mp hd with rfl | hd
        · exact h.adding d hrun
        · exact (h.members d hd).1
      closed_iff := by
        intro d
        by_cases hdc : d = c
        · subst hdc
          simp [hnew]
        · have hd := h.closed_iff d
          rw [hreg d hdc] at hd
          simp [Registered, hd, hdc]
      pending := Finset.empty_subset _
      evicted := by simp
      forwarding := fun d m todo hd =>
        ⟨(h.forwarding d m todo hd).1,
          (h.forwarding d m todo hd).2.trans (Finset.subset_insert c s.clients)⟩
      exclusive := by simp
      adding := by simp }

theorem Inv.upgrade (h : Inv s) {c : κ} {pc : ServeWsPc} (hfrom : s.serveWs c = .idle)
    (hto : pc ≠ .served) : Inv { s with serveWs := Function.update s.serveWs c pc } := by
  have hserved : ∀ d, Function.update s.serveWs c pc d = .served ↔ s.serveWs d = .served := by
    intro d
    by_cases hdc : d = c
    · subst hdc
      simp [hfrom, hto]
    · simp [hdc]
  have hreg : ∀ d, (Function.update s.serveWs c pc d = .served ∧ s.run ≠ .adding d) ↔
      Registered s d := fun d => and_congr_left' (hserved d)
  exact
    { running := h.running
      members := fun d hd => (hreg d).mpr (h.members d hd)
      closed_iff := fun d => (h.closed_iff d).trans (and_congr_left' (hreg d).symm)
      pending := h.pending
      evicted := h.evicted
      forwarding := h.forwarding
      exclusive := h.exclusive
      adding := fun d hd => (hserved d).mpr (h.adding d hd) }

theorem Inv.pending_subset (h : Inv s) {pc : RunPc κ} (hrun : s.run = pc) :
    Closing.pending pc ⊆ s.clients := hrun ▸ h.pending

theorem Inv.evict (h : Inv s) {m : Message} {todo : Finset κ} {c : κ}
    (hrun : s.run = .evicting m todo c) (hreaders : s.readers = ∅) :
    Inv ((s.setRun (.resuming m todo)).drop c) := by
  have hpending := h.pending_subset hrun
  have hresuming : Inv (s.setRun (.resuming m todo)) :=
    h.setRun (by simp [hrun]) (by simp) ((Finset.subset_insert c todo).trans hpending)
      (by simp) (by simp)
  exact hresuming.drop (hpending (Finset.mem_insert_self c todo)) hreaders
    (h.evicted m todo c hrun)

theorem Inv.ranging (h : Inv s) {m : Message} {todo : Finset κ} (hrun : ∀ c, s.run ≠ .adding c)
    (htodo : todo ⊆ s.clients) : Inv (s.setRun (.ranging m todo)) :=
  h.setRun hrun (by simp) htodo (by simp) (by simp)

theorem Inv.evicting (h : Inv s) {m : Message} {todo : Finset κ} {d : κ}
    (hrun : s.run = .ranging m todo) (hd : d ∈ todo) :
    Inv (s.setRun (.evicting m (todo.erase d) d)) := by
  have htodo : todo ⊆ s.clients := h.pending_subset hrun
  apply h.setRun (by simp [hrun]) (by simp) _ _ (by simp)
  · exact Finset.insert_subset (htodo hd) ((Finset.erase_subset d todo).trans htodo)
  · intro m' todo' c heq
    cases heq
    exact Finset.notMem_erase d todo

theorem Inv.lockRead (h : Inv s) {c : κ} {m : Message} (hrun : s.run ≠ .closing) :
    Inv ({ s with readers := insert c s.readers }.setReadPump c (.forwarding m s.clients)) := by
  have hlocked : Inv { s with readers := insert c s.readers } :=
    { h with
      forwarding := fun d m todo hd =>
        ⟨Finset.mem_insert_of_mem (h.forwarding d m todo hd).1, (h.forwarding d m todo hd).2⟩
      exclusive := fun hclosing => absurd hclosing hrun }
  apply hlocked.setReadPump
  intro m' todo heq
  cases heq
  exact ⟨Finset.mem_insert_self c s.readers, Finset.Subset.refl _⟩

theorem Inv.unlockRead (h : Inv s) {c : κ} :
    Inv ({ s with readers := s.readers.erase c }.setReadPump c .reading) := by
  have hreading : Inv (s.setReadPump c .reading) := h.setReadPump (by simp)
  exact
    { hreading with
      forwarding := by
        intro d m todo hd
        have hdc : d ≠ c := by
          rintro rfl
          change Function.update s.readPump d .reading d = _ at hd
          simp at hd
        have hd' := hreading.forwarding d m todo hd
        exact ⟨Finset.mem_erase.mpr ⟨hdc, hd'.1⟩, hd'.2⟩
      exclusive := fun hclosing => by simp [State.setReadPump, h.exclusive hclosing] }

theorem Inv.forward (h : Inv s) {c d : κ} {m : Message} {todo : Finset κ}
    (hread : s.readPump c = .forwarding m todo) :
    Inv (s.setReadPump c (.forwarding m (todo.erase d))) := by
  obtain ⟨hreader, htodo⟩ := h.forwarding c m todo hread
  apply h.setReadPump
  intro m' todo' heq
  cases heq
  exact ⟨hreader, (Finset.erase_subset d todo).trans htodo⟩

variable [DecidableEq β] {l : Label κ β}

theorem Inv.step (h : Inv s) (hstep : Step s l t) : Inv t := by
  cases hstep with
  | @upgrade c ok hserve => exact h.upgrade hserve (by cases ok <;> simp)
  | @register c hrun hserve =>
    have hreading : ∀ m todo, (.reading : ReadPumpPc κ) = .forwarding m todo →
        c ∈ s.readers ∧ todo ⊆ s.clients := by simp
    exact (h.register hrun hserve).setReadPump hreading
  | unregisterRead hrun =>
    apply Inv.setReadPump _ (by simp)
    exact h.setRun_plain (by simp [hrun]) trivial
  | @unregisterWrite c hrun =>
    have hremoving : Inv (s.setRun (.removing c)) := h.setRun_plain (by simp [hrun]) trivial
    exact hremoving.frame rfl rfl (fun _ => rfl) rfl rfl rfl rfl
  | takeStop hrun => exact h.setRun_plain (by simp [hrun]) trivial
  | @takeBroadcast m ch hrun =>
    have hsharing : Inv (s.setRun (.sharing m)) := h.setRun_plain (by simp [hrun]) trivial
    exact hsharing.frame rfl rfl (fun _ => rfl) rfl rfl rfl rfl
  | add hrun => exact h.add hrun
  | remove hrun hreaders hc =>
    have hselect : Inv (s.setRun .select) := h.setRun_plain (by simp [hrun]) trivial
    exact hselect.drop hc hreaders (Finset.notMem_empty _)
  | removeNone hrun => exact h.setRun_plain (by simp [hrun]) trivial
  | evict hrun hreaders => exact h.evict hrun hreaders
  | lockStop hrun hreaders =>
    exact h.setRun (by simp [hrun]) (by simp) (Finset.empty_subset _) (by simp) fun _ => hreaders
  | closeClient hrun hc => exact h.drop hc (h.exclusive hrun) (by simp [hrun, Closing.pending])
  | unlockReturn hrun =>
    have hreturned : Inv (s.setRun .returned) := h.setRun_plain (by simp [hrun]) trivial
    exact hreturned.frame rfl rfl (fun _ => rfl) rfl rfl rfl rfl
  | share hrun => exact h.ranging (by simp [hrun]) (Finset.Subset.refl _)
  | resume hrun => exact h.ranging (by simp [hrun]) (h.pending_subset hrun)
  | @offerSent m todo d ch hrun hd hoffer =>
    have hrest : todo.erase d ⊆ s.clients :=
      (Finset.erase_subset d todo).trans (h.pending_subset hrun)
    exact (h.ranging (by simp [hrun]) hrest).setSend_sent hoffer
  | offerFull hrun hd => exact h.evicting hrun hd
  | offerPanic hrun hd hoffer =>
    exact absurd hoffer (h.not_panicked (h.pending_subset hrun hd) _)
  | ranged hrun => exact h.setRun_plain (by simp [hrun]) trivial
  | readMessage | readError => exact h.setReadPump (by simp)
  | rlockRead hread hrun => exact h.lockRead hrun
  | forwardSent hread hd hoffer => exact (h.forward hread).setSend_sent hoffer
  | forwardPast hread => exact h.forward hread
  | forwardPanic hread hd hoffer =>
    exact absurd hoffer (h.not_panicked ((h.forwarding _ _ _ hread).2 hd) _)
  | forwarded => exact h.unlockRead
  | received _ hreceive | receiveFailed _ hreceive =>
    have hsend := h.setSend (receive_closed hreceive)
    exact hsend.frame rfl rfl (fun _ => rfl) rfl rfl rfl rfl
  | @writeClose c wrote => cases wrote <;> exact h.frame rfl rfl (fun _ => rfl) rfl rfl rfl rfl
  | ping | pingFailed | marshal | enqueue | callStop | stopReturns =>
    exact h.frame rfl rfl (fun _ => rfl) rfl rfl rfl rfl

theorem run_inv {ls : List (Label κ β)} {s : State κ β} (hrun : (hub κ β).run ls = some s) :
    Inv s :=
  run_keeps inv_newHub (fun _ _ _ h hstep => h.step (step_cases hstep)) hrun

/-- In every state any run reaches, no goroutine has panicked, and the channel
of a client that was registered is open exactly while the client is in the map. -/
theorem send_open_iff_member {ls : List (Label κ β)} {s : State κ β}
    (hrun : (hub κ β).run ls = some s) :
    s.panic = none ∧
      ∀ c, Registered s c → ((s.send c).closed = false ↔ c ∈ s.clients) := by
  have h := run_inv hrun
  refine ⟨h.running, fun c hc => ⟨fun hopen => ?_, h.open_of_mem⟩⟩
  by_contra hmem
  have hclosed := (h.closed_iff c).mpr ⟨hc, hmem⟩
  rw [hopen] at hclosed
  cases hclosed

/-- Two clients join, one forwards to the other and then leaves twice, once from
each of its goroutines; the hub stops. -/
def leaveTwice : List (Label Bool Unit) :=
  [.upgrade true true, .register true, .lock, .upgrade false true, .register false, .lock,
    .readMessage true [1], .rlockRead true, .forward true false, .forward true true,
    .forwarded true, .readError true, .ping true false, .unregisterRead true, .lock,
    .unregisterWrite true, .lock, .callStop (), .takeStop, .lock, .closeClient false,
    .unlockReturn, .stopReturns ()]

theorem send_open_iff_member_leaveTwice :
    ∃ s, (hub Bool Unit).run leaveTwice = some s ∧ s.panic = none ∧
      ∀ c, Registered s c → ((s.send c).closed = false ↔ c ∈ s.clients) :=
  have hsome : ((hub Bool Unit).run leaveTwice).isSome = true := by decide
  have hrun : (hub Bool Unit).run leaveTwice = some _ := (Option.some_get hsome).symm
  ⟨_, hrun, send_open_iff_member hrun⟩

end LearnPg.Ws.Closing
