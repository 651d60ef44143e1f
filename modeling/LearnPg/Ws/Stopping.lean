import LearnPg.Ws.Closing

/-! Once `Run` has taken the stop case nobody receives from `h.register`,
`h.unregister` or `h.broadcast` again, so a goroutine that comes to a send there
stays there. A run keeps every goroutine free exactly when none is at such a send
as the stop case is taken and no later event brings one to it. -/
namespace LearnPg.Ws.Stopping

open LearnPg.Basis.Channel LearnPg.Basis.Runs Hub Steps

variable {κ β : Type}

def Stopped (s : State κ β) : Prop :=
  s.run = .stopping ∨ s.run = .closing ∨ s.run = .returned

def Full (ch : Chan Message) : Prop := ch.cap ≤ ch.queue.length

/-- Nobody is at a send that waits for `Run`. -/
structure NoneWaiting (s : State κ β) : Prop where
  serveWs : ∀ c, s.serveWs c ≠ .registering
  readPump : ∀ c, s.readPump c ≠ .unregistering
  writePump : ∀ c, s.writePump c ≠ .unregistering
  caller : Full s.broadcast → ∀ b m, s.caller b ≠ .broadcasting m

inductive Party (κ β : Type) where
  | serveWs (c : κ)
  | writePump (c : κ)
  | readPump (c : κ)
  | caller (b : β)

/-- Whose step a label is; the other steps are `Run`'s. -/
def party : Label κ β → Option (Party κ β)
  | .upgrade c _ | .register c => some (.serveWs c)
  | .unregisterWrite c | .receive c _ | .writeClose c _ | .ping c _ => some (.writePump c)
  | .unregisterRead c | .readMessage c _ | .readError c | .rlockRead c | .forward c _
  | .forwarded c => some (.readPump c)
  | .marshal b _ | .enqueue b | .callStop b | .stopReturns b => some (.caller b)
  | _ => none

/-- Started and not finished. -/
def Active (s : State κ β) : Party κ β → Prop
  | .serveWs c => s.serveWs c = .registering
  | .writePump c => s.writePump c ≠ .idle ∧ s.writePump c ≠ .finished
  | .readPump c => s.readPump c ≠ .idle ∧ s.readPump c ≠ .finished
  | .caller b => s.caller b ≠ .idle ∧ s.caller b ≠ .finished

/-- No goroutine is at a send without a receiver, and each still has a step to
take until it has finished. -/
def NoneStranded [DecidableEq κ] [DecidableEq β] (s : State κ β) : Prop :=
  NoneWaiting s ∧
    ∀ p, Active s p → ∃ l, party l = some p ∧ (hub κ β).Enabled s l

/-- The stop case is taken while nobody waits for `Run`. From then on no
connection is upgraded, no read or write of a connection fails, and `Broadcast`
finds room for its message and for those of the calls under way. -/
def Timely (s : State κ β) : Label κ β → Prop
  | .takeStop => NoneWaiting s
  | .upgrade _ ok => Stopped s → ok = false
  | .readError _ => ¬ Stopped s
  | .receive _ wrote | .ping _ wrote => Stopped s → wrote = true
  | .marshal _ data => Stopped s → data.isSome → ¬ Full s.broadcast
  | .enqueue b =>
    Stopped s → s.broadcast.cap ≤ s.broadcast.queue.length + 1 →
      ∀ b', b' ≠ b → ∀ m, s.caller b' ≠ .broadcasting m
  | _ => True

def Good (s : State κ β) : Prop := Stopped s → NoneWaiting s

variable {s t : State κ β} {l : Label κ β}

theorem good_of_running (h : ¬ Stopped s) : Good s := fun hs => absurd hs h

theorem not_stopped_select (h : s.run = .select) : ¬ Stopped s := by
  simp [Stopped, h]

theorem forall_update_ne {α γ : Type} [DecidableEq α] {f : α → γ} {a : α} {v w : γ}
    (hfrom : f a ≠ w) :
    (∀ x, Function.update f a v x ≠ w) ↔ (∀ x, f x ≠ w) ∧ v ≠ w := by
  rw [Function.forall_update_iff f (p := fun _ y => y ≠ w)]
  constructor
  · rintro ⟨hv, hrest⟩
    refine ⟨fun x => ?_, hv⟩
    by_cases hx : x = a
    · rw [hx]
      exact hfrom
    · exact hrest x hx
  · rintro ⟨hall, hv⟩
    exact ⟨hv, fun x _ => hall x⟩

theorem good_congr (hstopped : Stopped t ↔ Stopped s)
    (hwaiting : Stopped s → (NoneWaiting t ↔ NoneWaiting s)) : Good t ↔ Good s := by
  unfold Good
  rw [hstopped]
  exact forall_congr' hwaiting

theorem NoneWaiting.congr (hserve : t.serveWs = s.serveWs) (hread : t.readPump = s.readPump)
    (hwrite : t.writePump = s.writePump) (hcaller : t.caller = s.caller)
    (hbroadcast : t.broadcast = s.broadcast) : NoneWaiting t ↔ NoneWaiting s := by
  constructor
  · rintro ⟨hs, hr, hw, hc⟩
    exact ⟨hserve ▸ hs, hread ▸ hr, hwrite ▸ hw, hbroadcast ▸ hcaller ▸ hc⟩
  · rintro ⟨hs, hr, hw, hc⟩
    exact ⟨hserve ▸ hs, hread ▸ hr, hwrite ▸ hw, hbroadcast ▸ hcaller ▸ hc⟩

theorem good_frame (hrun : t.run = s.run) (hserve : t.serveWs = s.serveWs)
    (hread : t.readPump = s.readPump) (hwrite : t.writePump = s.writePump)
    (hcaller : t.caller = s.caller) (hbroadcast : t.broadcast = s.broadcast) :
    Good t ↔ Good s :=
  good_congr (by simp [Stopped, hrun])
    fun _ => NoneWaiting.congr hserve hread hwrite hcaller hbroadcast

theorem noneWaiting_setRun (pc : RunPc κ) : NoneWaiting (s.setRun pc) ↔ NoneWaiting s :=
  NoneWaiting.congr rfl rfl rfl rfl rfl

theorem good_takeStop (hrun : s.run = .select) :
    Good (s.setRun .stopping) ↔ Good s ∧ NoneWaiting s := by
  rw [and_iff_right (good_of_running (not_stopped_select hrun))]
  constructor
  · intro h
    exact (noneWaiting_setRun .stopping).mp (h (.inl rfl))
  · intro h _
    exact (noneWaiting_setRun .stopping).mpr h

theorem good_stopped (hs : Stopped s) (ht : Stopped t)
    (hwaiting : NoneWaiting t ↔ NoneWaiting s) : Good t ↔ Good s ∧ True :=
  (good_congr (iff_of_true ht hs) fun _ => hwaiting).trans (and_iff_left trivial).symm

theorem good_running (hs : ¬ Stopped s) (ht : ¬ Stopped t) : Good t ↔ Good s ∧ True :=
  iff_of_true (good_of_running ht) ⟨good_of_running hs, trivial⟩

theorem good_kept (h : Good t ↔ Good s) : Good t ↔ Good s ∧ True :=
  h.trans (and_iff_left trivial).symm

section Callers

variable [DecidableEq β]

theorem noneWaiting_setCaller {b : β} {pc : CallerPc}
    (hfrom : ∀ m, s.caller b ≠ .broadcasting m) :
    NoneWaiting (s.setCaller b pc) ↔
      NoneWaiting s ∧ (Full s.broadcast → ∀ m, pc ≠ .broadcasting m) := by
  constructor
  · rintro ⟨hs, hr, hw, hc⟩
    have hall := fun hfull m => (forall_update_ne (hfrom m)).mp fun b' => hc hfull b' m
    exact ⟨⟨hs, hr, hw, fun hfull b' m => (hall hfull m).1 b'⟩, fun hfull m => (hall hfull m).2⟩
  · rintro ⟨⟨hs, hr, hw, hc⟩, hpc⟩
    have hall := fun hfull m => (forall_update_ne (hfrom m)).mpr
      ⟨fun b' => hc hfull b' m, hpc hfull m⟩
    exact ⟨hs, hr, hw, fun hfull b' m => hall hfull m b'⟩

theorem good_setCaller {b : β} {pc : CallerPc} (hfrom : ∀ m, s.caller b ≠ .broadcasting m)
    (hto : ∀ m, pc ≠ .broadcasting m) : Good (s.setCaller b pc) ↔ Good s :=
  good_congr Iff.rfl fun _ =>
    (noneWaiting_setCaller hfrom).trans (and_iff_left fun _ => hto)

theorem noneWaiting_enqueue {b : β} {data : Message} {ch : Chan Message}
    (hsent : s.broadcast.offer data = .sent ch) :
    NoneWaiting ({ s with broadcast := ch }.setCaller b .finished) ↔
      NoneWaiting s ∧ (s.broadcast.cap ≤ s.broadcast.queue.length + 1 →
        ∀ b', b' ≠ b → ∀ m, s.caller b' ≠ .broadcasting m) := by
  obtain ⟨hlt, rfl⟩ := offer_sent hsent
  have hroom : ¬ Full s.broadcast := Nat.not_le.mpr hlt
  have hfull : s.broadcast.cap ≤ s.broadcast.queue.length + 1 ↔
      Full { s.broadcast with queue := s.broadcast.queue ++ [data] } := by simp [Full]
  rw [hfull]
  constructor
  · rintro ⟨hs, hr, hw, hc⟩
    refine ⟨⟨hs, hr, hw, fun h => absurd h hroom⟩, fun h b' hb' m => ?_⟩
    have hm := hc h b' m
    change Function.update s.caller b .finished b' ≠ _ at hm
    rwa [Function.update_of_ne hb'] at hm
  · rintro ⟨⟨hs, hr, hw, -⟩, hc⟩
    refine ⟨hs, hr, hw, fun h b' m => ?_⟩
    change Function.update s.caller b .finished b' ≠ _
    by_cases hb' : b' = b
    · subst hb'
      simp
    · rw [Function.update_of_ne hb']
      exact hc h b' hb' m

end Callers

/-- `done` is closed only by the return of `Run`, `h.broadcast` never. -/
structure Live (s : State κ β) : Prop where
  done_run : s.done = true → s.run = .returned
  broadcast_open : s.broadcast.closed = false

theorem live_newHub : Live (newHub : State κ β) := ⟨by simp [newHub], rfl⟩

theorem Live.frame (h : Live s) (hdone : t.done = s.done) (hrun : t.run = s.run)
    (hbroadcast : t.broadcast = s.broadcast) : Live t where
  done_run := by rw [hdone, hrun]; exact h.done_run
  broadcast_open := by rw [hbroadcast]; exact h.broadcast_open

theorem Live.going (h : Live s) {pc : RunPc κ} (hrun : s.run = pc) (hpc : pc ≠ .returned)
    (hdone : t.done = s.done) (hbroadcast : t.broadcast.closed = s.broadcast.closed) :
    Live t where
  done_run := by
    rw [hdone]
    intro hd
    rw [h.done_run hd] at hrun
    exact absurd hrun.symm hpc
  broadcast_open := by rw [hbroadcast]; exact h.broadcast_open

variable [DecidableEq κ]

@[simp] theorem drop_run (c : κ) : (s.drop c).run = s.run := by
  unfold State.drop
  split <;> rfl

@[simp] theorem drop_done (c : κ) : (s.drop c).done = s.done := by
  unfold State.drop
  split <;> rfl

@[simp] theorem drop_broadcast (c : κ) : (s.drop c).broadcast = s.broadcast := by
  unfold State.drop
  split <;> rfl

theorem noneWaiting_drop (c : κ) : NoneWaiting (s.drop c) ↔ NoneWaiting s := by
  unfold State.drop
  split <;> exact NoneWaiting.congr rfl rfl rfl rfl rfl

theorem noneWaiting_setReadPump {c : κ} {pc : ReadPumpPc κ}
    (hfrom : s.readPump c ≠ .unregistering) :
    NoneWaiting (s.setReadPump c pc) ↔ NoneWaiting s ∧ pc ≠ .unregistering := by
  constructor
  · rintro ⟨hs, hr, hw, hc⟩
    obtain ⟨hr, hpc⟩ := (forall_update_ne hfrom).mp hr
    exact ⟨⟨hs, hr, hw, hc⟩, hpc⟩
  · rintro ⟨⟨hs, hr, hw, hc⟩, hpc⟩
    exact ⟨hs, (forall_update_ne hfrom).mpr ⟨hr, hpc⟩, hw, hc⟩

theorem noneWaiting_setWritePump {c : κ} {pc : WritePumpPc}
    (hfrom : s.writePump c ≠ .unregistering) :
    NoneWaiting (s.setWritePump c pc) ↔ NoneWaiting s ∧ pc ≠ .unregistering := by
  constructor
  · rintro ⟨hs, hr, hw, hc⟩
    obtain ⟨hw, hpc⟩ := (forall_update_ne hfrom).mp hw
    exact ⟨⟨hs, hr, hw, hc⟩, hpc⟩
  · rintro ⟨⟨hs, hr, hw, hc⟩, hpc⟩
    exact ⟨hs, hr, (forall_update_ne hfrom).mpr ⟨hw, hpc⟩, hc⟩

theorem good_upgrade {c : κ} {ok : Bool} (hfrom : s.serveWs c = .idle) :
    Good { s with
      serveWs := Function.update s.serveWs c (if ok then .registering else .refused) } ↔
      Good s ∧ (Stopped s → ok = false) := by
  have hfrom : s.serveWs c ≠ .registering := by simp [hfrom]
  have hok : (if ok then ServeWsPc.registering else .refused) ≠ .registering ↔ ok = false := by
    cases ok <;> simp
  have hwaiting : NoneWaiting { s with
      serveWs := Function.update s.serveWs c (if ok then .registering else .refused) } ↔
      NoneWaiting s ∧ ok = false := by
    constructor
    · rintro ⟨hs, hr, hw, hc⟩
      obtain ⟨hs, hpc⟩ := (forall_update_ne hfrom).mp hs
      exact ⟨⟨hs, hr, hw, hc⟩, hok.mp hpc⟩
    · rintro ⟨⟨hs, hr, hw, hc⟩, hpc⟩
      exact ⟨(forall_update_ne hfrom).mpr ⟨hs, hok.mpr hpc⟩, hr, hw, hc⟩
  unfold Good
  rw [hwaiting]
  exact imp_and

theorem good_setReadPump {c : κ} {pc : ReadPumpPc κ} (hfrom : s.readPump c ≠ .unregistering)
    (hto : pc ≠ .unregistering) : Good (s.setReadPump c pc) ↔ Good s :=
  good_congr Iff.rfl fun _ => (noneWaiting_setReadPump hfrom).trans (and_iff_left hto)

theorem good_readError {c : κ} (hfrom : s.readPump c = .reading) :
    Good (s.setReadPump c .unregistering) ↔ Good s ∧ ¬ Stopped s := by
  have hfrom : s.readPump c ≠ .unregistering := by simp [hfrom]
  constructor
  · intro h
    have hs : ¬ Stopped s := fun hs => ((noneWaiting_setReadPump hfrom).mp (h hs)).2 rfl
    exact ⟨good_of_running hs, hs⟩
  · rintro ⟨-, hs⟩
    exact good_of_running hs

theorem good_setWritePump {c : κ} (pc : WritePumpPc) (wrote : Bool)
    (hfrom : s.writePump c ≠ .unregistering) (hpc : pc ≠ .unregistering ↔ wrote = true) :
    Good (s.setWritePump c pc) ↔ Good s ∧ (Stopped s → wrote = true) := by
  have hwaiting : NoneWaiting (s.setWritePump c pc) ↔ NoneWaiting s ∧ wrote = true :=
    (noneWaiting_setWritePump hfrom).trans (and_congr_right' hpc)
  unfold Good
  rw [hwaiting]
  exact imp_and

theorem good_write {c : κ} {frame : Frame} : Good (s.write c frame) ↔ Good s :=
  good_frame rfl rfl rfl rfl rfl rfl

theorem good_setSend {c : κ} {ch : Chan Message} : Good (s.setSend c ch) ↔ Good s :=
  good_frame rfl rfl rfl rfl rfl rfl

theorem good_received {c : κ} {m : Option Message} {ch : Chan Message}
    (hfrom : s.writePump c = .select) :
    Good (((s.setSend c ch).write c (.text (m.getD []))).setWritePump c
      (if m.isSome then .select else .closing)) ↔ Good s ∧ (Stopped s → true = true) := by
  have hfrom : s.writePump c ≠ .unregistering := by simp [hfrom]
  have hmoved := good_setWritePump (s := (s.setSend c ch).write c (.text (m.getD [])))
    (if m.isSome then .select else .closing) true hfrom (by cases m <;> simp)
  rw [hmoved, good_write, good_setSend]
  exact Iff.rfl

variable [DecidableEq β]

theorem good_step (hstep : Step s l t) : Good t ↔ Good s ∧ Timely s l := by
  cases hstep with
  | upgrade hserve => exact good_upgrade hserve
  | register hrun | unregisterRead hrun | unregisterWrite hrun | takeBroadcast hrun | add hrun
  | remove hrun | removeNone hrun | evict hrun | share hrun | resume hrun | offerSent hrun
  | offerFull hrun | offerPanic hrun | ranged hrun =>
    refine good_running ?_ ?_ <;>
      simp [Stopped, State.setRun, State.setSend, State.setReadPump, State.setWritePump, hrun]
  | takeStop hrun => exact good_takeStop hrun
  | lockStop hrun =>
    exact good_stopped (.inl hrun) (.inr (.inl rfl)) (noneWaiting_setRun .closing)
  | @closeClient c hrun =>
    exact good_stopped (.inr (.inl hrun)) (.inr (.inl (by rw [drop_run, hrun])))
      (noneWaiting_drop c)
  | unlockReturn hrun =>
    exact good_stopped (.inr (.inl hrun)) (.inr (.inr rfl)) (NoneWaiting.congr rfl rfl rfl rfl rfl)
  | readMessage hread => exact good_kept (good_setReadPump (by simp [hread]) (by simp))
  | readError hread => exact good_readError hread
  | @rlockRead c m hread =>
    have hlocked : Good { s with readers := insert c s.readers } ↔ Good s :=
      good_frame rfl rfl rfl rfl rfl rfl
    exact good_kept ((good_setReadPump (by simp [hread]) (by simp)).trans hlocked)
  | forwardSent hread =>
    exact good_kept (good_setSend.trans (good_setReadPump (by simp [hread]) (by simp)))
  | forwardPast hread => exact good_kept (good_setReadPump (by simp [hread]) (by simp))
  | forwardPanic => exact good_kept (good_frame rfl rfl rfl rfl rfl rfl)
  | @forwarded c m hread =>
    have hunlocked : Good { s with readers := s.readers.erase c } ↔ Good s :=
      good_frame rfl rfl rfl rfl rfl rfl
    exact good_kept ((good_setReadPump (by simp [hread]) (by simp)).trans hunlocked)
  | received hwrite => exact good_received hwrite
  | @receiveFailed c m ch hwrite =>
    have hfrom : s.writePump c ≠ .unregistering := by simp [hwrite]
    have hfailed := good_setWritePump (s := s.setSend c ch) .unregistering false hfrom (by simp)
    rw [hfailed, good_setSend]
    exact Iff.rfl
  | @writeClose c wrote hwrite =>
    have hfrom : (if wrote then s.write c .close else s).writePump c ≠ .unregistering := by
      split <;> simp [State.write, hwrite]
    have hwritten : Good (if wrote then s.write c .close else s) ↔ Good s := by
      split
      · exact good_write
      · exact Iff.rfl
    rw [good_setWritePump .finished true hfrom (by simp), hwritten]
    simp [Timely]
  | ping => rw [good_write]; simp [Timely]
  | pingFailed hwrite => exact good_setWritePump .unregistering false (by simp [hwrite]) (by simp)
  | @marshal b data hcaller =>
    have hdata : (∀ m, data.elim CallerPc.finished .broadcasting ≠ .broadcasting m) ↔
        ¬ data.isSome := by
      cases data <;> simp
    unfold Good
    rw [noneWaiting_setCaller (by simp [hcaller]), hdata]
    exact imp_and.trans (and_congr_right' (forall_congr' fun _ => imp_not_comm))
  | enqueue hcaller hoffer =>
    unfold Good
    rw [noneWaiting_enqueue hoffer]
    exact imp_and
  | callStop hcaller =>
    have hclosed : Good { s with stop := true } ↔ Good s := good_frame rfl rfl rfl rfl rfl rfl
    exact good_kept ((good_setCaller (by simp [hcaller]) (by simp)).trans hclosed)
  | stopReturns hcaller => exact good_kept (good_setCaller (by simp [hcaller]) (by simp))

theorem run_good_iff {ls : List (Label κ β)} {s : State κ β}
    (hrun : (hub κ β).run ls = some s) : Good s ↔ (hub κ β).Meets Timely newHub ls :=
  run_monitored (fun _ _ _ _ _ => trivial) (fun _ _ _ _ hstep => good_step (step_cases hstep))
    trivial (good_of_running (not_stopped_select rfl)) hrun

theorem Live.step (h : Live s) (hstep : Step s l t) : Live t := by
  cases hstep with
  | register hrun | unregisterRead hrun | unregisterWrite hrun | takeStop hrun | add hrun
  | removeNone hrun | lockStop hrun | share hrun | resume hrun | offerSent hrun | offerFull hrun
  | offerPanic hrun | ranged hrun => exact h.going hrun (by simp) rfl rfl
  | takeBroadcast hrun hreceive => exact h.going hrun (by simp) rfl (receive_closed hreceive)
  | remove hrun | evict hrun => exact h.going hrun (by simp) (drop_done _) (by simp [State.setRun])
  | closeClient hrun => exact h.going hrun (by simp) (drop_done _) (by simp)
  | unlockReturn => exact ⟨fun _ => rfl, h.broadcast_open⟩
  | enqueue _ hoffer =>
    obtain ⟨-, rfl⟩ := offer_sent hoffer
    exact ⟨h.done_run, h.broadcast_open⟩
  | @writeClose c wrote => cases wrote <;> exact h.frame rfl rfl rfl
  | _ => exact h.frame rfl rfl rfl

theorem run_live {ls : List (Label κ β)} {s : State κ β} (hrun : (hub κ β).run ls = some s) :
    Live s :=
  run_keeps live_newHub (fun _ _ _ h hstep => h.step (step_cases hstep)) hrun

/-- With `Run` gone, whoever does not wait for it has a step to take. -/
theorem active_enabled (hpanic : s.panic = none) (hlive : Live s) (hdone : s.done = true)
    (h : NoneWaiting s) (p : Party κ β) (hp : Active s p) :
    ∃ l, party l = some p ∧ (hub κ β).Enabled s l := by
  have hrun : s.run = .returned := hlive.done_run hdone
  cases p with
  | serveWs c => exact absurd hp (h.serveWs c)
  | writePump c =>
    cases hpc : s.writePump c with
    | select =>
      exact ⟨.ping c true, rfl, by simp [Machine.Enabled, hub, step, hpanic, writePumpStep, hpc]⟩
    | closing =>
      exact ⟨.writeClose c true, rfl,
        by simp [Machine.Enabled, hub, step, hpanic, writePumpStep, hpc]⟩
    | unregistering => exact absurd hpc (h.writePump c)
    | idle => exact absurd hpc hp.1
    | finished => exact absurd hpc hp.2
  | readPump c =>
    cases hpc : s.readPump c with
    | reading =>
      exact ⟨.readError c, rfl, by simp [Machine.Enabled, hub, step, hpanic, readPumpStep, hpc]⟩
    | received m =>
      exact ⟨.rlockRead c, rfl,
        by simp [Machine.Enabled, hub, step, hpanic, readPumpStep, hpc, hrun]⟩
    | forwarding m todo =>
      rcases todo.eq_empty_or_nonempty with hempty | ⟨d, hd⟩
      · exact ⟨.forwarded c, rfl,
          by simp [Machine.Enabled, hub, step, hpanic, readPumpStep, hpc, hempty]⟩
      · refine ⟨.forward c d, rfl, ?_⟩
        by_cases hdc : d = c
        · subst hdc
          simp [Machine.Enabled, hub, step, hpanic, readPumpStep, hpc, hd]
        · cases hoffer : (s.send d).offer m <;>
            simp [Machine.Enabled, hub, step, hpanic, readPumpStep, hpc, hd, hdc, hoffer]
    | unregistering => exact absurd hpc (h.readPump c)
    | idle => exact absurd hpc hp.1
    | finished => exact absurd hpc hp.2
  | caller b =>
    cases hpc : s.caller b with
    | broadcasting data =>
      have hroom : ¬ Full s.broadcast := fun hfull => h.caller hfull b data hpc
      cases hoffer : s.broadcast.offer data with
      | sent ch =>
        exact ⟨.enqueue b, rfl,
          by simp [Machine.Enabled, hub, step, hpanic, callerStep, hpc, hoffer]⟩
      | full => exact absurd (offer_full hoffer) hroom
      | panicked =>
        have hclosed := offer_panicked hoffer
        rw [hlive.broadcast_open] at hclosed
        cases hclosed
    | stopping =>
      exact ⟨.stopReturns b, rfl,
        by simp [Machine.Enabled, hub, step, hpanic, callerStep, hpc, hdone]⟩
    | idle => exact absurd hpc hp.1
    | finished => exact absurd hpc hp.2

/-- At the end of a run in which `Run` has returned nobody is stranded exactly
when every step of the run was timely. -/
theorem noneStranded_iff {ls : List (Label κ β)} {s : State κ β}
    (hrun : (hub κ β).run ls = some s) (hdone : s.done = true) :
    NoneStranded s ↔ (hub κ β).Meets Timely newHub ls := by
  have hlive := run_live hrun
  have hstopped : Stopped s := .inr (.inr (hlive.done_run hdone))
  have hpanic := (Closing.run_inv hrun).running
  rw [← run_good_iff hrun]
  constructor
  · intro h _
    exact h.1
  · intro h
    exact ⟨h hstopped, active_enabled hpanic hlive hdone (h hstopped)⟩

def stopIdle : List (Label Unit Unit) :=
  [.upgrade () true, .register (), .lock, .readError (), .unregisterRead (), .lock,
    .receive () true, .writeClose () true, .callStop (), .takeStop, .lock, .unlockReturn,
    .stopReturns ()]

theorem noneStranded_stopIdle :
    ∃ s, (hub Unit Unit).run stopIdle = some s ∧ s.done = true ∧
      (NoneStranded s ↔ (hub Unit Unit).Meets Timely newHub stopIdle) := by
  have hreturned : ((hub Unit Unit).run stopIdle).map (·.done) = some true := by decide
  obtain ⟨s, hrun, hdone⟩ := Option.map_eq_some_iff.mp hreturned
  exact ⟨s, hrun, hdone, noneStranded_iff hrun hdone⟩

/-- A client is connected as the hub stops: its channel is closed and `Run`
returns, then reading its connection fails. -/
def stopConnected : List (Label Unit Unit) :=
  [.upgrade () true, .register (), .lock, .callStop (), .takeStop, .lock, .closeClient (),
    .unlockReturn, .stopReturns (), .readError ()]

theorem stopConnected_stranded :
    ¬ ∀ (ls : List (Label Unit Unit)) (s : State Unit Unit),
      (hub Unit Unit).run ls = some s → s.done = true → NoneStranded s := by
  intro h
  have hreturned : ((hub Unit Unit).run stopConnected).map (fun s => (s.done, s.readPump ())) =
      some (true, .unregistering) := by decide
  obtain ⟨s, hrun, hpair⟩ := Option.map_eq_some_iff.mp hreturned
  obtain ⟨hdone, hread⟩ := Prod.mk.inj hpair
  exact (h stopConnected s hrun hdone).1.readPump () hread

end LearnPg.Ws.Stopping
