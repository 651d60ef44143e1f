import LearnPg.Ws.Writer

/-! Where the copies of a message are that a read pump hands round: still due to a client, in
its channel, or written to it. Each step moves one message for one client, or loses it. -/
namespace LearnPg.Ws.Copies

open LearnPg.Basis.Channel Hub Steps Stopping Fanout Writer

variable {κ β : Type} [DecidableEq κ]

/-- What has been written to the client and what waits in its channel. -/
def onWay (b : κ) (s : State κ β) : List Message := texts (s.wire b) ++ (s.send b).queue

def due (a b : κ) (s : State κ β) : List Message :=
  match s.readPump a with
  | .forwarding m todo => if b ∈ todo then [m] else []
  | _ => []

def holding (c : κ) (s : State κ β) : List Message :=
  match s.readPump c with
  | .received m => [m]
  | _ => []

def Shares : RunPc κ → Prop
  | .sharing _ | .ranging _ _ | .evicting _ _ _ | .resuming _ _ => True
  | _ => False

/-- Nobody has called `Broadcast`. -/
structure Quiet (s : State κ β) : Prop where
  queue : s.broadcast.queue = []
  run : ¬ Shares s.run
  caller : ∀ b data, s.caller b ≠ .broadcasting data

/-- What a step can do to the messages for `b`. -/
inductive Moves (b : κ) (s : State κ β) (l : Label κ β) (t : State κ β) : Prop where
  | rests (way : onWay b t = onWay b s) (hands : ∀ a, due a b t = due a b s)
  /-- A write to the client fails. -/
  | loses (label : l = .receive b false) (way : (onWay b t).Sublist (onWay b s))
      (hands : ∀ a, due a b t = due a b s)
  /-- The nil message of the closed channel is written. -/
  | ends (writing : s.writePump b = .select) (closed : (s.send b).closed = true)
      (way : onWay b t = onWay b s ++ [[]]) (hands : ∀ a, due a b t = due a b s)
  | begins (a : κ) (m : Message) (label : l = .rlockRead a) (received : s.readPump a = .received m)
      (member : b ∈ s.clients) (way : onWay b t = onWay b s) (hand : due a b t = [m])
      (hands : ∀ c, c ≠ a → due c b t = due c b s)
  | puts (a : κ) (m : Message) (way : onWay b t = onWay b s ++ [m]) (before : due a b s = [m])
      (hand : due a b t = []) (hands : ∀ c, c ≠ a → due c b t = due c b s)
  | skips (a : κ)
      (why : l = .rlockRead a ∧ b ∉ s.clients ∨ l = .forward a b ∧ (b = a ∨ Full (s.send b)))
      (way : onWay b t = onWay b s) (hand : due a b t = [])
      (hands : ∀ c, c ≠ a → due c b t = due c b s)

/-- What a step can do to the message that the read pump of `c` holds. -/
inductive Reads (c : κ) (s : State κ β) (l : Label κ β) (t : State κ β) : Prop where
  | rests (held : holding c t = holding c s) (other : reader l ≠ some c ∨ holding c s = [])
      (unread : ∀ m, l ≠ .readMessage c m)
  | reads (m : Message) (label : l = .readMessage c m) (before : holding c s = [])
      (after : holding c t = [m])
  | hands (m : Message) (label : l = .rlockRead c) (before : s.readPump c = .received m)
      (after : holding c t = [])

section

variable {a b c : κ} {s t : State κ β} {l : Label κ β}

theorem due_congr (h : t.readPump a = s.readPump a) : due a b t = due a b s := by
  unfold due
  rw [h]

omit [DecidableEq κ] in
theorem holding_congr (h : t.readPump c = s.readPump c) : holding c t = holding c s := by
  unfold holding
  rw [h]

omit [DecidableEq κ] in
theorem onWay_congr (hwire : texts (t.wire b) = texts (s.wire b))
    (hqueue : (t.send b).queue = (s.send b).queue) : onWay b t = onWay b s := by
  unfold onWay
  rw [hwire, hqueue]

theorem due_updated {pc : ReadPumpPc κ} (hread : t.readPump = Function.update s.readPump c pc)
    (hac : a ≠ c) : due a b t = due a b s :=
  due_congr (by rw [hread, Function.update_of_ne hac])

theorem Moves.frame (hread : t.readPump = s.readPump) (hwire : texts (t.wire b) = texts (s.wire b))
    (hqueue : (t.send b).queue = (s.send b).queue) : Moves b s l t :=
  .rests (onWay_congr hwire hqueue) fun a => due_congr (by rw [hread])

theorem Moves.idle {pc : ReadPumpPc κ} (hread : t.readPump = Function.update s.readPump c pc)
    (hfrom : due c b s = []) (hpc : ∀ m todo, pc ≠ .forwarding m todo)
    (hwire : t.wire = s.wire) (hsend : t.send = s.send) : Moves b s l t := by
  refine .rests (onWay_congr (by rw [hwire]) (by rw [hsend])) fun a => ?_
  by_cases hac : a = c
  · subst hac
    rw [hfrom]
    unfold due
    rw [hread, Function.update_self]
    cases pc with
    | forwarding m todo => exact absurd rfl (hpc m todo)
    | _ => rfl
  · exact due_updated hread hac

theorem Moves.pass {m : Message} {todo : Finset κ}
    (hread : t.readPump = Function.update s.readPump c (.forwarding m todo)) (hb : b ∉ todo)
    (hwhy : l = .rlockRead c ∧ b ∉ s.clients ∨ l = .forward c b ∧ (b = c ∨ Full (s.send b)))
    (hwire : t.wire = s.wire) (hsend : t.send = s.send) : Moves b s l t := by
  refine .skips c hwhy (onWay_congr (by rw [hwire]) (by rw [hsend])) ?_ fun a hac =>
    due_updated hread hac
  unfold due
  rw [hread, Function.update_self]
  exact if_neg hb

theorem Moves.elsewhere {d : κ} {m : Message} {todo : Finset κ}
    (hfrom : s.readPump c = .forwarding m todo) (hdb : d ≠ b)
    (hread : t.readPump = Function.update s.readPump c (.forwarding m (todo.erase d)))
    (hwire : t.wire = s.wire) (hqueue : (t.send b).queue = (s.send b).queue) :
    Moves b s l t := by
  apply Moves.rests (onWay_congr (by rw [hwire]) hqueue)
  intro a
  by_cases hac : a = c
  · subst hac
    simp [due, hread, hfrom, Ne.symm hdb]
  · exact due_updated hread hac

omit [DecidableEq κ] in
theorem onWay_some {m : Message} {rest : List Message} (hqueue : (s.send b).queue = m :: rest)
    (hwire : t.wire b = s.wire b ++ [.text m]) (hrest : (t.send b).queue = rest) :
    onWay b t = onWay b s := by
  unfold onWay
  rw [hwire, hrest, hqueue, texts_append, List.append_assoc]
  rfl

variable [DecidableEq β]

theorem moves_step (hquiet : ¬ Shares s.run) (hstarted : ∀ c, Started c s) (hstep : Step s l t) :
    Moves b s l t := by
  have hnone {c : κ} {pc : ReadPumpPc κ} (hread : s.readPump c = pc)
      (hpc : ∀ m todo, pc = .forwarding m todo → b ∉ todo) : due c b s = [] := by
    unfold due
    rw [hread]
    cases pc with
    | forwarding m todo => exact if_neg (hpc m todo rfl)
    | _ => rfl
  cases hstep with
  | register _ hserve =>
    refine .idle rfl (@hnone _ .idle ?_ (by simp)) (by simp) rfl rfl
    by_contra hne
    simp [(hstarted _).readPump hne] at hserve
  | unregisterRead _ hread | readMessage hread | readError hread =>
    exact .idle rfl (hnone hread (by simp)) (by simp) rfl rfl
  | forwarded hread => exact .idle rfl (hnone hread (by simp)) (by simp) rfl rfl
  | @remove c | @evict _ _ c | @closeClient c =>
    have hwire := fun s : State κ β => congrArg (fun wire => texts (wire b)) (drop_frame s c).2.2.2
    exact .frame (drop_frame _ c).1 (hwire _) (drop_queue _ b c).1
  | offerSent hrun =>
    rw [hrun] at hquiet
    exact absurd trivial hquiet
  | @rlockRead c m hread =>
    by_cases hb : b ∈ s.clients
    · refine .begins c m rfl hread hb rfl ?_ fun a hac => due_updated rfl hac
      simp [due, State.setReadPump, hb]
    · exact .pass (c := c) rfl hb (.inl ⟨rfl, hb⟩) rfl rfl
  | @forwardSent c d m todo ch hread hd hoffer =>
    obtain ⟨-, rfl⟩ := offer_sent hoffer
    by_cases hdb : d = b
    · subst hdb
      refine .puts c m ?_ ?_ ?_ fun a hac => due_updated rfl hac
      · simp [onWay, State.setSend, State.setReadPump]
      · simp [due, hread, hd]
      · simp [due, State.setSend, State.setReadPump]
    · refine .elsewhere hread hdb rfl rfl ?_
      simp [State.setSend, State.setReadPump, Ne.symm hdb]
  | @forwardPast c d m todo hread hd hpast =>
    by_cases hdb : d = b
    · subst hdb
      exact .pass (c := c) rfl (Finset.notMem_erase _ _)
        (.inr ⟨rfl, hpast.imp_right fun hoffer => offer_full hoffer⟩) rfl rfl
    · exact .elsewhere hread hdb rfl rfl rfl
  | @received c m ch hwrite hreceive =>
    by_cases hcb : c = b
    · subst hcb
      cases m with
      | some m =>
        obtain ⟨rest, hqueue, rfl⟩ := receive_some hreceive
        refine .rests ?_ fun a => due_congr rfl
        rw [onWay_some hqueue (by simp [State.setWritePump, State.write, State.setSend])
          (by simp [State.setWritePump, State.write, State.setSend])]
      | none =>
        obtain ⟨hqueue, hclosed, rfl⟩ := receive_none hreceive
        refine .ends hwrite hclosed ?_ fun a => due_congr rfl
        simp [onWay, State.setWritePump, State.write, State.setSend, texts_append, hqueue]
        rfl
    · refine .frame rfl ?_ ?_
      · simp [State.setWritePump, State.write, State.setSend, Ne.symm hcb]
      · simp [State.setWritePump, State.write, State.setSend, Ne.symm hcb]
  | @receiveFailed c m ch hwrite hreceive =>
    by_cases hcb : c = b
    · subst hcb
      refine .loses rfl ?_ fun a => due_congr rfl
      cases m with
      | some m =>
        obtain ⟨rest, hqueue, rfl⟩ := receive_some hreceive
        simp [onWay, State.setWritePump, State.setSend, hqueue]
      | none =>
        obtain ⟨-, -, rfl⟩ := receive_none hreceive
        simp [onWay, State.setWritePump, State.setSend]
    · refine .frame rfl rfl ?_
      simp [State.setWritePump, State.setSend, Ne.symm hcb]
  | @writeClose c wrote =>
    cases wrote with
    | true =>
      refine .frame rfl ?_ rfl
      by_cases hcb : c = b
      · subst hcb
        simp [State.setWritePump, State.write, texts_append]
      · simp [State.setWritePump, State.write, Ne.symm hcb]
    | false => exact .frame rfl rfl rfl
  | @ping c =>
    refine .frame rfl ?_ rfl
    by_cases hcb : c = b
    · subst hcb
      simp [State.write, texts_append]
      rfl
    · simp [State.write, Ne.symm hcb]
  | _ => exact .frame rfl rfl rfl

theorem wire_step (hstep : Step s l t) : ∃ frames, t.wire b = s.wire b ++ frames := by
  cases hstep with
  | remove | evict | closeClient =>
    exact ⟨[], (congrFun (drop_frame _ _).2.2.2 b).trans (List.append_nil _).symm⟩
  | @received c m =>
    by_cases hcb : b = c
    · subst hcb
      exact ⟨[.text (m.getD [])], by simp [State.setWritePump, State.write, State.setSend]⟩
    · exact ⟨[], by simp [State.setWritePump, State.write, State.setSend, hcb]⟩
  | @ping c =>
    by_cases hcb : b = c
    · subst hcb
      exact ⟨[.ping], by simp [State.write]⟩
    · exact ⟨[], by simp [State.write, hcb]⟩
  | @writeClose c wrote =>
    by_cases hcb : b = c
    · subst hcb
      cases wrote with
      | true => exact ⟨[.close], by simp [State.setWritePump, State.write]⟩
      | false => exact ⟨[], by simp [State.setWritePump]⟩
    · exact ⟨[], by cases wrote <;> simp [State.setWritePump, State.write, hcb]⟩
  | _ => exact ⟨[], (List.append_nil _).symm⟩

theorem Quiet.step (h : Quiet s) (hstep : Step s l t) (hl : ∀ b data, l ≠ .marshal b (some data)) :
    Quiet t := by
  have hcaller {b : β} {pc : CallerPc} (hpc : ∀ data, pc ≠ .broadcasting data) (b' : β)
      (data : Message) : Function.update s.caller b pc b' ≠ .broadcasting data := by
    by_cases hb : b' = b
    · rw [hb, Function.update_self]
      exact hpc data
    · rw [Function.update_of_ne hb]
      exact h.caller b' data
  have hdrop {c : κ} {pc : RunPc κ} (hpc : ¬ Shares pc) : Quiet ((s.setRun pc).drop c) := by
    unfold State.drop
    split
    · exact ⟨h.queue, hpc, h.caller⟩
    · exact ⟨h.queue, hpc, h.caller⟩
  cases hstep with
  | takeBroadcast _ hreceive =>
    obtain ⟨rest, hqueue, -⟩ := receive_some hreceive
    rw [h.queue] at hqueue
    cases hqueue
  | share hrun | resume hrun | evict hrun | offerSent hrun | offerFull hrun | offerPanic hrun
  | ranged hrun =>
    have hshares := h.run
    rw [hrun] at hshares
    exact absurd trivial hshares
  | enqueue hpc => exact absurd hpc (h.caller _ _)
  | remove => exact hdrop (by simp [Shares])
  | closeClient hrun =>
    unfold State.drop
    split
    · exact ⟨h.queue, h.run, h.caller⟩
    · exact ⟨h.queue, h.run, h.caller⟩
  | @marshal b data =>
    cases data with
    | some data => exact absurd rfl (hl b data)
    | none => exact ⟨h.queue, h.run, hcaller (by simp)⟩
  | callStop | stopReturns => exact ⟨h.queue, h.run, hcaller (by simp)⟩
  | @writeClose c wrote => cases wrote <;> exact ⟨h.queue, h.run, h.caller⟩
  | register | unregisterRead | unregisterWrite | takeStop | add | removeNone | lockStop
  | unlockReturn => exact ⟨h.queue, by simp [Shares, State.setRun, State.setReadPump,
      State.setWritePump], h.caller⟩
  | _ => exact ⟨h.queue, h.run, h.caller⟩

theorem reads_step (hstarted : Started c s) (hstep : Step s l t) : Reads c s l t := by
  have hupdated {d : κ} {pc : ReadPumpPc κ} (hread : t.readPump = Function.update s.readPump d pc)
      (hdc : d ≠ c) : holding c t = holding c s :=
    holding_congr (by rw [hread, Function.update_of_ne hdc.symm])
  cases hstep with
  | remove | evict | closeClient =>
    refine .rests (holding_congr (congrFun (drop_frame _ _).1 c)) (.inl ?_) (by simp)
    simp [reader]
  | @register d _ hserve =>
    by_cases hdc : d = c
    · subst hdc
      have hidle : s.readPump d = .idle := by
        by_contra hne
        simp [hstarted.readPump hne] at hserve
      refine .rests ?_ (.inl (by simp [reader])) (by simp)
      simp [holding, hidle]
    · exact .rests (hupdated rfl hdc) (.inl (by simp [reader])) (by simp)
  | @unregisterRead d _ hread =>
    by_cases hdc : d = c
    · subst hdc
      refine .rests ?_ (.inl (by simp [reader])) (by simp)
      simp [holding, hread, State.setReadPump]
    · exact .rests (hupdated rfl hdc) (.inl (by simp [reader])) (by simp)
  | @readMessage d m hread =>
    by_cases hdc : d = c
    · subst hdc
      exact .reads m rfl (by simp [holding, hread]) (by simp [holding, State.setReadPump])
    · exact .rests (hupdated rfl hdc) (.inl (by simp [reader, hdc])) (by simp [hdc])
  | @rlockRead d m hread =>
    by_cases hdc : d = c
    · subst hdc
      exact .hands m rfl hread (by simp [holding, State.setReadPump])
    · exact .rests (hupdated rfl hdc) (.inl (by simp [reader, hdc])) (by simp)
  | @readError d hread | @forwarded d _ hread =>
    by_cases hdc : d = c
    · subst hdc
      have hnone : holding d s = [] := by
        simp [holding, hread]
      exact .rests (by simp [holding, hread, State.setReadPump]) (.inr hnone) (by simp)
    · exact .rests (hupdated rfl hdc) (.inl (by simp [reader, hdc])) (by simp)
  | @forwardSent d _ _ _ _ hread | @forwardPast d _ _ _ hread =>
    by_cases hdc : d = c
    · subst hdc
      have hnone : holding d s = [] := by
        simp [holding, hread]
      exact .rests (by simp [holding, hread, State.setReadPump, State.setSend]) (.inr hnone)
        (by simp)
    · exact .rests (hupdated rfl hdc) (.inl (by simp [reader, hdc])) (by simp)
  | @forwardPanic d _ _ _ hread =>
    by_cases hdc : d = c
    · subst hdc
      exact .rests rfl (.inr (by simp [holding, hread])) (by simp)
    · exact .rests rfl (.inl (by simp [reader, hdc])) (by simp)
  | @writeClose d wrote =>
    cases wrote <;> exact .rests rfl (.inl (by simp [reader])) (by simp)
  | _ => exact .rests rfl (.inl (by simp [reader])) (by simp)

end

end LearnPg.Ws.Copies
