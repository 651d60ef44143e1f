import LearnPg.Ws.Fanout

/-! What a client's write pump writes. It writes what it has received before it looks whether
the channel is closed, so that a closed channel gives one empty text frame more. -/
namespace LearnPg.Ws.Writer

open LearnPg.Basis.Channel LearnPg.Basis.Runs Hub Steps Fanout

variable {κ β : Type} [DecidableEq κ]

def texts (wire : List Frame) : List Message :=
  wire.filterMap fun
    | .text m => some m
    | _ => none

/-- Whose write pump takes the step, or is started by it. -/
def writer : Label κ β → Option κ
  | .register c | .unregisterWrite c | .receive c _ | .writeClose c _ | .ping c _ => some c
  | _ => none

def failedBy (c : κ) : Label κ β → Bool
  | .receive d wrote | .writeClose d wrote | .ping d wrote => d = c && !wrote
  | _ => false

def Failed (c : κ) (ls : List (Label κ β)) : Prop := ls.any (failedBy c) = true

def taken (c : κ) (s : State κ β) : Label κ β → List Message
  | .receive d _ => if d = c then (s.send c).queue.head?.toList else []
  | _ => []

section

variable [DecidableEq β]

def dequeued (c : κ) : List (Label κ β) → List Message :=
  (hub κ β).log fun _ s l _ => taken c s l

def placed (c : κ) : List (Label κ β) → List Message :=
  (hub κ β).log fun _ s _ t => gained c s t

def endsWithClose (wire : List Frame) : Prop :=
  ∃ before, wire = before ++ [.close] ∧ .close ∉ before

/-- The data frames are the messages that were dequeued, and after a close without a failure
all messages, before one close frame. -/
structure Faithful (c : κ) (ls : List (Label κ β)) (s : State κ β) : Prop where
  dequeued : texts (s.wire c) <+: dequeued c ls
  closed : (s.send c).closed = true → ¬ Failed c ls → s.writePump c = .finished →
    texts (s.wire c) = placed c ls ∧ endsWithClose (s.wire c)

/-- The step does not write what a receive from the closed and drained channel yields. -/
def Undrained (c : κ) (s : State κ β) (l : Label κ β) : Prop :=
  l = .receive c true → (s.send c).queue ≠ []

instance (c : κ) (s : State κ β) (l : Label κ β) [DecidableEq (Label κ β)] :
    Decidable (Undrained c s l) :=
  inferInstanceAs (Decidable (_ → _))

/-- A write pump that has not written the nil message. -/
structure Clean (c : κ) (ls : List (Label κ β)) (s : State κ β) : Prop where
  working : s.writePump c = .idle ∨ s.writePump c = .select →
    texts (s.wire c) = Writer.dequeued c ls
  open_end : s.writePump c ≠ .closing
  stopped : s.writePump c = .unregistering ∨ s.writePump c = .finished →
    Failed c ls ∧ texts (s.wire c) <+: Writer.dequeued c ls
  no_close : .close ∉ s.wire c

/-- One that has. -/
structure Spilled (c : κ) (ls : List (Label κ β)) (s : State κ β) : Prop where
  drained : (s.send c).queue = []
  closed : (s.send c).closed = true
  extra : texts (s.wire c) = Writer.dequeued c ls ++ [[]]
  ending : s.writePump c = .closing ∧ .close ∉ s.wire c ∨
    s.writePump c = .finished ∧ (Failed c ls ∨ endsWithClose (s.wire c))

end

section

variable [DecidableEq β] {c : κ} {ls : List (Label κ β)} {l : Label κ β} {s t : State κ β}

omit [DecidableEq β] in
theorem Failed.concat (h : Failed c ls) : Failed c (ls ++ [l]) := by
  unfold Failed at h ⊢
  rw [List.any_append, h, Bool.true_or]

theorem dequeued_concat (hrun : (hub κ β).run ls = some s) (hstep : step s l = some t) :
    dequeued c (ls ++ [l]) = dequeued c ls ++ taken c s l :=
  log_concat hrun hstep

theorem placed_concat (hrun : (hub κ β).run ls = some s) (hstep : step s l = some t) :
    placed c (ls ++ [l]) = placed c ls ++ gained c s t :=
  log_concat hrun hstep

theorem writer_other (hstep : Step s l t) (hwriter : writer l ≠ some c) :
    t.wire c = s.wire c ∧ t.writePump c = s.writePump c ∧ taken c s l = [] := by
  cases hstep with
  | @register d | @unregisterWrite d | @received d | @receiveFailed d | @ping d | @pingFailed d =>
    have hdc : c ≠ d := fun hdc => hwriter (congrArg some hdc.symm)
    simp [State.setWritePump, State.setSend, State.write, State.setRun, taken, hdc, hdc.symm]
  | @writeClose d wrote =>
    have hdc : c ≠ d := fun hdc => hwriter (congrArg some hdc.symm)
    cases wrote <;> simp [State.setWritePump, State.write, taken, hdc]
  | remove | evict | closeClient =>
    rw [(drop_frame _ _).2.1, (drop_frame _ _).2.2.2]
    exact ⟨rfl, rfl, rfl⟩
  | _ => exact ⟨rfl, rfl, rfl⟩

omit [DecidableEq β] in
theorem drop_queue (s : State κ β) (c d : κ) :
    ((s.drop d).send c).queue = (s.send c).queue ∧
      ((s.send c).closed = true → ((s.drop d).send c).closed = true) := by
  unfold State.drop
  split
  next ch hclose =>
    have hch : ch = { s.send d with closed := true } := by
      unfold Chan.close at hclose
      split at hclose <;> cases hclose
      rfl
    by_cases hdc : c = d
    · subst hdc
      simp [State.setSend, hch]
    · simp [State.setSend, hdc]
  next => exact ⟨rfl, id⟩

omit [DecidableEq κ] [DecidableEq β] in
theorem queue_same (h : (t.send c).queue = (s.send c).queue) :
    (s.send c).queue ++ gained c s t = (t.send c).queue := by
  simp [gained, h]

omit [DecidableEq β] in
theorem queue_sent {d : κ} {m : Message} {ch : Chan Message}
    (hoffer : (s.send d).offer m = .sent ch) (ht : t.send = Function.update s.send d ch) :
    (s.send c).queue ++ gained c s t = (t.send c).queue := by
  obtain ⟨-, rfl⟩ := offer_sent hoffer
  by_cases hdc : c = d
  · subst hdc
    simp [gained, ht]
  · apply queue_same
    rw [ht, Function.update_of_ne hdc]

omit [DecidableEq β] in
theorem queue_received {d : κ} {m : Option Message} {ch : Chan Message} {wrote : Bool}
    (hreceive : (s.send d).receive = some (m, ch)) (ht : t.send = Function.update s.send d ch) :
    (s.send c).queue ++ gained c s t =
      taken c s (.receive d wrote : Label κ β) ++ (t.send c).queue := by
  by_cases hdc : c = d
  · subst hdc
    cases m with
    | none =>
      obtain ⟨hqueue, -, rfl⟩ := receive_none hreceive
      simp [gained, taken, ht, hqueue]
    | some m =>
      obtain ⟨rest, hqueue, rfl⟩ := receive_some hreceive
      simp [gained, taken, ht, hqueue]
  · have hsame : (t.send c).queue = (s.send c).queue := by
      rw [ht, Function.update_of_ne hdc]
    rw [queue_same hsame]
    simp [taken, Ne.symm hdc]

/-- What a channel holds and is given is what is taken from it and what it holds then. -/
theorem queue_step (hstep : Step s l t) (c : κ) :
    (s.send c).queue ++ gained c s t = taken c s l ++ (t.send c).queue := by
  cases hstep with
  | remove | evict | closeClient => exact queue_same (drop_queue _ _ _).1
  | offerSent _ _ hoffer | forwardSent _ _ hoffer => exact queue_sent hoffer rfl
  | received _ hreceive | receiveFailed _ hreceive => exact queue_received hreceive rfl
  | @writeClose _ wrote => cases wrote <;> exact queue_same rfl
  | _ => exact queue_same rfl

theorem placed_run (c : κ) (hrun : (hub κ β).run ls = some s) :
    placed c ls = dequeued c ls ++ (s.send c).queue := by
  refine @run_history _ _ (hub κ β)
    (fun ls s => placed c ls = dequeued c ls ++ (s.send c).queue) rfl ?_ ls s hrun
  intro ls s l t hls h hstep
  rw [placed_concat hls hstep, dequeued_concat hls hstep, h, List.append_assoc, List.append_assoc,
    queue_step (step_cases hstep)]

theorem closed_step (hstep : Step s l t) (hqueue : (s.send c).queue = [])
    (hclosed : (s.send c).closed = true) :
    (t.send c).queue = [] ∧ (t.send c).closed = true := by
  cases hstep with
  | remove | evict | closeClient =>
    rw [(drop_queue _ _ _).1]
    exact ⟨hqueue, (drop_queue _ _ _).2 hclosed⟩
  | @offerSent _ _ d _ _ _ hoffer | @forwardSent _ d _ _ _ _ _ hoffer =>
    have hdc : c ≠ d := by
      rintro rfl
      rw [offer_open hoffer] at hclosed
      cases hclosed
    simp [State.setSend, State.setRun, State.setReadPump, hdc, hqueue, hclosed]
  | @received d m ch _ hreceive | @receiveFailed d m ch _ hreceive =>
    by_cases hdc : c = d
    · subst hdc
      unfold Chan.receive at hreceive
      rw [hqueue, if_pos hclosed] at hreceive
      cases hreceive
      simp [State.setSend, State.setWritePump, State.write, hqueue, hclosed]
    · simp [State.setSend, State.setWritePump, State.write, hdc, hqueue, hclosed]
  | @writeClose _ wrote => cases wrote <;> exact ⟨hqueue, hclosed⟩
  | _ => exact ⟨hqueue, hclosed⟩

omit [DecidableEq κ] [DecidableEq β] in
theorem texts_append (wire frames : List Frame) :
    texts (wire ++ frames) = texts wire ++ texts frames :=
  List.filterMap_append

@[simp] theorem texts_close : texts [.close] = [] := rfl

omit [DecidableEq β] in
theorem failed_concat (h : failedBy c l = true) : Failed c (ls ++ [l]) := by
  simp [Failed, h]

theorem Clean.other (h : Clean c ls s) (hrun : (hub κ β).run ls = some s)
    (hstep : step s l = some t) (hwire : t.wire c = s.wire c)
    (hpc : t.writePump c = s.writePump c) (htaken : taken c s l = []) : Clean c (ls ++ [l]) t := by
  have hlog : dequeued c (ls ++ [l]) = dequeued c ls := by
    rw [dequeued_concat hrun hstep, htaken, List.append_nil]
  constructor
  · rw [hpc, hwire, hlog]
    exact h.working
  · rw [hpc]
    exact h.open_end
  · rw [hpc, hwire, hlog]
    exact fun hstopped => (h.stopped hstopped).imp_left .concat
  · rw [hwire]
    exact h.no_close

theorem Clean.fail (h : Clean c ls s) (hrun : (hub κ β).run ls = some s)
    (hstep : step s l = some t) (hfrom : s.writePump c = .select) (hfailed : failedBy c l = true)
    (hwire : t.wire c = s.wire c) (hpc : t.writePump c = .unregistering) :
    Clean c (ls ++ [l]) t := by
  constructor
  · simp [hpc]
  · simp [hpc]
  · intro
    rw [hwire, dequeued_concat hrun hstep, h.working (.inr hfrom)]
    exact ⟨failed_concat hfailed, List.prefix_append _ _⟩
  · rw [hwire]
    exact h.no_close

theorem Clean.writes {frame : Frame} (h : Clean c ls s) (hrun : (hub κ β).run ls = some s)
    (hstep : step s l = some t) (hfrom : s.writePump c = .select)
    (hwire : t.wire c = s.wire c ++ [frame]) (hframe : frame ≠ .close)
    (htexts : texts [frame] = taken c s l) (hpc : t.writePump c = .select) :
    Clean c (ls ++ [l]) t := by
  constructor
  · intro
    rw [hwire, texts_append, h.working (.inr hfrom), dequeued_concat hrun hstep, htexts]
  · simp [hpc]
  · simp [hpc]
  · rw [hwire]
    simp [h.no_close, hframe.symm]

theorem Clean.spills (h : Clean c ls s) (hrun : (hub κ β).run ls = some s)
    (hstep : Hub.step s l = some t) (hfrom : s.writePump c = .select)
    (hqueue : (s.send c).queue = []) (hclosed : (s.send c).closed = true)
    (hwire : t.wire c = s.wire c ++ [.text []]) (htaken : taken c s l = [])
    (hpc : t.writePump c = .closing) : Spilled c (ls ++ [l]) t := by
  obtain ⟨hqueue', hclosed'⟩ := closed_step (step_cases hstep) hqueue hclosed
  refine ⟨hqueue', hclosed', ?_, .inl ⟨hpc, ?_⟩⟩
  · rw [hwire, texts_append, h.working (.inr hfrom), dequeued_concat hrun hstep, htaken,
      List.append_nil]
    rfl
  · rw [hwire]
    simp [h.no_close]

theorem Clean.step (hstarted : Started c s) (h : Clean c ls s) (hrun : (hub κ β).run ls = some s)
    (hstep : Hub.step s l = some t) :
    (Undrained c s l → Clean c (ls ++ [l]) t) ∧ (¬ Undrained c s l → Spilled c (ls ++ [l]) t) := by
  have hcases := step_cases hstep
  by_cases hwriter : writer l = some c
  · cases hcases with
    | @register d _ hserve =>
      cases hwriter
      have hidle : s.writePump c = .idle := by
        by_contra hne
        simp [hstarted.writePump hne] at hserve
      refine ⟨fun _ => ?_, fun hbad => absurd (by simp [Undrained]) hbad⟩
      constructor
      · intro
        rw [dequeued_concat hrun hstep, ← h.working (.inl hidle)]
        simp [taken]
      · simp
      · simp
      · exact h.no_close
    | @unregisterWrite d _ hwrite =>
      cases hwriter
      refine ⟨fun _ => ?_, fun hbad => absurd (by simp [Undrained]) hbad⟩
      obtain ⟨hfailed, htexts⟩ := h.stopped (.inl hwrite)
      constructor
      · simp [State.setWritePump]
      · simp [State.setWritePump]
      · intro
        rw [dequeued_concat hrun hstep]
        exact ⟨hfailed.concat, htexts.trans (List.prefix_append _ _)⟩
      · exact h.no_close
    | @received d m ch hwrite hreceive =>
      cases hwriter
      have hwire : (((s.setSend c ch).write c (.text (m.getD []))).setWritePump c
          (if m.isSome then .select else .closing)).wire c = s.wire c ++ [.text (m.getD [])] := by
        simp [State.setWritePump, State.write, State.setSend]
      have hpc : (((s.setSend c ch).write c (.text (m.getD []))).setWritePump c
          (if m.isSome then .select else .closing)).writePump c =
            if m.isSome then .select else .closing := by
        simp [State.setWritePump]
      cases m with
      | some m =>
        obtain ⟨rest, hqueue, -⟩ := receive_some hreceive
        refine ⟨fun _ => ?_, fun hbad => absurd (by simp [Undrained, hqueue]) hbad⟩
        refine h.writes hrun hstep hwrite hwire (by simp) ?_ hpc
        simp [taken, hqueue, texts]
      | none =>
        obtain ⟨hqueue, hclosed, -⟩ := receive_none hreceive
        refine ⟨fun hundrained => absurd hqueue (hundrained rfl), fun _ => ?_⟩
        refine h.spills hrun hstep hwrite hqueue hclosed hwire ?_ hpc
        simp [taken, hqueue]
    | @receiveFailed d m ch hwrite =>
      cases hwriter
      refine ⟨fun _ => ?_, fun hbad => absurd (by simp [Undrained]) hbad⟩
      exact h.fail hrun hstep hwrite (by simp [failedBy]) rfl (by simp [State.setWritePump])
    | @writeClose d wrote hwrite =>
      cases hwriter
      exact absurd hwrite h.open_end
    | @ping d hwrite =>
      cases hwriter
      refine ⟨fun _ => ?_, fun hbad => absurd (by simp [Undrained]) hbad⟩
      have hwire : (s.write c .ping).wire c = s.wire c ++ [.ping] := by
        simp [State.write]
      exact h.writes hrun hstep hwrite hwire (by simp) rfl hwrite
    | @pingFailed d hwrite =>
      cases hwriter
      refine ⟨fun _ => ?_, fun hbad => absurd (by simp [Undrained]) hbad⟩
      exact h.fail hrun hstep hwrite (by simp [failedBy]) rfl (by simp [State.setWritePump])
    | _ => cases hwriter
  · obtain ⟨hwire, hpc, htaken⟩ := writer_other hcases hwriter
    refine ⟨fun _ => h.other hrun hstep hwire hpc htaken, fun hbad => absurd (fun hl => ?_) hbad⟩
    rw [hl] at hwriter
    exact absurd rfl hwriter

theorem Spilled.step (hstarted : Started c s) (h : Spilled c ls s)
    (hrun : (hub κ β).run ls = some s) (hstep : Hub.step s l = some t) :
    Spilled c (ls ++ [l]) t := by
  have hcases := step_cases hstep
  obtain ⟨hqueue, hclosed⟩ := closed_step hcases h.drained h.closed
  have hselect : s.writePump c ≠ .idle ∧ s.writePump c ≠ .select ∧
      s.writePump c ≠ .unregistering := by
    rcases h.ending with ⟨hpc, -⟩ | ⟨hpc, -⟩ <;> simp [hpc]
  by_cases hwriter : writer l = some c
  · cases hcases with
    | @register d _ hserve =>
      cases hwriter
      simp [hstarted.writePump hselect.1] at hserve
    | @unregisterWrite d _ hwrite =>
      cases hwriter
      exact absurd hwrite hselect.2.2
    | @received d _ _ hwrite | @receiveFailed d _ _ hwrite
    | @ping d hwrite | @pingFailed d hwrite =>
      cases hwriter
      exact absurd hwrite hselect.2.1
    | @writeClose d wrote hwrite =>
      cases hwriter
      have hno_close : .close ∉ s.wire c := by
        rcases h.ending with ⟨-, hno⟩ | ⟨hpc, -⟩
        · exact hno
        · simp [hpc] at hwrite
      have hlog := dequeued_concat (c := c) hrun hstep
      cases wrote with
      | true =>
        refine ⟨hqueue, hclosed, ?_, .inr ⟨by simp [State.setWritePump], .inr ?_⟩⟩
        · simp [State.setWritePump, State.write, texts_append, h.extra, hlog, taken]
        · exact ⟨s.wire c, by simp [State.setWritePump, State.write], hno_close⟩
      | false =>
        refine ⟨hqueue, hclosed, ?_, .inr ⟨by simp [State.setWritePump], .inl ?_⟩⟩
        · simp [State.setWritePump, h.extra, hlog, taken]
        · exact failed_concat (by simp [failedBy])
    | _ => cases hwriter
  · obtain ⟨hwire, hpc, htaken⟩ := writer_other hcases hwriter
    have hlog : dequeued c (ls ++ [l]) = dequeued c ls := by
      rw [dequeued_concat hrun hstep, htaken, List.append_nil]
    refine ⟨hqueue, hclosed, ?_, ?_⟩
    · rw [hwire, hlog, h.extra]
    · rw [hwire, hpc]
      exact h.ending.imp_right fun hend => hend.imp_right fun hend => hend.imp_left .concat

theorem clean_newHub (c : κ) : Clean c [] (newHub : State κ β) where
  working := fun _ => rfl
  open_end := by simp [newHub]
  stopped := by simp [newHub]
  no_close := by simp [newHub]

theorem writer_run (c : κ) (hrun : (hub κ β).run ls = some s) :
    (hub κ β).Meets (Undrained c) newHub ls ∧ Clean c ls s ∨
      ¬ (hub κ β).Meets (Undrained c) newHub ls ∧ Spilled c ls s := by
  refine @run_history _ _ (hub κ β) (fun ls s =>
    (hub κ β).Meets (Undrained c) newHub ls ∧ Clean c ls s ∨
      ¬ (hub κ β).Meets (Undrained c) newHub ls ∧ Spilled c ls s)
    (.inl ⟨trivial, clean_newHub c⟩) ?_ ls s hrun
  intro ls s l t hls h hstep
  have hmeets : (hub κ β).Meets (Undrained c) newHub (ls ++ [l]) ↔
      (hub κ β).Meets (Undrained c) newHub ls ∧ Undrained c s l := by
    have hfrom : (hub κ β).runFrom newHub ls = some s := hls
    rw [meets_append, hfrom]
    simp [Machine.Meets]
  have hstarted := started_run c hls
  rw [hmeets]
  rcases h with ⟨hbefore, h⟩ | ⟨hbefore, h⟩
  · obtain ⟨hclean, hspilled⟩ := h.step hstarted hls hstep
    by_cases hl : Undrained c s l
    · exact .inl ⟨⟨hbefore, hl⟩, hclean hl⟩
    · exact .inr ⟨fun hall => hl hall.2, hspilled hl⟩
  · exact .inr ⟨fun hall => hbefore hall.1, h.step hstarted hls hstep⟩

theorem Clean.faithful (h : Clean c ls s) : Faithful c ls s := by
  constructor
  · rcases hpc : s.writePump c
    case idle => rw [h.working (.inl hpc)]
    case select => rw [h.working (.inr hpc)]
    case closing => exact absurd hpc h.open_end
    case unregistering => exact (h.stopped (.inl hpc)).2
    case finished => exact (h.stopped (.inr hpc)).2
  · intro _ hfailed hpc
    exact absurd (h.stopped (.inr hpc)).1 hfailed

theorem Spilled.not_faithful (h : Spilled c ls s) : ¬ Faithful c ls s := by
  intro hfaithful
  have hlength := hfaithful.dequeued.length_le
  rw [h.extra, List.length_append, List.length_singleton] at hlength
  omega

/-- What a write pump that has finished without a failed write has written. -/
theorem finished_wire (hrun : (hub κ β).run ls = some s) (hpc : s.writePump c = .finished)
    (hfailed : ¬ Failed c ls) :
    texts (s.wire c) = placed c ls ++ [[]] ∧ endsWithClose (s.wire c) := by
  obtain ⟨-, h⟩ | ⟨-, h⟩ := writer_run c hrun
  · exact absurd (h.stopped (.inr hpc)).1 hfailed
  · rw [placed_run c hrun, h.drained, List.append_nil]
    rcases h.ending with ⟨hclosing, -⟩ | ⟨-, hend⟩
    · simp [hpc] at hclosing
    · exact ⟨h.extra, hend.resolve_left hfailed⟩

/-- Whatever is placed on a client's channel, however the hub's goroutines take turns and
whichever writes fail: the write pump writes what it dequeues and no more up to the step that
writes the nil message of the closed and drained channel, and no longer from then on. -/
theorem writer_faithful_iff (c : κ) (hrun : (hub κ β).run ls = some s) :
    Faithful c ls s ↔ (hub κ β).Meets (Undrained c) newHub ls := by
  rcases writer_run c hrun with ⟨hmeets, h⟩ | ⟨hmeets, h⟩
  · exact iff_of_true h.faithful hmeets
  · exact iff_of_false h.not_faithful hmeets

end

/-- A client joins and leaves, and its write pump has still written nothing. -/
def leaves : List (Label Bool Unit) :=
  [.upgrade true true, .register true, .lock, .ping true true, .readError true,
    .unregisterRead true, .lock]

/-- A second client sends two messages, and the first one's write pump writes them before it
leaves. -/
def writes : List (Label Bool Unit) :=
  [.upgrade true true, .register true, .lock, .upgrade false true, .register false, .lock] ++
    passes [1] ++ passes [2] ++
    [.receive true true, .receive true true, .readError true, .unregisterRead true, .lock]
where
  passes (m : Message) : List (Label Bool Unit) :=
    [.readMessage false m, .rlockRead false, .forward false true, .forward false false,
      .forwarded false]

theorem writer_faithful_writes : ∃ s, (hub Bool Unit).run writes = some s ∧
    Faithful true writes s ∧ texts (s.wire true) = [[1], [2]] := by
  have hends : ((hub Bool Unit).run writes).map (fun s => texts (s.wire true)) =
      some [[1], [2]] := by decide
  have hmeets : (hub Bool Unit).Meets (Undrained true) newHub writes := by decide
  obtain ⟨s, hrun, htexts⟩ := Option.map_eq_some_iff.mp hends
  exact ⟨s, hrun, (writer_faithful_iff true hrun).mpr hmeets, htexts⟩

/-- The write pump comes to the closed channel and writes an empty text frame. -/
theorem writer_adds : ¬ ∀ (ls : List (Label Bool Unit)) (s : State Bool Unit) (c : Bool),
    (hub Bool Unit).run ls = some s → Faithful c ls s := by
  intro h
  have hwire : ((hub Bool Unit).run (leaves ++ [.receive true true])).map
      (fun s => texts (s.wire true)) = some [[]] := by decide
  have hdequeued : dequeued true (leaves ++ [.receive true true]) = [] := by decide
  obtain ⟨s, hrun, htexts⟩ := Option.map_eq_some_iff.mp hwire
  have hfaithful := h _ s true hrun
  have hle := hfaithful.dequeued
  rw [htexts, hdequeued] at hle
  simp at hle

end LearnPg.Ws.Writer
