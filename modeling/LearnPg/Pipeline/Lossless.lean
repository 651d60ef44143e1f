import LearnPg.Pipeline.Delivery

/-! While the collector's connection and a page's socket last and the page's channel has room, no
event is lost: what the page has shown and what is on its way are the events put, in their order. -/
namespace LearnPg.Pipeline

open Basis.Channel Basis.Runs Ws.Hub Ws.Steps Ws.Stopping Ws.Fanout Ws.Copies Ws.Writer
open Collector Frontend

/-! The hub between the two connections. -/

section

variable {κ β : Type} [DecidableEq κ] {s t : Ws.Hub.State κ β} {l : Ws.Hub.Label κ β} {a c d : κ}

def Reading : ReadPumpPc κ → Prop
  | .reading | .received _ | .forwarding _ _ => True
  | .idle | .unregistering | .finished => False

def Spares (c : κ) : RunPc κ → Prop
  | .select | .adding _ => True
  | .removing d => d ≠ c
  | _ => False

/-- The hub reads from both connections and writes to `c`. -/
structure Serving (a c : κ) (s : Ws.Hub.State κ β) : Prop where
  stop : s.stop = false
  run : Spares c s.run
  member : c ∈ s.clients
  writing : s.writePump c = .select
  reading : ∀ d, d = a ∨ d = c → Reading (s.readPump d)

/-- No read or write of the two connections fails, the channel of `c` has room for what `a` sends,
and nobody calls `Stop`. -/
def HarmlessHub (a c : κ) (s : Ws.Hub.State κ β) : Ws.Hub.Label κ β → Prop
  | .readError d => d ≠ a ∧ d ≠ c
  | .receive d wrote | .ping d wrote => d = c → wrote = true
  | .forward d e => d = a → e = c → ¬ Full (s.send c)
  | .callStop _ => False
  | _ => True

instance (s : Ws.Hub.State κ β) (l : Ws.Hub.Label κ β) : Decidable (HarmlessHub a c s l) :=
  match l with
  | .readError d => inferInstanceAs (Decidable (d ≠ a ∧ d ≠ c))
  | .receive d wrote | .ping d wrote => inferInstanceAs (Decidable (d = c → wrote = true))
  | .forward d e => inferInstanceAs
      (Decidable (d = a → e = c → ¬ (s.send c).cap ≤ (s.send c).queue.length))
  | .callStop _ => .isFalse id
  | .upgrade .. | .register _ | .unregisterRead _ | .unregisterWrite _ | .takeStop
  | .takeBroadcast | .lock | .closeClient _ | .unlockReturn | .rlock | .offer _ | .ranged
  | .readMessage .. | .rlockRead _ | .forwarded _ | .writeClose .. | .marshal .. | .enqueue _
  | .stopReturns _ => .isTrue trivial

theorem mem_drop (hc : c ∈ s.clients) (hcd : c ≠ d) : c ∈ (s.drop d).clients := by
  unfold State.drop
  split
  · exact Finset.mem_erase.mpr ⟨hcd, hc⟩
  · exact hc

theorem stop_drop (s : Ws.Hub.State κ β) (d : κ) : (s.drop d).stop = s.stop ∧
    (s.drop d).run = s.run := by
  unfold State.drop
  split <;> exact ⟨rfl, rfl⟩

theorem reading_update {pump : κ → ReadPumpPc κ} {pc : ReadPumpPc κ}
    (h : ∀ e, e = a ∨ e = c → Reading (pump e)) (hpc : d = a ∨ d = c → Reading pc) :
    ∀ e, e = a ∨ e = c → Reading (Function.update pump d pc e) := by
  intro e he
  by_cases hed : e = d
  · subst hed
    rw [Function.update_self]
    exact hpc he
  · rw [Function.update_of_ne hed]
    exact h e he

variable [DecidableEq β]

theorem Serving.step (h : Serving a c s) (hsound : Sound s) (hstep : Ws.Steps.Step s l t)
    (hharmless : HarmlessHub a c s l) : Serving a c t := by
  obtain ⟨hstop, hrun, hmember, hwriting, hreading⟩ := h
  have hpump {e : κ} {pc : WritePumpPc} (he : e ≠ c) :
      Function.update s.writePump e pc c = .select := by
    rw [Function.update_of_ne he.symm]
    exact hwriting
  have hends {e : κ} {pc : ReadPumpPc κ} (hread : s.readPump e = pc) (hpc : ¬ Reading pc) :
      e ≠ a ∧ e ≠ c := by
    refine ⟨fun he => hpc ?_, fun he => hpc ?_⟩
    · exact hread ▸ hreading e (.inl he)
    · exact hread ▸ hreading e (.inr he)
  cases hstep with
  | upgrade => exact ⟨hstop, hrun, hmember, hwriting, hreading⟩
  | @register e hselect hserve =>
    refine ⟨hstop, trivial, hmember, ?_, reading_update hreading fun _ => trivial⟩
    by_cases he : e = c
    · subst he
      exact Function.update_self ..
    · exact hpump he
  | @unregisterRead e hselect hread =>
    have hne := hends hread id
    refine ⟨hstop, hne.2, hmember, hwriting, reading_update hreading fun he => ?_⟩
    exact absurd he (by simp [hne])
  | @unregisterWrite e hselect hwrite =>
    have hne : e ≠ c := by
      rintro rfl
      rw [hwriting] at hwrite
      cases hwrite
    exact ⟨hstop, hne, hmember, hpump hne, hreading⟩
  | takeStop _ hstopped =>
    rw [hstop] at hstopped
    cases hstopped
  | takeBroadcast _ hreceive =>
    obtain ⟨rest, hqueue, -⟩ := receive_some hreceive
    rw [hsound.quiet.queue] at hqueue
    cases hqueue
  | add => exact ⟨hstop, trivial, Finset.mem_insert_of_mem hmember, hwriting, hreading⟩
  | @remove e hremoving hreaders he =>
    rw [hremoving] at hrun
    obtain ⟨hread, hwrite, -⟩ := drop_frame (s.setRun .select) e
    refine ⟨(stop_drop _ _).1.trans hstop, ?_, mem_drop hmember (Ne.symm hrun), ?_, ?_⟩
    · rw [(stop_drop _ _).2]
      exact trivial
    · rw [hwrite]
      exact hwriting
    · rw [hread]
      exact hreading
  | removeNone => exact ⟨hstop, trivial, hmember, hwriting, hreading⟩
  | evict hat | lockStop hat | closeClient hat | unlockReturn hat | share hat | resume hat
  | offerSent hat | offerFull hat | offerPanic hat | ranged hat =>
    rw [hat] at hrun
    exact absurd hrun id
  | readMessage | rlockRead | forwarded | forwardSent | forwardPast =>
    exact ⟨hstop, hrun, hmember, hwriting, reading_update hreading fun _ => trivial⟩
  | readError =>
    refine ⟨hstop, hrun, hmember, hwriting, reading_update hreading fun he => ?_⟩
    exact absurd he (by simp [hharmless.1, hharmless.2])
  | forwardPanic => exact ⟨hstop, hrun, hmember, hwriting, hreading⟩
  | @received e m ch hwrite hreceive =>
    refine ⟨hstop, hrun, hmember, ?_, hreading⟩
    by_cases he : e = c
    · subst he
      cases m with
      | some m => exact Function.update_self ..
      | none =>
        -- the channel of a client is open
        have hopen := hsound.closing.open_of_mem hmember
        rw [(receive_none hreceive).2.1] at hopen
        cases hopen
    · exact hpump he
  | @receiveFailed e =>
    have he : e ≠ c := fun he => by cases hharmless he
    exact ⟨hstop, hrun, hmember, hpump he, hreading⟩
  | @writeClose e wrote hwrite =>
    have he : e ≠ c := by
      rintro rfl
      rw [hwriting] at hwrite
      cases hwrite
    cases wrote <;> exact ⟨hstop, hrun, hmember, hpump he, hreading⟩
  | ping => exact ⟨hstop, hrun, hmember, hwriting, hreading⟩
  | @pingFailed e =>
    have he : e ≠ c := fun he => by cases hharmless he
    exact ⟨hstop, hrun, hmember, hpump he, hreading⟩
  | callStop => exact absurd hharmless id
  | marshal | enqueue | stopReturns => exact ⟨hstop, hrun, hmember, hwriting, hreading⟩

end

section

variable {κ β ω ε : Type} [DecidableEq κ] [DecidableEq β] [DecidableEq ω] {wire : Wire ε}
  {cfg : WebSocket.Config} {s t : State κ β ω ε} {a c : κ} {w : ω} {i : Nat}

/-- Every connection was made for at most one socket, and no more frames were read than written. -/
structure Bound (s : State κ β ω ε) : Prop where
  asked : ∀ v j b, s.conn v j = some b → s.hub.serveWs b ≠ .idle
  single : ∀ v j v' j' b, s.conn v j = some b → s.conn v' j' = some b → v = v' ∧ j = j'
  got : ∀ b, s.got b ≤ (texts (s.hub.wire b)).length

omit [DecidableEq ω] in
theorem Bound.hub {l : Ws.Hub.Label κ β} {hub : Ws.Hub.State κ β} {up : κ → List Message}
    {link : Option κ} (h : Bound s) (hstep : Ws.Hub.step s.hub l = some hub) :
    Bound { s with hub, up, link } := by
  have hcases := Ws.Steps.step_cases hstep
  refine ⟨fun v j b hb hidle => h.asked v j b hb (idle_step hcases hidle), h.single, fun b => ?_⟩
  obtain ⟨frames, hframes⟩ := wire_step (b := b) hcases
  have hgot := h.got b
  dsimp only
  rw [hframes, texts_append, List.length_append]
  omega

theorem Bound.step {lab : Label κ β ω ε} (h : Bound s) (hstep : Step wire cfg s lab t) :
    Bound t := by
  cases hstep with
  | sender | sends => exact ⟨h.asked, h.single, h.got⟩
  | hub hstep | reads _ hstep => exact h.hub hstep
  | @request _ w i c ok hub hi hstep =>
    have hhub := @Bound.hub _ _ _ _ _ _ _ _ _ s.up s.link h hstep
    have hserve : s.hub.serveWs c = .idle ∧ hub.serveWs c ≠ .idle := by
      cases Ws.Steps.step_cases hstep with
      | upgrade hserve => exact ⟨hserve, by cases ok <;> simp⟩
    have hold {v : ω} {j : Nat} {b : κ} (hb : s.conn v j = some b) : b ≠ c := by
      rintro rfl
      exact h.asked v j b hb hserve.1
    have hconn (v : ω) (j : Nat) (b : κ) : Function.update s.conn w
        (Function.update (s.conn w) i (some c)) v j = some b →
        (v = w ∧ j = i ∧ b = c) ∨ s.conn v j = some b := by
      intro hb
      by_cases hv : v = w
      · subst hv
        rw [Function.update_self] at hb
        by_cases hj : j = i
        · subst hj
          rw [Function.update_self] at hb
          exact .inl ⟨rfl, rfl, (Option.some.inj hb).symm⟩
        · rw [Function.update_of_ne hj] at hb
          exact .inr hb
      · rw [Function.update_of_ne hv] at hb
        exact .inr hb
    refine ⟨fun v j b hb => ?_, fun v j v' j' b hb hb' => ?_, hhub.got⟩
    · rcases hconn v j b hb with ⟨-, -, rfl⟩ | hbefore
      · exact hserve.2
      · exact hhub.asked v j b hbefore
    · rcases hconn v j b hb with ⟨hv, hj, hbc⟩ | hbefore
      · rcases hconn v' j' b hb' with ⟨hv', hj', -⟩ | hbefore'
        · exact ⟨hv.trans hv'.symm, hj.trans hj'.symm⟩
        · exact absurd hbc (hold hbefore')
      · rcases hconn v' j' b hb' with ⟨-, -, hbc⟩ | hbefore'
        · exact absurd hbc (hold hbefore)
        · exact h.single v j v' j' b hbefore hbefore'
  | page hstep =>
    cases hstep with
    | page | pings => exact ⟨h.asked, h.single, h.got⟩
    | @message i page c m hstep hconn hm =>
      have hlt := (List.getElem?_eq_some_iff.mp hm).1
      have hgot (b : κ) : Function.update s.got c (s.got c + 1) b ≤
          (texts (s.hub.wire b)).length := by
        by_cases hb : b = c
        · subst hb
          rw [Function.update_self]
          omega
        · rw [Function.update_of_ne hb]
          exact h.got b
      cases wire.shows m <;> exact ⟨h.asked, h.single, hgot⟩

omit [DecidableEq ω] in
theorem kept_hub (wire : Wire ε) {l : Ws.Hub.Label κ β} {hub : Ws.Hub.State κ β}
    (up : κ → List Message)
    (hac : a ≠ c) (hsound : Sound s.hub) (hserving : Serving a c s.hub)
    (hharmless : HarmlessHub a c s.hub l) (hgot : s.got c ≤ (onWay c s.hub).length)
    (hothers : ∀ b, b ≠ a → awaited wire s c b = []) (hstep : Ws.Steps.Step s.hub l hub)
    (hcoming : l ≠ .rlockRead a → coming wire { s with hub, up } a = coming wire s a)
    (hup : l = .rlockRead a → up a = s.up a) :
    unread wire { s with hub, up } c ++ awaited wire { s with hub, up } c a =
      unread wire s c ++ awaited wire s c a := by
  by_cases hl : l = .rlockRead a
  · subst hl
    cases hstep with
    | rlockRead hread =>
      rename_i m hrun
      have hbefore : holding a s.hub = [m] ∧ due a c s.hub = [] := by
        simp [holding, due, hread]
      simp only [unread, awaited, coming, hbefore]
      rw [hup rfl]
      simp only [onWay, due, holding, State.setReadPump, Function.update_self, hserving.member,
        if_true, List.nil_append, ← events_append]
  have hsame : awaited wire { s with hub, up } c a =
      wire.events (due a c hub) ++ coming wire s a := by
    unfold awaited
    rw [hcoming hl]
  have hput (m : Message) : wire.events (((onWay c s.hub) ++ [m]).drop (s.got c)) =
      unread wire s c ++ wire.events [m] := by
    rw [List.drop_append_of_le_length hgot, events_append]
    rfl
  cases moves_step (b := c) hsound.quiet.run hsound.started hstep with
  | rests way hands =>
    rw [hsame, hands a]
    simp only [unread, way]
    rfl
  | loses label way hands =>
    subst label
    cases hharmless rfl
  | ends writing closed way hands =>
    rw [hsound.closing.open_of_mem hserving.member] at closed
    cases closed
  | begins b m label received member way hand hands =>
    have hne : a ≠ b := by
      rintro rfl
      exact hl label
    rw [hsame, hands a hne]
    simp only [unread, way]
    rfl
  | puts b m way before hand hands =>
    have hunread : unread wire { s with hub, up } c = unread wire s c ++ wire.events [m] := by
      unfold unread
      rw [way]
      exact hput m
    by_cases hba : b = a
    · subst hba
      rw [hsame, hunread, hand]
      unfold awaited
      rw [before]
      simp [Wire.events]
    · have hnone := hothers b hba
      unfold awaited at hnone
      rw [before, List.append_eq_nil_iff] at hnone
      rw [hsame, hunread, hnone.1, hands a (Ne.symm hba), List.append_nil]
      rfl
  | skips b why way hand hands =>
    by_cases hba : b = a
    · subst hba
      rcases why with ⟨label, -⟩ | ⟨label, rfl | hfull⟩
      · exact absurd label hl
      · exact absurd rfl hac
      · subst label
        exact absurd hfull (hharmless rfl rfl)
    · rw [hsame, hands a (Ne.symm hba)]
      simp only [unread, way]
      rfl

/-! The way as a whole. -/

def Linked : Sender.Phase ε → Prop
  | .connected | .sending _ => True
  | .connecting | .sleeping => False

/-- The collector is connected over `a`, the page's socket `i` over `c`, and no other connection
has events for `c`. -/
structure Steady (wire : Wire ε) (a c : κ) (w : ω) (i : Nat) (s : State κ β ω ε) : Prop where
  link : s.link = some a
  phase : Linked s.collector.phase
  rx : s.collector.rx.closed = false
  hub : Serving a c s.hub
  conn : s.conn w i = some c
  live : (s.pages w).live i = true
  others : ∀ b, b ≠ a → awaited wire s c b = []

def Stays (i : Nat) : WebSocket.Label → Prop
  | .disconnect | .stale _ => False
  | .closing j | .closed j => j ≠ i
  | _ => True

/-- Nothing ends one of the two connections, and the channel of `c` has room. -/
def Harmless (a c : κ) (w : ω) (i : Nat) (s : State κ β ω ε) : Label κ β ω ε → Prop
  | .collector .close | .breaks _ => False
  | .page v l => v = w → Stays i l
  | .hub l => HarmlessHub a c s.hub l
  | _ => True

instance (i : Nat) (l : WebSocket.Label) : Decidable (Stays i l) :=
  match l with
  | .disconnect | .stale _ => .isFalse id
  | .closing j | .closed j => inferInstanceAs (Decidable (j ≠ i))
  | .mount _ | .connect _ | .reconnect .. | .heartbeat _ | .opened _ | .message _ | .error _ =>
    .isTrue trivial

instance (s : State κ β ω ε) (lab : Label κ β ω ε) : Decidable (Harmless a c w i s lab) :=
  match lab with
  | .collector .close | .breaks _ => .isFalse id
  | .page v l => inferInstanceAs (Decidable (v = w → Stays i l))
  | .hub l => inferInstanceAs (Decidable (HarmlessHub a c s.hub l))
  | .collector (.put _) | .collector .connects | .collector .connectFails | .collector .awakes
  | .collector .frame | .collector .takes | .collector .sends | .collector .sendFails
  | .dial .. | .request .. | .reads _ => .isTrue trivial

/-- From the end of the way to its start: written to the page or in its channel, with the read
pump of `a` or before it, in the sender's hand, in the collector's channel. -/
def State.underWay (wire : Wire ε) (s : State κ β ω ε) (a c : κ) : List ε :=
  unread wire s c ++ awaited wire s c a ++
    wire.clear (s.collector.phase.inHand ++ s.collector.rx.queue)

def State.total (wire : Wire ε) (s : State κ β ω ε) (a c : κ) (w : ω) : List ε :=
  s.shown w ++ s.underWay wire a c

structure Keeps (wire : Wire ε) (a c : κ) (w : ω) (i : Nat) (s t : State κ β ω ε)
    (es : List ε) : Prop where
  steady : Steady wire a c w i t
  total : t.total wire a c w = s.total wire a c w ++ es

theorem live_stays {p q : WebSocket.State} {l : WebSocket.Label} (hlive : p.live i = true)
    (hl : Stays i l) (hstep : WebSocket.step cfg p l = some q) : q.live i = true := by
  have hconnect {p : WebSocket.State} (thrown : Option String) (hlive : p.live i = true) :
      (p.connect thrown).live i = true := by
    unfold WebSocket.State.connect
    split
    · exact hlive
    · cases thrown with
      | some message => rwa [WebSocket.live_congr (WebSocket.scheduleReconnect_sockets _).1]
      | none =>
        rw [WebSocket.live_append rfl]
        exact Bool.or_eq_true_iff.mpr (.inl hlive)
  cases l with
  | mount thrown | connect thrown =>
    cases hstep
    exact hconnect thrown hlive
  | disconnect | stale => exact absurd hl id
  | reconnect id thrown =>
    obtain ⟨-, heq⟩ := Option.ite_none_right_eq_some.mp hstep
    cases heq
    exact hconnect thrown hlive
  | heartbeat id | error j =>
    obtain ⟨-, heq⟩ := Option.ite_none_right_eq_some.mp hstep
    cases heq
    exact hlive
  | opened j =>
    obtain ⟨hj, heartbeat, stale, rfl⟩ := WebSocket.opened_step hstep
    rw [WebSocket.live_set (List.getElem?_eq_some_iff.mp hj).1 rfl]
    split
    · rfl
    · exact hlive
  | message j =>
    obtain ⟨timer, rfl⟩ := WebSocket.message_step hstep
    exact hlive
  | closing j =>
    obtain ⟨hj, heq⟩ := Option.ite_none_right_eq_some.mp hstep
    cases heq
    rw [WebSocket.live_set (List.getElem?_eq_some_iff.mp hj).1 rfl, if_neg (Ne.symm hl)]
    exact hlive
  | closed j =>
    obtain ⟨hlt, rfl⟩ := WebSocket.closed_step hstep
    rw [WebSocket.live_congr (WebSocket.onclose_sockets cfg _).1, WebSocket.live_set hlt rfl,
      if_neg (Ne.symm hl)]
    exact hlive

omit [DecidableEq β] [DecidableEq ω] in
theorem kept_collector {l : Sender.Label ε} (h : Steady wire a c w i s) (hl : l ≠ .close)
    (hstep : collectorStep wire s l = some t) :
    Keeps wire a c w i s t (wire.clear (putBy (.collector l : Label κ β ω ε))) := by
  obtain ⟨hlink, hphase, hrx, hhub, hconn, hlive, hothers⟩ := h
  cases l with
  | put e =>
    obtain ⟨st, hst, rfl⟩ := Option.map_eq_some_iff.mp hstep
    simp only [Sender.step] at hst
    split at hst
    next rx hoffer =>
      cases hst
      obtain ⟨-, rfl⟩ := offer_sent hoffer
      refine ⟨⟨hlink, hphase, hrx, hhub, hconn, hlive, hothers⟩, ?_⟩
      simp only [State.total, State.underWay, putBy, clear_append, List.append_assoc]
      rfl
    next => cases hst
  | close => exact absurd rfl hl
  | connects =>
    simp only [collectorStep, hlink] at hstep
    split at hstep
    · obtain ⟨st, hst, rfl⟩ := Option.map_eq_some_iff.mp hstep
      simp only [Sender.step] at hst
      split at hst
      next hat =>
        rw [hat] at hphase
        exact absurd hphase id
      next => cases hst
    · cases hstep
  | connectFails | awakes =>
    obtain ⟨st, hst, rfl⟩ := Option.map_eq_some_iff.mp hstep
    simp only [Sender.step] at hst
    split at hst
    next hat =>
      rw [hat] at hphase
      exact absurd hphase id
    next => cases hst
  | frame =>
    obtain ⟨st, hst, rfl⟩ := Option.map_eq_some_iff.mp hstep
    simp only [Sender.step] at hst
    split at hst
    next =>
      cases hst
      exact ⟨⟨hlink, hphase, hrx, hhub, hconn, hlive, hothers⟩, (List.append_nil _).symm⟩
    next => cases hst
  | takes =>
    obtain ⟨st, hst, rfl⟩ := Option.map_eq_some_iff.mp hstep
    simp only [Sender.step] at hst
    split at hst
    next e rx hat hreceive =>
      cases hst
      obtain ⟨rest, hqueue, rfl⟩ := receive_some hreceive
      refine ⟨⟨hlink, trivial, hrx, hhub, hconn, hlive, hothers⟩, ?_⟩
      simp only [State.total, State.underWay, putBy, hat, hqueue, Sender.Phase.inHand, clear_nil,
        List.append_nil, List.nil_append, List.singleton_append]
      rfl
    next rx hat hreceive =>
      rw [(receive_none hreceive).2.1] at hrx
      cases hrx
    next => cases hst
  | sends =>
    simp only [collectorStep] at hstep
    split at hstep
    next b e hb hat =>
      obtain rfl := Option.some.inj (hlink.symm.trans hb)
      obtain ⟨st, hst, rfl⟩ := Option.map_eq_some_iff.mp hstep
      simp only [Sender.step, hat] at hst
      cases hst
      refine ⟨⟨hlink, trivial, hrx, hhub, hconn, hlive, fun b hba => ?_⟩, ?_⟩
      · rw [awaited_send]
        simp only [goesOut, hba, if_false, List.append_nil]
        exact hothers b hba
      · unfold State.total State.underWay
        rw [awaited_send]
        simp only [goesOut, hat, putBy, Sender.Phase.inHand, State.send, State.post, if_true,
          clear_append, clear_nil, List.append_nil, List.nil_append, List.append_assoc]
        rfl
    next => cases hstep
  | sendFails => cases hstep

omit [DecidableEq ω] in
theorem kept_by_hub {l : Ws.Hub.Label κ β} {hub : Ws.Hub.State κ β} (up : κ → List Message)
    {conn : ω → Nat → Option κ} (hac : a ≠ c) (hsound : Sound s.hub) (hbound : Bound s)
    (h : Steady wire a c w i s) (hharmless : HarmlessHub a c s.hub l)
    (hstep : Ws.Steps.Step s.hub l hub) (hconn : conn w i = some c)
    (hcoming : ∀ b, (holding b hub ++ up b).Sublist (holding b s.hub ++ s.up b))
    (hbegins : ∀ b m, l = .rlockRead b → s.hub.readPump b = .received m →
      (m :: (holding b hub ++ up b)).Sublist (holding b s.hub ++ s.up b))
    (hsame : l ≠ .rlockRead a → holding a hub ++ up a = holding a s.hub ++ s.up a)
    (hup : l = .rlockRead a → up a = s.up a) :
    Keeps wire a c w i s { s with hub, up, conn } [] := by
  have hgot : s.got c ≤ (onWay c s.hub).length := by
    unfold onWay
    rw [List.length_append]
    exact Nat.le_trans (hbound.got c) (Nat.le_add_right _ _)
  refine ⟨⟨h.link, h.phase, h.rx, h.hub.step hsound hstep hharmless, hconn, h.live,
    fun b hba => ?_⟩, ?_⟩
  · have hless := awaited_hub wire hsound hstep hcoming hbegins b c
    rw [h.others b hba] at hless
    exact List.sublist_nil.mp hless
  · have hkept := kept_hub wire up hac hsound h.hub hharmless hgot h.others hstep
      (fun hl => congrArg wire.events (hsame hl)) hup
    rw [List.append_nil]
    exact congrArg (fun way => s.shown w ++ (way ++
      wire.clear (s.collector.phase.inHand ++ s.collector.rx.queue))) hkept

omit [DecidableEq ω] in
theorem kept_own {l : Ws.Hub.Label κ β} {hub : Ws.Hub.State κ β} {conn : ω → Nat → Option κ}
    (hac : a ≠ c) (hsound : Sound s.hub) (hbound : Bound s) (h : Steady wire a c w i s)
    (hharmless : HarmlessHub a c s.hub l) (hstep : Ws.Steps.Step s.hub l hub)
    (hconn : conn w i = some c) (hread : ∀ b m, l ≠ .readMessage b m) :
    Keeps wire a c w i s { s with hub, conn } [] := by
  have hcomes := comes hsound hstep hread
  refine kept_by_hub s.up hac hsound hbound h hharmless hstep hconn (fun b => ?_)
    (fun b m hl hm => ?_) (fun hl => ?_) fun _ => rfl
  · exact (hcomes b).1.append (List.Sublist.refl _)
  · obtain ⟨hbefore, hafter⟩ := (hcomes b).2 m hl hm
    rw [hbefore, hafter]
    exact List.Sublist.refl _
  · cases reads_step (hsound.started a) hstep with
    | rests held other unread => rw [held]
    | reads m label => exact absurd label (hread a m)
    | hands m label => exact absurd label hl

omit [DecidableEq β] in
theorem Steady.show (h : Steady wire a c w i s) (v : ω) (shown : Option ε) :
    Steady wire a c w i (s.show v shown) := by
  cases shown <;> exact ⟨h.link, h.phase, h.rx, h.hub, h.conn, h.live, h.others⟩

omit [DecidableEq β] in
theorem total_show (s : State κ β ω ε) (v : ω) (shown : Option ε) :
    (s.show v shown).total wire a c w =
      s.shown w ++ (if w = v then shown.toList else []) ++ s.underWay wire a c := by
  have hshown : (s.show v shown).shown w = s.shown w ++ if w = v then shown.toList else [] := by
    by_cases hwv : w = v
    · subst hwv
      cases shown <;> simp [State.show]
    · cases shown <;> simp [State.show, hwv]
  unfold State.total
  rw [hshown]
  cases shown <;> rfl

omit [DecidableEq β] in
theorem kept_page {v : ω} {l : WebSocket.Label} (hinv : Inv wire s) (hbound : Bound s)
    (h : Steady wire a c w i s) (hl : v = w → Stays i l) (hstep : PageStep wire cfg s v l t) :
    Keeps wire a c w i s t [] := by
  have hlive {l : WebSocket.Label} {q : WebSocket.State}
      (hq : WebSocket.step cfg (s.pages v) l = some q) (hl : v = w → Stays i l) :
      (Function.update s.pages v q w).live i = true := by
    by_cases hwv : w = v
    · subst hwv
      rw [Function.update_self]
      exact live_stays h.live (hl rfl) hq
    · rw [Function.update_of_ne hwv]
      exact h.live
  cases hstep with
  | page hq =>
    exact ⟨⟨h.link, h.phase, h.rx, h.hub, h.conn, hlive hq hl, h.others⟩,
      (List.append_nil _).symm⟩
  | @pings _ q b hq =>
    refine ⟨⟨h.link, h.phase, h.rx, h.hub, h.conn, hlive hq hl, fun d hd => ?_⟩, ?_⟩
    · rw [awaited_post]
      exact h.others d hd
    · unfold State.total State.underWay
      rw [awaited_post, List.append_nil]
      rfl
  | @message j q b m hq hconn hm =>
    have hread : Steady wire a c w i { s with
        pages := Function.update s.pages v q
        got := Function.update s.got b (s.got b + 1) } :=
      ⟨h.link, h.phase, h.rx, h.hub, h.conn, hlive hq hl, h.others⟩
    refine ⟨hread.show v _, ?_⟩
    rw [total_show, List.append_nil]
    by_cases hwv : w = v
    · subst hwv
      -- the socket that the message comes over is the page's only live one
      have hopen := (Option.ite_none_right_eq_some.mp hq).1
      have hjlive : (s.pages w).live j = true := by
        simp [WebSocket.State.live, hopen, WebSocket.ReadyState.live]
      have hsingle := (hinv.page w).single
      obtain rfl := Option.some_inj.mp ((hsingle j hjlive).symm.trans (hsingle i h.live))
      obtain rfl := Option.some.inj (h.conn.symm.trans hconn)
      obtain ⟨hlt, hget⟩ := List.getElem?_eq_some_iff.mp hm
      have hunread : unread wire s c = (wire.shows m).toList ++
          wire.events ((onWay c s.hub).drop (s.got c + 1)) := by
        unfold unread onWay
        rw [List.drop_append_of_le_length (Nat.le_of_lt hlt), List.drop_eq_getElem_cons hlt, hget,
          List.drop_append_of_le_length hlt, List.cons_append, ← List.singleton_append,
          events_append]
        cases he : wire.shows m with
        | none => simp [Wire.events, he]
        | some e => simp [Wire.events, he]
      unfold State.total State.underWay
      rw [hunread, if_pos rfl]
      simp only [unread, Function.update_self, List.append_assoc]
      rfl
    · have hcb : c ≠ b := by
        rintro rfl
        exact hwv (hbound.single w i v j c h.conn hconn).1
      unfold State.total State.underWay
      rw [if_neg hwv, List.append_nil]
      simp only [unread, Function.update_of_ne hcb]
      rfl

/-- A harmless step loses nothing. -/
theorem kept_step {lab : Label κ β ω ε} (hac : a ≠ c) (hinv : Inv wire s) (hbound : Bound s)
    (h : Steady wire a c w i s) (hharmless : Harmless a c w i s lab)
    (hstep : step wire cfg s lab = some t) : Keeps wire a c w i s t (wire.clear (putBy lab)) := by
  cases lab with
  | dial b ok =>
    simp only [step, h.link] at hstep
    split at hstep
    next hlink => cases hlink
    next => cases hstep
  | collector l =>
    refine kept_collector h ?_ hstep
    rintro rfl
    exact hharmless
  | breaks reached => exact absurd hharmless id
  | request v j b ok =>
    simp only [step] at hstep
    split at hstep
    next hfree =>
      obtain ⟨hub, hhub, rfl⟩ := Option.map_eq_some_iff.mp hstep
      refine kept_own (l := .upgrade b ok) hac hinv.hub hbound h trivial
        (Ws.Steps.step_cases hhub) ?_ (by simp)
      by_cases hwv : w = v
      · subst hwv
        have hij : i ≠ j := by
          rintro rfl
          rw [h.conn] at hfree
          cases hfree.2
        rw [Function.update_self, Function.update_of_ne hij]
        exact h.conn
      · rw [Function.update_of_ne hwv]
        exact h.conn
    next => cases hstep
  | page v l => exact kept_page hinv hbound h hharmless (page_cases hstep)
  | reads b =>
    simp only [step] at hstep
    split at hstep
    next m rest hup =>
      obtain ⟨hub, hhub, rfl⟩ := Option.map_eq_some_iff.mp hstep
      have hcases := Ws.Steps.step_cases hhub
      have hreads := comes_reads hinv.hub hcases hup
      refine kept_by_hub (l := .readMessage b m) _ hac hinv.hub hbound h trivial hcases h.conn
        (fun d => ?_) (fun d m' hl => by cases hl) (fun _ => hreads a) fun hl => by cases hl
      rw [hreads d]
    next => cases hstep
  | hub l =>
    have hown (hread : ∀ b m, l ≠ .readMessage b m)
        (hstep : (Ws.Hub.step s.hub l).map (fun hub => { s with hub }) = some t) :
        Keeps wire a c w i s t [] := by
      obtain ⟨hub, hhub, rfl⟩ := Option.map_eq_some_iff.mp hstep
      exact kept_own hac hinv.hub hbound h hharmless (Ws.Steps.step_cases hhub) h.conn hread
    simp only [step] at hstep
    split at hstep
    · cases hstep
    · cases hstep
    · cases hstep
    next hupgrade hread hmarshal => exact hown (fun b m heq => hread b m heq) hstep

/-- A step that comes while nothing ends the two connections and the page has no second socket. -/
def Lasting (a c : κ) (w : ω) (i : Nat) (s : State κ β ω ε) (lab : Label κ β ω ε) : Prop :=
  OwnCloses s lab ∧ Harmless a c w i s lab

instance (s : State κ β ω ε) (lab : Label κ β ω ε) : Decidable (Lasting a c w i s lab) :=
  inferInstanceAs (Decidable (OwnCloses s lab ∧ Harmless a c w i s lab))

theorem bound_run {ls : List (Label κ β ω ε)} (hrun : (pipeline wire cfg).run ls = some s) :
    Bound s := by
  have hinit : Bound (initial : State κ β ω ε) :=
    ⟨fun _ _ _ hb => (nomatch hb), fun _ _ _ _ _ hb => (nomatch hb), fun _ => Nat.le_refl _⟩
  exact run_keeps hinit (fun _ _ _ h hstep => h.step (step_cases hstep)) hrun

/-- Nothing is lost while the connections last: the page has shown or will be shown all that it
would have been and all that was put since, once and in this order. -/
theorem nothing_lost {before after : List (Label κ β ω ε)}
    (hbefore : (pipeline wire cfg).run before = some s)
    (hown : (pipeline wire cfg).Meets OwnCloses initial before)
    (hafter : (pipeline wire cfg).runFrom s after = some t) (hac : a ≠ c)
    (hsteady : Steady wire a c w i s)
    (hlasting : (pipeline wire cfg).Meets (Lasting a c w i) s after) :
    Steady wire a c w i t ∧ t.shown w ++ t.underWay wire a c =
      s.shown w ++ s.underWay wire a c ++ wire.clear (after.flatMap putBy) := by
  have hinv := inv_run hbefore hown
  have hbound := bound_run hbefore
  clear hbefore hown
  induction after generalizing s with
  | nil =>
    cases hafter
    exact ⟨hsteady, by simp⟩
  | cons lab after ih =>
    obtain ⟨m, hstep, hrest⟩ := runFrom_cons.mp hafter
    obtain ⟨⟨hown, hharmless⟩, hlasting⟩ := (meets_cons hstep).mp hlasting
    obtain ⟨hkept, htotal⟩ := kept_step hac hinv hbound hsteady hharmless hstep
    have hcases := step_cases hstep
    obtain ⟨hlast, hall⟩ := ih hrest hkept hlasting (hinv.step hcases hown) (hbound.step hcases)
    refine ⟨hlast, ?_⟩
    unfold State.total at htotal
    rw [hall, htotal, List.flatMap_cons, clear_append]
    simp only [List.append_assoc]

end

/-- One event is put and shown after both have joined. -/
theorem nothing_lost_joined : ∃ s t : State (Fin 4) Unit Unit Bool,
    (pipeline twoTexts WebSocket.defaults).run joined = some s ∧
      (pipeline twoTexts WebSocket.defaults).runFrom s oneEvent = some t ∧
      t.shown () = [true] ∧
      t.shown () ++ t.underWay twoTexts 0 1 = s.shown () ++ s.underWay twoTexts 0 1 ++ [true] := by
  let s : State (Fin 4) Unit Unit Bool :=
    ((pipeline twoTexts WebSocket.defaults).run joined).get (by decide)
  have hrun : (pipeline twoTexts WebSocket.defaults).run joined = some s :=
    (Option.some_get _).symm
  have hsteady : Steady twoTexts 0 1 () 0 s :=
    ⟨by decide, trivial, by decide, ⟨by decide, trivial, by decide, by decide,
      fun d hd => by rcases hd with rfl | rfl <;> trivial⟩, by decide, by decide, by decide⟩
  have hends : ((pipeline twoTexts WebSocket.defaults).runFrom s oneEvent).map (·.shown ()) =
      some [true] := by decide
  obtain ⟨t, hafter, hshown⟩ := Option.map_eq_some_iff.mp hends
  exact ⟨s, t, hrun, hafter, hshown,
    (nothing_lost hrun (by decide) hafter (by decide) hsteady (by decide)).2⟩

end LearnPg.Pipeline
