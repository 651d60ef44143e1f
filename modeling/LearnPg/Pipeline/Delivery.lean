import LearnPg.Basis.Merging
import LearnPg.Pipeline.Steps

/-! Events reach a page at most as often as they were put, and those of one connection of the
collector in their order, as long as the close events of the page's sockets are their own. -/
namespace LearnPg.Pipeline

open Basis.Channel Basis.Merging Basis.Runs Ws.Hub Ws.Steps Ws.Fanout Ws.Copies Ws.Writer
open Collector Frontend

/-! The sender. -/

section

variable {ε : Type} {sent : List ε} {st st' : Sender.State ε}

/-- What was sent and what is in the task's hand are in what it has taken from the channel. -/
structure Sends (sent : List ε) (st : Sender.State ε) : Prop where
  order : st.put = st.taken ++ st.rx.queue
  sent : (sent ++ st.phase.inHand).Sublist st.taken

theorem Sends.phase {phase : Sender.Phase ε} (h : Sends sent st)
    (hphase : phase.inHand.Sublist st.phase.inHand) : Sends sent { st with phase } :=
  ⟨h.order, ((List.Sublist.refl _).append hphase).trans h.sent⟩

theorem Sends.step {l : Sender.Label ε} (h : Sends sent st) (hstep : Sender.step st l = some st') :
    Sends sent st' := by
  obtain ⟨horder, hsent⟩ := h
  unfold Sender.step at hstep
  cases l with
  | put event =>
    dsimp only at hstep
    split at hstep
    next rx hoffer =>
      cases hstep
      obtain ⟨-, rfl⟩ := offer_sent hoffer
      exact ⟨by rw [horder, List.append_assoc], hsent⟩
    next => cases hstep
  | close =>
    dsimp only at hstep
    split at hstep
    next rx hclose =>
      cases hstep
      have hqueue : rx.queue = st.rx.queue := by
        unfold Chan.close at hclose
        split at hclose
        · cases hclose
        · cases hclose
          rfl
      exact ⟨by rw [hqueue, horder], hsent⟩
    next => cases hstep
  | connects | connectFails | awakes | sends | sendFails =>
    dsimp only at hstep
    split at hstep
    next hphase =>
      cases hstep
      refine ⟨horder, List.Sublist.trans ?_ hsent⟩
      exact (List.Sublist.refl _).append (List.nil_sublist _)
    next => cases hstep
  | frame =>
    dsimp only at hstep
    split at hstep
    next =>
      cases hstep
      exact ⟨horder, hsent⟩
    next => cases hstep
  | takes =>
    dsimp only at hstep
    split at hstep
    next event rx hphase hreceive =>
      cases hstep
      have hqueue := Sender.receive_queue hreceive
      refine ⟨?_, ?_⟩
      · rw [horder, hqueue, List.append_assoc]
        rfl
      · rw [hphase] at hsent
        have hbefore : sent.Sublist st.taken := (List.sublist_append_left _ _).trans hsent
        exact hbefore.append (List.Sublist.refl [event])
    next rx hphase hreceive =>
      cases hstep
      have hqueue := Sender.receive_queue hreceive
      rw [hphase] at hsent
      exact ⟨by rw [horder, hqueue]; rfl, hsent⟩
    next => cases hstep

theorem Sends.send {l : Sender.Label ε} {e : ε} (h : Sends sent st)
    (hphase : st.phase = .sending e) (hstep : Sender.step st l = some st')
    (hl : l = .sends ∨ l = .sendFails) : Sends (sent ++ [e]) st' := by
  have hsent := h.sent
  rw [hphase] at hsent
  unfold Sender.step at hstep
  rcases hl with rfl | rfl
  all_goals
    simp only [hphase] at hstep
    cases hstep
    exact ⟨h.order, by simpa [Sender.Phase.inHand] using hsent⟩

end

/-! The hub. -/

section

variable {κ β : Type} [DecidableEq κ] {s t : Ws.Hub.State κ β} {l : Ws.Hub.Label κ β} {a b c : κ}

theorem due_idle (h : Ws.Closing.Inv s) (hidle : s.serveWs b = .idle) : due a b s = [] := by
  unfold due
  split
  next m todo hread =>
    refine if_neg fun hb => ?_
    have hserved := (h.members b ((h.forwarding a m todo hread).2 hb)).1
    rw [hidle] at hserved
    cases hserved
  next => rfl

/-- What holds of the hub all along, when nobody broadcasts. -/
structure Sound (s : Ws.Hub.State κ β) : Prop where
  closing : Ws.Closing.Inv s
  started : ∀ c, Started c s
  quiet : Quiet s
  fresh : ∀ c, s.serveWs c = .idle → onWay c s = []

theorem sound_newHub : Sound (newHub : Ws.Hub.State κ β) where
  closing := Ws.Closing.inv_newHub
  started := fun _ => ⟨fun h => absurd rfl h, fun h => absurd rfl h⟩
  quiet := ⟨rfl, id, fun _ _ h => by cases h⟩
  fresh := fun _ _ => rfl

variable [DecidableEq β]

theorem idle_step (hstep : Ws.Steps.Step s l t) (hidle : t.serveWs c = .idle) :
    s.serveWs c = .idle := by
  cases hstep with
  | @upgrade d ok hserve =>
    by_cases hdc : c = d
    · rw [hdc]
      exact hserve
    · simpa [Function.update_of_ne hdc] using hidle
  | @register d _ _ =>
    by_cases hdc : c = d
    · subst hdc
      simp at hidle
    · simpa [Function.update_of_ne hdc] using hidle
  | remove | evict | closeClient => rwa [(drop_frame _ _).2.2.1] at hidle
  | @writeClose d wrote => cases wrote <;> exact hidle
  | _ => exact hidle

theorem Sound.step (h : Sound s) (hstep : Ws.Steps.Step s l t)
    (hl : ∀ b data, l ≠ .marshal b data) : Sound t := by
  refine ⟨h.closing.step hstep, fun c => (h.started c).step hstep,
    h.quiet.step hstep fun b data => hl b (some data), fun c hidle => ?_⟩
  have hbefore := idle_step hstep hidle
  have hway := h.fresh c hbefore
  have hdue (a : κ) : due a c s = [] := due_idle h.closing hbefore
  cases moves_step (b := c) h.quiet.run h.started hstep with
  | rests way hands => rw [way, hway]
  | loses label way hands => exact List.sublist_nil.mp (hway ▸ way)
  | ends writing closed way hands =>
    have hserved := (h.started c).writePump (by rw [writing]; nofun)
    rw [hbefore] at hserved
    cases hserved
  | begins a m label received member way hand hands => rw [way, hway]
  | puts a m way before hand hands =>
    rw [hdue a] at before
    cases before
  | skips a why way hand hands => rw [way, hway]

end

/-! The pages. -/

section

variable {κ β ω ε : Type} [DecidableEq κ] {wire : Wire ε} {s t : State κ β ω ε} {w : ω} {b c : κ}

def Wire.events (wire : Wire ε) (ms : List Message) : List ε := ms.filterMap wire.shows

@[simp] theorem events_append (ms ms' : List Message) :
    wire.events (ms ++ ms') = wire.events ms ++ wire.events ms' :=
  List.filterMap_append

theorem events_sublist (wire : Wire ε) {ms ms' : List Message} (h : ms.Sublist ms') :
    (wire.events ms).Sublist (wire.events ms') :=
  h.filterMap _

def coming (wire : Wire ε) (s : State κ β ω ε) (a : κ) : List ε :=
  wire.events (holding a s.hub ++ s.up a)

/-- The events of `a` that may still come to `b`. -/
def awaited (wire : Wire ε) (s : State κ β ω ε) (b a : κ) : List ε :=
  wire.events (due a b s.hub) ++ coming wire s a

def unread (wire : Wire ε) (s : State κ β ω ε) (b : κ) : List ε :=
  wire.events ((onWay b s.hub).drop (s.got b))

/-- What a page shows was sent, and together with what is on its way to its live socket each
connection's events are in their order. -/
structure Page (wire : Wire ε) (s : State κ β ω ε) (w : ω) : Prop where
  single : WebSocket.Single (s.pages w)
  made : ∀ i c, s.conn w i = some c → i < (s.pages w).sockets.length
  shown : Merges (coming wire s) (part · s.sent) (s.shown w)
  live : ∀ i c, (s.pages w).live i = true → s.conn w i = some c →
    Merges (awaited wire s c) (part · s.sent) (s.shown w ++ unread wire s c)
  store : s.store w = (s.shown w).rtake EventStore.maxEvents

theorem events_drop_concat (ms : List Message) (m : Message) (n : Nat) :
    (wire.events ((ms ++ [m]).drop n)).Sublist (wire.events (ms.drop n) ++ wire.events [m]) := by
  rw [← events_append, List.drop_append]
  exact events_sublist wire ((List.Sublist.refl _).append (List.drop_sublist _ _))

/-- What pages show of events. -/
def Wire.clear (wire : Wire ε) (es : List ε) : List ε := es.filter fun e => !wire.isPing e

@[simp] theorem clear_append (es es' : List ε) :
    wire.clear (es ++ es') = wire.clear es ++ wire.clear es' :=
  List.filter_append ..

@[simp] theorem clear_nil : wire.clear [] = [] := rfl

theorem events_encode (e : ε) : wire.events [wire.encode e] = wire.clear [e] := by
  cases h : wire.isPing e <;> simp [Wire.events, Wire.clear, wire.shows_encode, h]

def goesOut (wire : Wire ε) (c : κ) (e : ε) (a : κ) : List ε :=
  if a = c then wire.clear [e] else []

theorem coming_send (wire : Wire ε) (s : State κ β ω ε) (c : κ) (e : ε) :
    coming wire (s.send wire c e) = fun a => coming wire s a ++ goesOut wire c e a := by
  funext a
  by_cases hac : a = c
  · subst hac
    simp [coming, State.send, State.post, goesOut, events_encode]
  · simp [coming, State.send, State.post, goesOut, hac]

theorem awaited_send (wire : Wire ε) (s : State κ β ω ε) (b c : κ) (e : ε) :
    awaited wire (s.send wire c e) b = fun a => awaited wire s b a ++ goesOut wire c e a := by
  funext a
  unfold awaited
  rw [coming_send, List.append_assoc]
  rfl

theorem Page.send (h : Page wire s w) (e : ε) : Page wire (s.send wire c e) w := by
  let out (a : κ) : List ε := if a = c then [e] else []
  have hsent : (part · (s.send wire c e).sent) = fun a => part a s.sent ++ out a := by
    funext a
    by_cases hac : a = c
    · subst hac
      simp [State.send, State.post, out]
    · simp [State.send, State.post, out, hac, part_ne (Ne.symm hac)]
  have hout (a : κ) : (goesOut wire c e a).Sublist (out a) := by
    unfold goesOut out
    split
    · exact List.filter_sublist
    · exact List.Sublist.refl _
  refine ⟨h.single, h.made, ?_, fun i b hi hb => ?_, h.store⟩
  · rw [coming_send, hsent]
    exact (h.shown.grow out).fewer fun a => (List.Sublist.refl _).append (hout a)
  · rw [awaited_send, hsent]
    exact ((h.live i b hi hb).grow out).fewer fun a => (List.Sublist.refl _).append (hout a)

theorem coming_post (wire : Wire ε) (s : State κ β ω ε) (c : κ) :
    coming wire (s.post c wire.ping) = coming wire s := by
  funext a
  by_cases hac : a = c
  · subst hac
    simp [coming, State.post, Wire.events, wire.shows_ping]
  · simp [coming, State.post, hac]

theorem awaited_post (wire : Wire ε) (s : State κ β ω ε) (b c : κ) :
    awaited wire (s.post c wire.ping) b = awaited wire s b := by
  funext a
  unfold awaited
  rw [coming_post]
  rfl

theorem Page.post (h : Page wire s w) : Page wire (s.post c wire.ping) w := by
  refine ⟨h.single, h.made, ?_, fun i b hi hb => ?_, h.store⟩
  · rw [coming_post]
    exact h.shown
  · rw [awaited_post]
    exact h.live i b hi hb

theorem Page.connect [DecidableEq ω] {v : ω} {i : Nat} (h : Page wire s w)
    (hi : i < (s.pages v).sockets.length) (hway : onWay c s.hub = [])
    (hdue : ∀ a, due a c s.hub = []) :
    Page wire
      { s with conn := Function.update s.conn v (Function.update (s.conn v) i (some c)) } w := by
  by_cases hwv : w = v
  · subst hwv
    refine ⟨h.single, fun j d hd => ?_, h.shown, fun j d hj hd => ?_, h.store⟩
    · dsimp only at hd
      rw [Function.update_self] at hd
      by_cases hji : j = i
      · rw [hji]
        exact hi
      · exact h.made j d (by rwa [Function.update_of_ne hji] at hd)
    · dsimp only at hd
      rw [Function.update_self] at hd
      by_cases hji : j = i
      · subst hji
        rw [Function.update_self, Option.some.injEq] at hd
        subst hd
        have hunread : unread wire s c = [] := by
          simp [unread, hway, Wire.events]
        have hawaited : awaited wire s c = coming wire s := by
          funext a
          simp [awaited, hdue, Wire.events]
        change Merges (awaited wire s c) _ (s.shown w ++ unread wire s c)
        rw [hunread, hawaited, List.append_nil]
        exact h.shown
      · exact h.live j d hj (by rwa [Function.update_of_ne hji] at hd)
  · refine ⟨h.single, fun j d hd => h.made j d ?_, h.shown, fun j d hj hd => h.live j d hj ?_,
      h.store⟩
    · dsimp only at hd
      rwa [Function.update_of_ne hwv] at hd
    · dsimp only at hd
      rwa [Function.update_of_ne hwv] at hd

theorem Page.page [DecidableEq ω] {v : ω} {q : WebSocket.State} (h : Page wire s w)
    (hgrows : Grows (s.pages v) q) (hsingle : WebSocket.Single q) :
    Page wire { s with pages := Function.update s.pages v q } w := by
  by_cases hwv : w = v
  · subst hwv
    refine ⟨?_, fun i d hd => ?_, h.shown, fun i d hi hd => h.live i d ?_ hd, h.store⟩
    · dsimp only
      rw [Function.update_self]
      exact hsingle
    · dsimp only
      rw [Function.update_self]
      exact Nat.lt_of_lt_of_le (h.made i d hd) hgrows.length
    · dsimp only at hi
      rw [Function.update_self] at hi
      exact (hgrows.live i hi).resolve_right (Nat.not_le_of_lt (h.made i d hd))
  · refine ⟨?_, fun i d hd => ?_, h.shown, fun i d hi hd => h.live i d ?_ hd, h.store⟩
    · dsimp only
      rw [Function.update_of_ne hwv]
      exact h.single
    · dsimp only
      rw [Function.update_of_ne hwv]
      exact h.made i d hd
    · dsimp only at hi
      rwa [Function.update_of_ne hwv] at hi

theorem Page.got (h : Page wire s w) :
    Page wire { s with got := Function.update s.got c (s.got c + 1) } w := by
  refine ⟨h.single, h.made, h.shown, fun i d hi hd => (h.live i d hi hd).sublist ?_, h.store⟩
  refine (List.Sublist.refl _).append ?_
  unfold unread
  dsimp only
  by_cases hdc : d = c
  · subst hdc
    rw [Function.update_self]
    exact events_sublist wire (List.drop_sublist_drop_left _ (Nat.le_succ _))
  · rw [Function.update_of_ne hdc]

theorem Page.show [DecidableEq ω] {v : ω} {i : Nat} {m : Message} {e : ε} (h : Page wire s w)
    (hlive : (s.pages v).live i = true) (hconn : s.conn v i = some c)
    (hm : (texts (s.hub.wire c))[s.got c]? = some m) (he : wire.shows m = some e) :
    Page wire ({ s with got := Function.update s.got c (s.got c + 1) }.show v (some e)) w := by
  by_cases hwv : w = v
  · subst hwv
    have hunread : unread wire s c = e :: wire.events ((onWay c s.hub).drop (s.got c + 1)) := by
      obtain ⟨hlt, hget⟩ := List.getElem?_eq_some_iff.mp hm
      unfold unread onWay
      rw [List.drop_append_of_le_length (Nat.le_of_lt hlt), List.drop_eq_getElem_cons hlt, hget,
        List.drop_append_of_le_length hlt]
      exact List.filterMap_cons_some he
    have hread := h.live i c hlive hconn
    refine ⟨h.single, h.made, ?_, fun j d hj hd => ?_, ?_⟩
    · simp only [State.show, Function.update_self]
      refine (hread.sublist ?_).fewer fun a => List.sublist_append_right _ _
      rw [hunread]
      exact (List.Sublist.refl _).append (List.cons_sublist_cons.mpr (List.nil_sublist _))
    · -- the page has no other live socket
      have hji : j = i := Option.some_inj.mp ((h.single j hj).symm.trans (h.single i hlive))
      subst hji
      obtain rfl := Option.some_inj.mp (hconn.symm.trans hd)
      have hrest : unread wire
          ({ s with got := Function.update s.got c (s.got c + 1) }.show w (some e)) c =
          wire.events ((onWay c s.hub).drop (s.got c + 1)) := by
        simp [unread, State.show]
      rw [hrest]
      simp only [State.show, Function.update_self]
      rw [List.append_assoc]
      rw [hunread] at hread
      exact hread
    · simp only [State.show, Function.update_self]
      rw [h.store]
      exact EventStore.step_rtake (s.shown w) (.addEvent e)
  · have hgot := h.got (c := c)
    have hshown :
        ({ s with got := Function.update s.got c (s.got c + 1) }.show v (some e)).shown w =
          s.shown w := by
      simp [State.show, Function.update_of_ne hwv]
    refine ⟨hgot.single, hgot.made, ?_, fun j d hj hd => ?_, ?_⟩
    · rw [hshown]
      exact hgot.shown
    · rw [hshown]
      exact hgot.live j d hj hd
    · rw [hshown]
      simp only [State.show, Function.update_of_ne hwv]
      exact hgot.store

variable [DecidableEq β]

/-- What a client may still get does not grow by a step of the hub whose messages were on their
way to it. -/
theorem awaited_hub (wire : Wire ε) {l : Ws.Hub.Label κ β} {hub : Ws.Hub.State κ β}
    {up : κ → List Message} (hsound : Sound s.hub) (hstep : Ws.Steps.Step s.hub l hub)
    (hcoming : ∀ a, (holding a hub ++ up a).Sublist (holding a s.hub ++ s.up a))
    (hbegins : ∀ a m, l = .rlockRead a → s.hub.readPump a = .received m →
      (m :: (holding a hub ++ up a)).Sublist (holding a s.hub ++ s.up a)) (a b : κ) :
    (awaited wire { s with hub, up } b a).Sublist (awaited wire s b a) := by
  have hless (a : κ) : (coming wire { s with hub, up } a).Sublist (coming wire s a) :=
    events_sublist wire (hcoming a)
  have hsame {a : κ} (hdue : due a b hub = due a b s.hub) :
      (awaited wire { s with hub, up } b a).Sublist (awaited wire s b a) := by
    unfold awaited
    rw [hdue]
    exact (List.Sublist.refl _).append (hless a)
  have hnone {a : κ} (hdue : due a b hub = []) :
      (awaited wire { s with hub, up } b a).Sublist (awaited wire s b a) := by
    unfold awaited
    rw [hdue]
    exact (hless a).trans (List.sublist_append_right _ _)
  cases moves_step (b := b) hsound.quiet.run hsound.started hstep with
  | rests way hands => exact hsame (hands a)
  | loses label way hands => exact hsame (hands a)
  | ends writing closed way hands => exact hsame (hands a)
  | begins c m label received member way hand hands =>
    by_cases hac : a = c
    · subst hac
      have hall := events_sublist wire (hbegins a m label received)
      rw [← List.singleton_append, events_append] at hall
      unfold awaited
      rw [hand]
      exact hall.trans (List.sublist_append_right _ _)
    · exact hsame (hands a hac)
  | puts c m way before hand hands | skips c why way hand hands =>
    by_cases hac : a = c
    · subst hac
      exact hnone hand
    · exact hsame (hands a hac)

theorem Page.hub {l : Ws.Hub.Label κ β} {hub : Ws.Hub.State κ β} {up : κ → List Message}
    (h : Page wire s w) (hsound : Sound s.hub) (hstep : Ws.Steps.Step s.hub l hub)
    (hcoming : ∀ a, (holding a hub ++ up a).Sublist (holding a s.hub ++ s.up a))
    (hbegins : ∀ a m, l = .rlockRead a → s.hub.readPump a = .received m →
      (m :: (holding a hub ++ up a)).Sublist (holding a s.hub ++ s.up a)) :
    Page wire { s with hub, up } w := by
  refine ⟨h.single, h.made, h.shown.fewer fun a => events_sublist wire (hcoming a),
    fun i b hi hb => ?_, h.store⟩
  have hlive := h.live i b hi hb
  have hless (a : κ) := awaited_hub wire hsound hstep hcoming hbegins a b
  have hunread (hway : onWay b hub = onWay b s.hub) :
      unread wire { s with hub, up } b = unread wire s b := by
    unfold unread
    rw [hway]
  cases moves_step (b := b) hsound.quiet.run hsound.started hstep with
  | rests way hands =>
    rw [hunread way]
    exact hlive.fewer hless
  | loses label way hands =>
    refine (hlive.sublist ?_).fewer hless
    exact (List.Sublist.refl _).append (events_sublist wire (way.drop _))
  | ends writing closed way hands =>
    refine (hlive.sublist ?_).fewer hless
    refine (List.Sublist.refl _).append ?_
    unfold unread
    rw [way]
    refine (events_drop_concat _ _ _).trans ?_
    simp [Wire.events, wire.shows_nil]
  | begins a m label received member way hand hands =>
    rw [hunread way]
    exact hlive.fewer hless
  | puts a m way before hand hands =>
    have hput : Merges (awaited wire { s with hub, up } b) (part · s.sent)
        (s.shown w ++ unread wire s b ++ wire.events [m]) := by
      refine hlive.take a (wire.events [m]) ?_ fun d _ => hless d
      unfold awaited
      rw [hand, before]
      exact (List.Sublist.refl _).append (events_sublist wire (hcoming a))
    refine hput.sublist ?_
    rw [List.append_assoc]
    refine (List.Sublist.refl _).append ?_
    unfold unread
    rw [way]
    exact events_drop_concat _ _ _
  | skips a why way hand hands =>
    rw [hunread way]
    exact hlive.fewer hless

theorem comes {l : Ws.Hub.Label κ β} {h h' : Ws.Hub.State κ β} (hsound : Sound h)
    (hstep : Ws.Steps.Step h l h') (hread : ∀ c m, l ≠ .readMessage c m) (a : κ) :
    (holding a h').Sublist (holding a h) ∧
      ∀ m, l = .rlockRead a → h.readPump a = .received m →
        holding a h = [m] ∧ holding a h' = [] := by
  cases reads_step (hsound.started a) hstep with
  | rests held other unread =>
    refine ⟨by rw [held], fun m hl hm => ?_⟩
    have hheld : holding a h = [m] := by
      unfold holding
      rw [hm]
    rcases other with hne | hnil
    · rw [hl] at hne
      exact absurd rfl hne
    · rw [hheld] at hnil
      cases hnil
  | reads m label => exact absurd label (hread a m)
  | hands m label before after =>
    refine ⟨by rw [after]; exact List.nil_sublist _, fun m' hl hm => ⟨?_, after⟩⟩
    unfold holding
    rw [hm]

theorem Page.hub_own {l : Ws.Hub.Label κ β} {hub : Ws.Hub.State κ β} (h : Page wire s w)
    (hsound : Sound s.hub) (hstep : Ws.Steps.Step s.hub l hub)
    (hread : ∀ c m, l ≠ .readMessage c m) : Page wire { s with hub } w := by
  have hcomes := comes hsound hstep hread
  refine @Page.hub _ _ _ _ _ _ _ _ _ _ _ s.up h hsound hstep (fun a => ?_) fun a m hl hm => ?_
  · exact (hcomes a).1.append (List.Sublist.refl _)
  · obtain ⟨hbefore, hafter⟩ := (hcomes a).2 m hl hm
    rw [hbefore, hafter]
    exact List.Sublist.refl _

theorem comes_reads {hub : Ws.Hub.State κ β} {m : Message} {rest : List Message}
    (hsound : Sound s.hub) (hstep : Ws.Steps.Step s.hub (.readMessage c m) hub)
    (hup : s.up c = m :: rest) (a : κ) :
    holding a hub ++ Function.update s.up c rest a = holding a s.hub ++ s.up a := by
  cases reads_step (hsound.started a) hstep with
  | rests held other unread =>
    have hac : a ≠ c := by
      rintro rfl
      exact unread m rfl
    rw [held, Function.update_of_ne hac]
  | reads m' label before after =>
    cases label
    rw [before, after, Function.update_self, hup]
    rfl
  | hands m' label => cases label

theorem Page.reads {hub : Ws.Hub.State κ β} {m : Message} {rest : List Message}
    (h : Page wire s w) (hsound : Sound s.hub) (hstep : Ws.Steps.Step s.hub (.readMessage c m) hub)
    (hup : s.up c = m :: rest) : Page wire { s with hub, up := Function.update s.up c rest } w := by
  refine h.hub hsound hstep (fun a => ?_) fun a m' hl => by cases hl
  rw [comes_reads hsound hstep hup a]

/-! Runs. -/

section

variable [DecidableEq ω] {cfg : WebSocket.Config}

structure Inv (wire : Wire ε) (s : State κ β ω ε) : Prop where
  hub : Sound s.hub
  sends : Sends (s.sent.map Prod.snd) s.collector
  page : ∀ w, Page wire s w

/-- The close event of a page's socket comes while the page has no other live one. -/
def OwnCloses (s : State κ β ω ε) : Label κ β ω ε → Prop
  | .page w l => WebSocket.OwnClose (s.pages w) l
  | _ => True

instance (s : State κ β ω ε) (lab : Label κ β ω ε) : Decidable (OwnCloses s lab) :=
  match lab with
  | .page w l => inferInstanceAs (Decidable (WebSocket.OwnClose (s.pages w) l))
  | .dial .. | .collector _ | .breaks _ | .request .. | .reads _ | .hub _ => .isTrue trivial

omit [DecidableEq β] [DecidableEq ω] in
theorem inv_initial : Inv wire (initial : State κ β ω ε) where
  hub := sound_newHub
  sends := ⟨rfl, List.Sublist.refl _⟩
  page := fun _ => {
    single := fun _ h => nomatch h
    made := fun _ _ h => nomatch h
    shown := merges_nil fun _ => List.Sublist.refl _
    live := fun _ _ h => nomatch h
    store := (List.rtake_nil _).symm }

theorem Inv.step {lab : Label κ β ω ε} (h : Inv wire s) (hstep : Step wire cfg s lab t)
    (hown : OwnCloses s lab) : Inv wire t := by
  have hpage {v : ω} {l : WebSocket.Label} {q : WebSocket.State} (hlab : lab = .page v l)
      (hq : WebSocket.step cfg (s.pages v) l = some q) (w : ω) :
      Page wire { s with pages := Function.update s.pages v q } w := by
    subst hlab
    exact (h.page w).page (grows_step hq)
      ((WebSocket.single_step (h.page v).single hq).mpr hown)
  cases hstep with
  | sender hstep =>
    refine ⟨h.hub, h.sends.step hstep, fun w => ?_⟩
    obtain ⟨hsingle, hmade, hshown, hlive, hstore⟩ := h.page w
    exact ⟨hsingle, hmade, hshown, hlive, hstore⟩
  | @sends _ l collector link c e hphase hstep hl =>
    refine ⟨h.hub, ?_, fun w => Page.send ?_ e⟩
    · have hsends := h.sends.send hphase hstep hl
      simpa [State.send, State.post] using hsends
    · obtain ⟨hsingle, hmade, hshown, hlive, hstore⟩ := h.page w
      exact ⟨hsingle, hmade, hshown, hlive, hstore⟩
  | @hub _ l hub link hstep hread hmarshal =>
    have hcases := Ws.Steps.step_cases hstep
    refine ⟨h.hub.step hcases hmarshal, h.sends, fun w => ?_⟩
    obtain ⟨hsingle, hmade, hshown, hlive, hstore⟩ := (h.page w).hub_own h.hub hcases hread
    exact ⟨hsingle, hmade, hshown, hlive, hstore⟩
  | reads hup hstep =>
    have hcases := Ws.Steps.step_cases hstep
    exact ⟨h.hub.step hcases (by simp), h.sends, fun w => (h.page w).reads h.hub hcases hup⟩
  | @request _ v i c ok hub hi hstep =>
    have hcases := Ws.Steps.step_cases hstep
    have hsound := h.hub.step hcases (by simp)
    refine ⟨hsound, h.sends, fun w => ?_⟩
    have hown := (h.page w).hub_own h.hub hcases (by simp)
    cases hcases with
    | upgrade hserve =>
      refine hown.connect hi (h.hub.fresh c hserve) fun a => ?_
      have hdue : due a c s.hub = [] := due_idle h.hub.closing hserve
      exact hdue
  | page hstep =>
    cases hstep with
    | page hq => exact ⟨h.hub, h.sends, hpage rfl hq⟩
    | pings hq => exact ⟨h.hub, h.sends, fun w => (hpage rfl hq w).post⟩
    | @message i q c m hq hconn hm =>
      rename_i v
      refine ⟨?_, ?_, fun w => ?_⟩
      · cases wire.shows m <;> exact h.hub
      · cases wire.shows m <;> exact h.sends
      · have hopen := (Option.ite_none_right_eq_some.mp hq).1
        have hlive : (s.pages v).live i = true := by
          simp [WebSocket.State.live, hopen, WebSocket.ReadyState.live]
        have hgrows := grows_step hq
        have hsingle := (WebSocket.single_step (h.page v).single hq).mpr hown
        cases he : wire.shows m with
        | none => exact (h.page w).got.page hgrows hsingle
        | some e => exact ((h.page w).show hlive hconn hm he).page hgrows hsingle

theorem inv_run {ls : List (Label κ β ω ε)} (hrun : (pipeline wire cfg).run ls = some s)
    (hown : (pipeline wire cfg).Meets OwnCloses initial ls) : Inv wire s :=
  runFrom_keeps_of_meets (fun _ _ _ h hcond hstep => h.step (step_cases hstep) hcond)
    inv_initial hown hrun

omit [DecidableEq β] [DecidableEq ω] in
theorem Inv.sent_sublist (h : Inv wire s) : (s.sent.map Prod.snd).Sublist s.collector.put := by
  obtain ⟨horder, hsent⟩ := h.sends
  rw [horder]
  exact ((List.sublist_append_left _ _).trans hsent).trans (List.sublist_append_left _ _)

omit [DecidableEq β] [DecidableEq ω] in
theorem Inv.shown_subperm (h : Inv wire s) (w : ω) : (s.shown w).Subperm s.collector.put :=
  (h.page w).shown.subperm.trans h.sent_sublist.subperm

/-- No page shows an event more often than it was put, each connection of the collector has its
events shown in their order, and the page keeps the last of what it has shown. -/
theorem shown_of_put {ls : List (Label κ β ω ε)} (hrun : (pipeline wire cfg).run ls = some s)
    (hown : (pipeline wire cfg).Meets OwnCloses initial ls) (w : ω) :
    (s.shown w).Subperm s.collector.put ∧
      Merges (fun _ => []) (part · s.sent) (s.shown w) ∧
      (s.sent.map Prod.snd).Sublist s.collector.put ∧
      s.store w = (s.shown w).rtake EventStore.maxEvents := by
  have hinv := inv_run hrun hown
  exact ⟨hinv.shown_subperm w, (hinv.page w).shown.fewer fun _ => List.nil_sublist _,
    hinv.sent_sublist, (hinv.page w).store⟩

end

end

/-- Two events, `\x7b"type":"a"\x7d` and `\x7b"type":"b"\x7d`, and the ping. -/
def twoTexts : Wire Bool where
  isPing _ := false
  encode e := [123, 34, 116, 121, 112, 101, 34, 58, 34, if e then 97 else 98, 34, 125]
  shows m :=
    if m = [123, 34, 116, 121, 112, 101, 34, 58, 34, 97, 34, 125] then some true
    else if m = [123, 34, 116, 121, 112, 101, 34, 58, 34, 98, 34, 125] then some false
    else none
  ping := [123, 34, 116, 121, 112, 101, 34, 58, 34, 112, 105, 110, 103, 34, 125]
  shows_encode := by decide
  shows_ping := by decide
  shows_nil := by decide

/-- The collector connects over 0, the page over 1. -/
def joined : List (Label (Fin 4) Unit Unit Bool) :=
  [.dial 0 true, .hub (.register 0), .hub .lock, .collector .connects, .page () (.mount none),
    .request () 0 1 true, .hub (.register 1), .hub .lock, .page () (.opened 0)]

/-- An event goes to the page over `i` and `c`, and to the collector's own connection. -/
def oneEvent : List (Label (Fin 4) Unit Unit Bool) :=
  [.collector (.put true), .collector .takes, .collector .sends, .reads 0, .hub (.rlockRead 0),
    .hub (.forward 0 0), .hub (.forward 0 1), .hub (.forwarded 0), .hub (.receive 1 true),
    .page () (.message 0)]

theorem shown_of_put_joined : ∃ s : State (Fin 4) Unit Unit Bool,
    (pipeline twoTexts WebSocket.defaults).run (joined ++ oneEvent) = some s ∧
      s.shown () = [true] ∧ (s.shown ()).Subperm s.collector.put := by
  have hends : ((pipeline twoTexts WebSocket.defaults).run (joined ++ oneEvent)).map
      (·.shown ()) = some [true] := by decide
  obtain ⟨s, hrun, hshown⟩ := Option.map_eq_some_iff.mp hends
  exact ⟨s, hrun, hshown, (shown_of_put hrun (by decide) ()).1⟩

/-- The page disconnects and connects, the close event of its first socket comes late, a third
socket is made beside the second, and then an event is put. -/
def lateClose : List (Label (Fin 4) Unit Unit Bool) :=
  [.page () .disconnect, .page () (.connect none), .request () 1 2 true, .hub (.register 2),
    .hub .lock, .page () (.opened 1), .page () (.closed 0), .page () (.reconnect 1 none),
    .request () 2 3 true, .hub (.register 3), .hub .lock, .page () (.opened 2),
    .collector (.put true), .collector .takes, .collector .sends, .reads 0, .hub (.rlockRead 0),
    .hub (.forward 0 2), .hub (.forward 0 3), .hub (.receive 2 true), .hub (.receive 3 true),
    .page () (.message 1), .page () (.message 2)]

theorem lateClose_shows_twice : ∃ s : State (Fin 4) Unit Unit Bool,
    (pipeline twoTexts WebSocket.defaults).run (joined ++ lateClose) = some s ∧
      s.collector.put = [true] ∧ s.shown () = [true, true] := by
  have hends : ((pipeline twoTexts WebSocket.defaults).run (joined ++ lateClose)).map
      (fun s => (s.collector.put, s.shown ())) = some ([true], [true, true]) := by decide
  obtain ⟨s, hrun, hvalues⟩ := Option.map_eq_some_iff.mp hends
  exact ⟨s, hrun, (Prod.mk.inj hvalues).1, (Prod.mk.inj hvalues).2⟩

end LearnPg.Pipeline
