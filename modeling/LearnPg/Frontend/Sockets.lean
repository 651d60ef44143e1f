import LearnPg.Frontend.WebSocket

/-! Which sockets of the hook are open or connecting, and whether one is made after
`disconnect`. -/
namespace LearnPg.Frontend.WebSocket
open LearnPg.Basis.Runs

variable {cfg : Config} {s t : State} {a : Label} {i j : Nat}

theorem scheduleReconnect_sockets (s : State) :
    s.scheduleReconnect.sockets = s.sockets ∧ s.scheduleReconnect.wsRef = s.wsRef := by
  unfold State.scheduleReconnect
  split <;> exact ⟨rfl, rfl⟩

theorem onclose_sockets (cfg : Config) (s : State) :
    (s.onclose cfg).sockets = s.sockets ∧ (s.onclose cfg).wsRef = none := by
  unfold State.onclose
  dsimp only
  split
  · exact ⟨rfl, rfl⟩
  · exact scheduleReconnect_sockets _

/-! Live sockets. -/

theorem live_congr (h : t.sockets = s.sockets) : t.live i = s.live i := by
  unfold State.live
  rw [h]

theorem live_set {ready : ReadyState} (hi : i < s.sockets.length)
    (h : t.sockets = s.sockets.set i ready) :
    t.live j = if j = i then ready.live else s.live j := by
  unfold State.live
  rw [h, List.getElem?_set]
  by_cases hij : i = j
  · rw [if_pos hij, if_pos hij.symm, if_pos hi]
  · rw [if_neg hij, if_neg (Ne.symm hij)]

theorem live_append (h : t.sockets = s.sockets ++ [.connecting]) :
    t.live j = (s.live j || decide (j = s.sockets.length)) := by
  unfold State.live
  rw [h]
  rcases Nat.lt_trichotomy j s.sockets.length with hlt | rfl | hlt
  · rw [List.getElem?_append_left hlt, decide_eq_false (Nat.ne_of_lt hlt), Bool.or_false]
  · simp [ReadyState.live]
  · rw [List.getElem?_eq_none (by simp; omega), List.getElem?_eq_none (by omega),
      decide_eq_false (by omega)]
    rfl

theorem live_modify (h : t.sockets = s.sockets.modify i ReadyState.close) :
    t.live j = (s.live j && decide (j ≠ i)) := by
  unfold State.live
  rw [h, List.getElem?_modify]
  cases s.sockets[j]? with
  | none => rfl
  | some ready =>
    by_cases hij : i = j
    · subst hij
      cases ready <;> simp [ReadyState.close, ReadyState.live]
    · simp [hij, Ne.symm hij]

/-- The only live socket is the one `wsRef` holds. -/
def Single (s : State) : Prop := ∀ i, s.live i = true → s.wsRef = some i

/-- The close event of a socket comes while `wsRef` holds no other live one. -/
def OwnClose (s : State) : Label → Prop
  | .closed i => ∀ j ∈ s.wsRef, s.live j = true → j = i
  | _ => True

instance : Decidable (OwnClose s a) :=
  match a with
  | .closed i => inferInstanceAs (Decidable (∀ j ∈ s.wsRef, s.live j = true → j = i))
  | .mount _ | .connect _ | .disconnect | .reconnect .. | .heartbeat _ | .stale _ | .opened _
  | .message _ | .error _ | .closing _ => .isTrue trivial

theorem Single.mono (h : Single s) (hlive : ∀ i, t.live i = true → s.live i = true)
    (href : t.wsRef = s.wsRef) : Single t :=
  fun i hi => href.trans (h i (hlive i hi))

theorem Single.not_live (h : Single s) (hoccupied : ¬ s.occupied = true) (i : Nat) :
    ¬ s.live i = true := by
  intro hi
  rw [State.occupied, h i hi] at hoccupied
  exact hoccupied hi

theorem Single.connect (h : Single s) (thrown : Option String) : Single (s.connect thrown) := by
  unfold State.connect
  split
  · exact h
  · next hoccupied =>
    cases thrown with
    | some message =>
      obtain ⟨hsockets, hwsRef⟩ := scheduleReconnect_sockets { s with
        shouldReconnect := true
        status := if s.status = .open then .reconnecting else .connecting
        lastError := some ("WebSocket construction failed: " ++ message) }
      exact h.mono (fun i hi => by rwa [live_congr hsockets] at hi) hwsRef
    | none =>
      intro i hi
      rw [live_append rfl, Bool.or_eq_true] at hi
      rcases hi with hi | hi
      · exact absurd hi (h.not_live hoccupied i)
      · rw [of_decide_eq_true hi]

theorem closeRef_live (s : State) (i : Nat) :
    s.closeRef.live i = true → s.live i = true ∧ s.wsRef ≠ some i := by
  unfold State.closeRef
  cases href : s.wsRef with
  | none => exact fun hi => ⟨hi, by simp⟩
  | some k =>
    intro hi
    rw [live_modify rfl, Bool.and_eq_true, decide_eq_true_eq] at hi
    exact ⟨hi.1, fun heq => hi.2 (Option.some_inj.mp heq).symm⟩

theorem Single.disconnect (h : Single s) : Single s.disconnect := by
  intro i hi
  obtain ⟨hlive, hne⟩ := closeRef_live _ i hi
  exact absurd (h i hlive) hne

theorem single_onclose (h : Single s) (hi : i < s.sockets.length)
    (ht : t.sockets = s.sockets.set i .closed) :
    Single (t.onclose cfg) ↔ OwnClose s (.closed i) := by
  obtain ⟨hsockets, hwsRef⟩ := onclose_sockets cfg t
  have hlive (j : Nat) : (t.onclose cfg).live j = true ↔ s.live j = true ∧ j ≠ i := by
    rw [live_congr hsockets, live_set hi ht]
    by_cases hj : j = i
    · simp [hj, ReadyState.live]
    · simp [hj]
  constructor
  · intro hsingle j href hj
    by_contra hne
    have := hsingle j ((hlive j).mpr ⟨hj, hne⟩)
    rw [hwsRef] at this
    contradiction
  · intro hown j hj
    obtain ⟨hj, hne⟩ := (hlive j).mp hj
    exact absurd (hown j (h j hj) hj) hne

theorem Single.set (h : Single s) {before ready : ReadyState} (hi : s.sockets[i]? = some before)
    (hready : ready.live = true → before.live = true) :
    Single { s with sockets := s.sockets.set i ready } := by
  refine h.mono (fun j hj => ?_) rfl
  rw [live_set (List.getElem?_eq_some_iff.mp hi).1 rfl] at hj
  split at hj
  · next heq =>
    rw [heq, State.live, hi]
    exact hready hj
  · exact hj

theorem single_step (h : Single s) (hstep : step cfg s a = some t) :
    Single t ↔ OwnClose s a := by
  cases a with
  | mount thrown | connect thrown =>
    cases hstep
    refine iff_of_true (Single.connect ?_ thrown) trivial
    exact h
  | disconnect =>
    cases hstep
    exact iff_of_true h.disconnect trivial
  | reconnect id thrown =>
    obtain ⟨-, heq⟩ := Option.ite_none_right_eq_some.mp hstep
    cases heq
    refine iff_of_true (Single.connect ?_ thrown) trivial
    exact h
  | heartbeat id =>
    obtain ⟨-, heq⟩ := Option.ite_none_right_eq_some.mp hstep
    cases heq
    exact iff_of_true h trivial
  | stale id =>
    rw [stale_step hstep]
    refine iff_of_true (h.mono (fun i hi => (closeRef_live _ i hi).1) ?_) trivial
    obtain ⟨sockets, heq⟩ := closeRef_eq { s with staleTimer := s.staleTimer.fire id }
    rw [heq]
  | opened i =>
    obtain ⟨hi, heartbeat, stale, rfl⟩ := opened_step hstep
    have hopen : Single { s with sockets := s.sockets.set i .open } := h.set hi fun _ => rfl
    exact iff_of_true hopen trivial
  | message i =>
    obtain ⟨timer, rfl⟩ := message_step hstep
    exact iff_of_true h trivial
  | error i =>
    obtain ⟨-, heq⟩ := Option.ite_none_right_eq_some.mp hstep
    cases heq
    exact iff_of_true h trivial
  | closing i =>
    obtain ⟨hi, heq⟩ := Option.ite_none_right_eq_some.mp hstep
    cases heq
    exact iff_of_true (h.set hi nofun) trivial
  | closed i =>
    obtain ⟨hlt, rfl⟩ := closed_step hstep
    exact single_onclose h hlt rfl

/-! Sockets made after `disconnect`. -/

/-- `connect` does not throw while a reconnect timer is pending, unless it returns before. -/
def Referenced (s : State) : Label → Prop
  | .mount (some _) | .connect (some _) => s.occupied = true ∨ s.reconnectTimer.pending = []
  | _ => True

instance : Decidable (Referenced s a) :=
  match a with
  | .mount (some _) | .connect (some _) => inferInstanceAs
      (Decidable (s.occupied = true ∨ s.reconnectTimer.pending = []))
  | .mount none | .connect none | .disconnect | .reconnect .. | .heartbeat _ | .stale _
  | .opened _ | .message _ | .error _ | .closing _ | .closed _ => .isTrue trivial

structure Quiet (s : State) : Prop where
  owned : s.reconnectTimer.Owned
  disconnected : s.disconnected = true →
    s.reconnectTimer.pending = [] ∧ s.shouldReconnect = false
  strays : s.strays = 0

theorem quiet_rendered : Quiet rendered := ⟨Timer.owned_of_nil rfl, nofun, rfl⟩

theorem Quiet.congr (h : Quiet s) (htimer : t.reconnectTimer = s.reconnectTimer)
    (hdisconnected : t.disconnected = s.disconnected)
    (hshould : t.shouldReconnect = s.shouldReconnect) (hstrays : t.strays = s.strays) :
    Quiet t := by
  refine ⟨htimer ▸ h.owned, fun hd => ?_, hstrays.trans h.strays⟩
  rw [htimer, hshould]
  exact h.disconnected (hdisconnected.symm.trans hd)

theorem quiet_scheduleReconnect (hpending : s.reconnectTimer.pending = [])
    (hdisconnected : s.disconnected = true → s.shouldReconnect = false) (hstrays : s.strays = 0) :
    Quiet s.scheduleReconnect := by
  unfold State.scheduleReconnect
  split
  · next hshould =>
    refine ⟨Timer.owned_set hpending, fun hd => ?_, hstrays⟩
    rw [hdisconnected hd] at hshould
    contradiction
  · exact ⟨Timer.owned_of_nil hpending, fun hd => ⟨hpending, hdisconnected hd⟩, hstrays⟩

theorem quiet_connect {thrown : Option String} (howned : s.reconnectTimer.Owned)
    (hdisconnected : s.disconnected = false) (hstrays : s.strays = 0)
    (hthrown : thrown.isSome → s.occupied = true ∨ s.reconnectTimer.pending = []) :
    Quiet (s.connect thrown) := by
  have hconnected : ¬ s.disconnected = true := by simp [hdisconnected]
  unfold State.connect
  split
  · exact ⟨howned, fun hd => absurd hd hconnected, hstrays⟩
  · next hoccupied =>
    cases thrown with
    | some message =>
      have hpending := (hthrown rfl).resolve_left hoccupied
      exact quiet_scheduleReconnect hpending (fun hd => absurd hd hconnected) hstrays
    | none =>
      refine ⟨howned, fun hd => absurd hd hconnected, ?_⟩
      simp [hstrays, hdisconnected]

theorem onclose_quiet (h : Quiet s) : Quiet (s.onclose cfg) := by
  unfold State.onclose
  dsimp only
  split
  · exact ⟨Timer.owned_of_nil h.owned.clear,
      fun hd => ⟨h.owned.clear, (h.disconnected hd).2⟩, h.strays⟩
  · exact quiet_scheduleReconnect h.owned.clear (fun hd => (h.disconnected hd).2) h.strays

theorem disconnect_quiet (h : Quiet s) : Quiet s.disconnect := by
  obtain ⟨sockets, heq⟩ := closeRef_eq { { s with shouldReconnect := false }.clearTimers with
    status := .closed, lastError := none }
  unfold State.disconnect
  dsimp only
  rw [heq]
  exact ⟨Timer.owned_of_nil h.owned.clear, fun _ => ⟨h.owned.clear, rfl⟩, h.strays⟩

theorem quiet_step (h : Quiet s) (hcond : Referenced s a) (hstep : step cfg s a = some t) :
    Quiet t := by
  cases a with
  | mount thrown | connect thrown =>
    cases hstep
    refine quiet_connect h.owned rfl h.strays fun hthrown => ?_
    cases thrown with
    | none => contradiction
    | some message => exact hcond
  | disconnect =>
    cases hstep
    exact disconnect_quiet h
  | reconnect id thrown =>
    obtain ⟨hid, heq⟩ := Option.ite_none_right_eq_some.mp hstep
    cases heq
    have hfired := h.owned.fire hid
    refine quiet_connect (Timer.owned_of_nil hfired) ?_ h.strays fun _ => .inr hfired
    by_contra hd
    have := (h.disconnected (by simpa using hd)).1
    rw [this] at hid
    contradiction
  | stale id =>
    obtain ⟨sockets, heq⟩ := closeRef_eq { s with staleTimer := s.staleTimer.fire id }
    rw [stale_step hstep, heq]
    exact h.congr rfl rfl rfl rfl
  | opened i =>
    obtain ⟨-, heartbeat, stale, rfl⟩ := opened_step hstep
    exact h.congr rfl rfl rfl rfl
  | message i =>
    obtain ⟨timer, rfl⟩ := message_step hstep
    exact h.congr rfl rfl rfl rfl
  | heartbeat id | error i | closing i =>
    obtain ⟨-, heq⟩ := Option.ite_none_right_eq_some.mp hstep
    cases heq
    exact h.congr rfl rfl rfl rfl
  | closed i =>
    obtain ⟨-, rfl⟩ := closed_step hstep
    exact onclose_quiet (h.congr rfl rfl rfl rfl)

/-- In all states a run goes through the only live socket is the one `wsRef` holds, exactly if
every close event comes while `wsRef` holds no other live socket. And in a run in which
`connect` never throws while a reconnect timer is pending, no socket is made between
`disconnect` and the next call of `connect`. -/
theorem sockets_single_iff (cfg : Config) (as : List Label) (t : State)
    (hrun : (hook cfg).run as = some t) :
    ((∀ bs u, bs <+: as → (hook cfg).run bs = some u → Single u) ↔
        (hook cfg).Meets OwnClose rendered as) ∧
      ((hook cfg).Meets Referenced rendered as → t.strays = 0) := by
  have hsingle : Single rendered := nofun
  refine ⟨reached_iff_meets (fun _ _ _ h => single_step h) hsingle hrun, fun hmeets => ?_⟩
  have hquiet := @runFrom_keeps_of_meets _ _ (hook cfg) Quiet Referenced
    (fun _ _ _ h => quiet_step h) _ _ _ quiet_rendered hmeets hrun
  exact hquiet.strays

/-- The options a call without any gets. -/
def defaults : Config := ⟨0, 25000, 90000⟩

/-- The server closes a socket, the next one is opened, and the user disconnects and connects
once the close event has come. -/
def reconnected : List Label :=
  [.mount none, .opened 0, .message 0, .closing 0, .closed 0, .reconnect 1 none, .opened 1,
    .disconnect, .closed 1, .connect none]

theorem reconnected_single : ∃ t, (hook defaults).run reconnected = some t ∧ t.wsRef = some 2 ∧
    t.strays = 0 ∧
    ∀ bs u, bs <+: reconnected → (hook defaults).run bs = some u → Single u := by
  have hends : ((hook defaults).run reconnected).map State.wsRef = some (some 2) := by decide
  obtain ⟨t, hrun, hwsRef⟩ := Option.map_eq_some_iff.mp hends
  obtain ⟨hsingle, hstrays⟩ := sockets_single_iff defaults reconnected t hrun
  exact ⟨t, hrun, hwsRef, hstrays (by decide), hsingle.mpr (by decide)⟩

/-- The user disconnects and connects before the close event of the first socket comes. -/
def lateClose : List Label :=
  [.mount none, .opened 0, .disconnect, .connect none, .closed 0, .reconnect 1 none]

/-- The late event drops the second socket from `wsRef` and a third one is made beside it. -/
theorem lateClose_two_live : ∃ t, (hook defaults).run lateClose = some t ∧ t.live 1 = true ∧
    t.live 2 = true ∧ ¬ Single t := by
  have hends : ((hook defaults).run lateClose).map (fun t => (t.live 1, t.live 2, t.wsRef)) =
      some (true, true, some 2) := by decide
  obtain ⟨t, hrun, hvalues⟩ := Option.map_eq_some_iff.mp hends
  simp only [Prod.mk.injEq] at hvalues
  obtain ⟨hfirst, hsecond, hwsRef⟩ := hvalues
  refine ⟨t, hrun, hfirst, hsecond, fun h => ?_⟩
  have := hwsRef.symm.trans (h 1 hfirst)
  contradiction

/-- A constructor that throws leaves the earlier timer without a ref; it makes a socket after
`disconnect`. -/
example : ((hook defaults).run [.mount none, .closed 0, .connect (some ""), .disconnect,
    .reconnect 1 none]).map State.strays = some 1 := by decide

end LearnPg.Frontend.WebSocket
