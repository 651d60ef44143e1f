import LearnPg.Frontend.Sockets

/-! How many reconnect attempts the hook makes between two events that restore its budget. -/
namespace LearnPg.Frontend.WebSocket
open LearnPg.Basis.Runs

variable {cfg : Config} {s t : State} {a : Label}

variable (cfg) in
/-- With a cap no more attempts are made than it allows, and the hook gives up only with a cap
and after that many attempts. -/
structure Budgeted (s : State) : Prop where
  made : 0 < cfg.maxReconnectAttempts → s.made ≤ cfg.maxReconnectAttempts
  gaveUp : ∀ made ∈ s.gaveUp, 0 < cfg.maxReconnectAttempts ∧ cfg.maxReconnectAttempts ≤ made

variable (cfg) in
/-- The effect runs with no reconnect timer left, the user connects with the counter at 0, the
constructor throws for a timer only below the cap, and a close event comes neither while `wsRef`
holds another live socket nor while a reconnect timer waits; without a cap all at any time. -/
def Counted (s : State) : Label → Prop
  | .mount _ => cfg.maxReconnectAttempts = 0 ∨ s.reconnectTimer.pending = []
  | .connect _ => cfg.maxReconnectAttempts = 0 ∨ s.attempts = 0
  | .reconnect _ (some _) => cfg.maxReconnectAttempts = 0 ∨ s.attempts < cfg.maxReconnectAttempts
  | .closed i => cfg.maxReconnectAttempts = 0 ∨
    OwnClose s (.closed i) ∧ s.reconnectTimer.pending = []
  | _ => True

instance : Decidable (Counted cfg s a) :=
  match a with
  | .mount _ => inferInstanceAs
      (Decidable (cfg.maxReconnectAttempts = 0 ∨ s.reconnectTimer.pending = []))
  | .connect _ => inferInstanceAs (Decidable (cfg.maxReconnectAttempts = 0 ∨ s.attempts = 0))
  | .reconnect _ (some _) => inferInstanceAs
      (Decidable (cfg.maxReconnectAttempts = 0 ∨ s.attempts < cfg.maxReconnectAttempts))
  | .closed i => inferInstanceAs (Decidable (cfg.maxReconnectAttempts = 0 ∨
      OwnClose s (.closed i) ∧ s.reconnectTimer.pending = []))
  | .disconnect | .reconnect _ none | .heartbeat _ | .stale _ | .opened _ | .message _
  | .error _ | .closing _ => .isTrue trivial

structure Waits (s : State) : Prop where
  one : ∃ id, s.reconnectTimer.ref = some id ∧ s.reconnectTimer.pending = [id]
  should : s.shouldReconnect = true
  dead : ∀ i, ¬ s.live i = true

variable (cfg) in
/-- The counter holds the attempts made and the one that a timer waits for, and is within the
cap. After `disconnect` it may hold more. -/
structure Exact (s : State) : Prop where
  single : Single s
  waits : s.reconnectTimer.pending ≠ [] → Waits s
  made : s.made + s.reconnectTimer.pending.length ≤ s.attempts
  counter : s.shouldReconnect = true → s.made + s.reconnectTimer.pending.length = s.attempts
  within : s.attempts ≤ cfg.maxReconnectAttempts

theorem exact_rendered : Exact cfg rendered :=
  ⟨nofun, fun h => absurd rfl h, Nat.le_refl 0, fun _ => rfl, Nat.zero_le _⟩

theorem Exact.congr (h : Exact cfg s) (hsingle : Single t)
    (hlive : ∀ i, t.live i = true → s.live i = true)
    (htimer : t.reconnectTimer = s.reconnectTimer) (hmade : t.made = s.made)
    (hattempts : t.attempts = s.attempts) (hshould : t.shouldReconnect = s.shouldReconnect) :
    Exact cfg t := by
  obtain ⟨-, hwaits, hle, hcounter, hwithin⟩ := h
  rw [← htimer, ← hmade, ← hattempts] at hle hcounter
  rw [← htimer] at hwaits
  refine ⟨hsingle, fun hpending => ?_, hle, fun hs => hcounter (hshould ▸ hs), hattempts ▸ hwithin⟩
  obtain ⟨hone, hs, hdead⟩ := hwaits hpending
  exact ⟨htimer ▸ hone, hshould ▸ hs, fun i hi => hdead i (hlive i hi)⟩

theorem Exact.owned (h : Exact cfg s) : s.reconnectTimer.Owned := by
  by_cases hpending : s.reconnectTimer.pending = []
  · exact Timer.owned_of_nil hpending
  · obtain ⟨id, href, hone⟩ := (h.waits hpending).one
    refine ⟨fun id' hid => ?_⟩
    rw [hone] at hid
    rw [List.mem_singleton.mp hid, href]

theorem exact_of_idle (hsingle : Single s) (hpending : s.reconnectTimer.pending = [])
    (hmade : s.made ≤ s.attempts) (hcounter : s.shouldReconnect = true → s.made = s.attempts)
    (hwithin : s.attempts ≤ cfg.maxReconnectAttempts) : Exact cfg s := by
  have hlength : s.made + s.reconnectTimer.pending.length = s.made := by
    rw [hpending]
    rfl
  refine ⟨hsingle, fun hp => absurd hpending hp, ?_, ?_, hwithin⟩
  · rwa [hlength]
  · rwa [hlength]

/-- An attempt is counted before it is made. -/
theorem exact_scheduleReconnect (hsingle : Single s) (hdead : ∀ i, ¬ s.live i = true)
    (hpending : s.reconnectTimer.pending = []) (hmade : s.made = s.attempts)
    (hroom : s.attempts < cfg.maxReconnectAttempts) (hshould : s.shouldReconnect = true) :
    Exact cfg s.scheduleReconnect := by
  have hset : s.reconnectTimer.set.pending = [s.reconnectTimer.next] := by
    rw [Timer.set, hpending]
    rfl
  have hcounted : s.made + s.reconnectTimer.set.pending.length = s.attempts + 1 := by
    rw [hset, hmade]
    rfl
  unfold State.scheduleReconnect
  rw [if_pos hshould]
  exact ⟨hsingle, fun _ => ⟨⟨_, rfl, hset⟩, hshould, hdead⟩, Nat.le_of_eq hcounted,
    fun _ => hcounted, hroom⟩

theorem exact_connect (hsingle : Single s) (hpending : s.reconnectTimer.pending = [])
    (hmade : s.made = s.attempts) (hwithin : s.attempts ≤ cfg.maxReconnectAttempts)
    {thrown : Option String} (hroom : thrown.isSome → s.attempts < cfg.maxReconnectAttempts) :
    Exact cfg (s.connect thrown) := by
  have hconnected := hsingle.connect thrown
  unfold State.connect at hconnected ⊢
  split
  · exact exact_of_idle hsingle hpending (Nat.le_of_eq hmade) (fun _ => hmade) hwithin
  next hoccupied =>
    rw [if_neg hoccupied] at hconnected
    cases thrown with
    | none => exact exact_of_idle hconnected hpending (Nat.le_of_eq hmade) (fun _ => hmade) hwithin
    | some message =>
      exact exact_scheduleReconnect hsingle (hsingle.not_live hoccupied) hpending hmade (hroom rfl)
        rfl

/-- What a close event does: the hook stops for good, gives up at the cap, or goes on. -/
inductive Closes (cfg : Config) (s : State) : State → Prop where
  | stopped (h : s.shouldReconnect = false) :
      Closes cfg s { { s with wsRef := none }.clearTimers with status := .closed }
  | gaveUp (h : s.shouldReconnect = true) (hcap : s.atCap cfg = true) :
      Closes cfg s { { s with wsRef := none }.clearTimers with
        status := .closed, gaveUp := s.gaveUp ++ [s.made] }
  | goesOn (h : s.shouldReconnect = true) (hcap : s.atCap cfg = false) :
      Closes cfg s
        { { s with wsRef := none }.clearTimers with status := .reconnecting }.scheduleReconnect

theorem closes_onclose (cfg : Config) (s : State) : Closes cfg s (s.onclose cfg) := by
  unfold State.onclose
  cases hshould : s.shouldReconnect with
  | false => simpa [State.clearTimers, hshould] using Closes.stopped hshould
  | true =>
    cases hcap : s.atCap cfg with
    | true => simpa [State.clearTimers, hshould] using Closes.gaveUp hshould hcap
    | false => simpa [State.clearTimers, hshould] using Closes.goesOn hshould hcap

theorem atCap_iff : s.atCap cfg = true ↔
    0 < cfg.maxReconnectAttempts ∧ cfg.maxReconnectAttempts ≤ s.attempts := decide_eq_true_iff

theorem Exact.closes (h : Exact cfg s) (hcloses : Closes cfg s t) (hdead : ∀ i, ¬ s.live i = true)
    (hpending : s.reconnectTimer.pending = []) (hcap : 0 < cfg.maxReconnectAttempts) :
    Exact cfg t := by
  have hclear : s.reconnectTimer.clear.pending = [] := (Timer.owned_of_nil hpending).clear
  have hmade := h.made
  have hcounter := h.counter
  rw [hpending] at hmade hcounter
  cases hcloses with
  | stopped hshould =>
    refine exact_of_idle (fun i hi => absurd hi (hdead i)) hclear hmade ?_ h.within
    exact hcounter
  | gaveUp hshould hat =>
    refine exact_of_idle (fun i hi => absurd hi (hdead i)) hclear hmade ?_ h.within
    exact hcounter
  | goesOn hshould hbelow =>
    refine exact_scheduleReconnect (fun i hi => absurd hi (hdead i)) hdead hclear
      (hcounter hshould) ?_ hshould
    by_contra hle
    have hat : s.atCap cfg = true := atCap_iff.mpr ⟨hcap, Nat.not_lt.mp hle⟩
    rw [hat] at hbelow
    contradiction

theorem not_live_closed {i : Nat} (h : Single s) (hown : OwnClose s (.closed i))
    (hi : i < s.sockets.length) (j : Nat) :
    ¬ { s with sockets := s.sockets.set i .closed }.live j = true := by
  intro hj
  rw [live_set hi rfl] at hj
  split at hj
  · contradiction
  next hne => exact hne (hown j (h j hj) hj)

theorem not_occupied (hdead : ∀ i, ¬ s.live i = true) : ¬ s.occupied = true := by
  unfold State.occupied
  split
  next i _ => exact hdead i
  next => nofun

/-- The timer's attempt is the one that the counter held and the hook had not made. -/
theorem Exact.fires (h : Exact cfg s) {id : Nat} (hid : id ∈ s.reconnectTimer.pending)
    {thrown : Option String} (hroom : thrown.isSome → s.attempts < cfg.maxReconnectAttempts) :
    Exact cfg ({ s with
      reconnectTimer := s.reconnectTimer.fire id
      made := s.made + if s.occupied then 0 else 1 }.connect thrown) := by
  obtain ⟨⟨id', -, hone⟩, hshould, hdead⟩ := h.waits (List.ne_nil_of_mem hid)
  have hmade : s.made + 1 = s.attempts := by
    have := h.counter hshould
    rwa [hone] at this
  apply exact_connect
  · exact h.single
  · exact h.owned.fire hid
  · change s.made + (if s.occupied = true then 0 else 1) = s.attempts
    rw [if_neg (not_occupied hdead)]
    exact hmade
  · exact h.within
  · exact hroom

theorem Exact.disconnects (h : Exact cfg s) (hsingle : Single s.disconnect) :
    Exact cfg s.disconnect := by
  obtain ⟨sockets, heq⟩ := closeRef_eq { { s with shouldReconnect := false }.clearTimers with
    status := .closed, lastError := none }
  have hle : s.made ≤ s.attempts := Nat.le_trans (Nat.le_add_right _ _) h.made
  unfold State.disconnect at hsingle ⊢
  dsimp only at hsingle ⊢
  rw [heq] at hsingle ⊢
  exact exact_of_idle hsingle h.owned.clear hle nofun h.within

/-- A socket that may open is live, so no timer waits. -/
theorem Exact.idle (h : Exact cfg s) {i : Nat} (hlive : s.live i = true) :
    s.reconnectTimer.pending = [] := by
  by_contra hne
  exact (h.waits hne).dead i hlive

theorem Exact.step (h : Exact cfg s) (hcap : 0 < cfg.maxReconnectAttempts)
    (hcond : Counted cfg s a) (hstep : step cfg s a = some t) : Exact cfg t := by
  have hsingle (hown : OwnClose s a) : Single t := (single_step h.single hstep).mpr hown
  have hnoCap : ¬ cfg.maxReconnectAttempts = 0 := Nat.ne_of_gt hcap
  cases a with
  | mount thrown =>
    cases hstep
    apply exact_connect
    · exact h.single
    · exact hcond.resolve_left hnoCap
    · rfl
    · exact Nat.zero_le _
    · exact fun _ => hcap
  | connect thrown =>
    cases hstep
    have hzero : s.attempts = 0 := hcond.resolve_left hnoCap
    have hpending : s.reconnectTimer.pending = [] := by
      have := h.made
      exact List.eq_nil_of_length_eq_zero (by omega)
    apply exact_connect
    · exact h.single
    · exact hpending
    · exact hzero.symm
    · exact h.within
    · exact fun _ => hzero.symm ▸ hcap
  | disconnect =>
    cases hstep
    exact h.disconnects (hsingle trivial)
  | reconnect id thrown =>
    obtain ⟨hid, heq⟩ := Option.ite_none_right_eq_some.mp hstep
    cases heq
    refine h.fires hid fun hthrown => ?_
    cases thrown with
    | none => contradiction
    | some message => exact hcond.resolve_left hnoCap
  | stale id =>
    have hsingle := hsingle trivial
    obtain ⟨sockets, heq⟩ := closeRef_eq { s with staleTimer := s.staleTimer.fire id }
    have hlive (i : Nat) := closeRef_live { s with staleTimer := s.staleTimer.fire id } i
    rw [stale_step hstep] at hsingle ⊢
    rw [heq] at hsingle hlive ⊢
    exact h.congr hsingle (fun i hi => (hlive i hi).1) rfl rfl rfl rfl
  | opened i =>
    have hsingle := hsingle trivial
    obtain ⟨hi, heartbeat, stale, rfl⟩ := opened_step hstep
    have hlive : s.live i = true := by
      unfold State.live
      rw [hi]
      rfl
    exact exact_of_idle hsingle (h.idle hlive) (Nat.le_refl 0) (fun _ => rfl) (Nat.zero_le _)
  | message i =>
    obtain ⟨timer, rfl⟩ := message_step hstep
    exact h.congr h.single (fun _ hi => hi) rfl rfl rfl rfl
  | heartbeat id | error i =>
    obtain ⟨-, heq⟩ := Option.ite_none_right_eq_some.mp hstep
    cases heq
    exact h.congr h.single (fun _ hi => hi) rfl rfl rfl rfl
  | closing i =>
    have hsingle := hsingle trivial
    obtain ⟨hi, heq⟩ := Option.ite_none_right_eq_some.mp hstep
    cases heq
    refine h.congr hsingle (fun j hj => ?_) rfl rfl rfl rfl
    rw [live_set (List.getElem?_eq_some_iff.mp hi).1 rfl] at hj
    split at hj
    · contradiction
    · exact hj
  | closed i =>
    obtain ⟨hown, hpending⟩ := hcond.resolve_left hnoCap
    obtain ⟨hlt, rfl⟩ := closed_step hstep
    have hdead := not_live_closed h.single hown hlt
    have hclosed : Exact cfg { s with sockets := s.sockets.set i .closed } :=
      h.congr (fun j hj => absurd hj (hdead j)) (fun j hj => absurd hj (hdead j)) rfl rfl rfl rfl
    exact hclosed.closes (closes_onclose cfg _) hdead hpending hcap

theorem connect_gaveUp (s : State) (thrown : Option String) :
    (s.connect thrown).gaveUp = s.gaveUp := by
  unfold State.connect
  split
  · rfl
  · cases thrown with
    | none => rfl
    | some message =>
      dsimp only
      unfold State.scheduleReconnect
      split <;> rfl

/-- The hook gives up only in a close event, and only at the cap. -/
theorem gaveUp_step (hstep : step cfg s a = some t) : t.gaveUp = s.gaveUp ∨
    (∃ i, a = .closed i) ∧ s.shouldReconnect = true ∧ s.atCap cfg = true ∧
      t.gaveUp = s.gaveUp ++ [s.made] := by
  cases a with
  | mount thrown | connect thrown =>
    cases hstep
    exact .inl (connect_gaveUp _ thrown)
  | disconnect =>
    cases hstep
    obtain ⟨sockets, heq⟩ := closeRef_eq { { s with shouldReconnect := false }.clearTimers with
      status := .closed, lastError := none }
    unfold State.disconnect
    dsimp only
    rw [heq]
    exact .inl rfl
  | reconnect id thrown =>
    obtain ⟨-, heq⟩ := Option.ite_none_right_eq_some.mp hstep
    cases heq
    exact .inl (connect_gaveUp _ thrown)
  | stale id =>
    obtain ⟨sockets, heq⟩ := closeRef_eq { s with staleTimer := s.staleTimer.fire id }
    rw [stale_step hstep, heq]
    exact .inl rfl
  | opened i =>
    obtain ⟨-, heartbeat, stale, rfl⟩ := opened_step hstep
    exact .inl rfl
  | message i =>
    obtain ⟨timer, rfl⟩ := message_step hstep
    exact .inl rfl
  | heartbeat id | error i | closing i =>
    obtain ⟨-, heq⟩ := Option.ite_none_right_eq_some.mp hstep
    cases heq
    exact .inl rfl
  | closed i =>
    obtain ⟨-, rfl⟩ := closed_step hstep
    have hcloses := closes_onclose cfg { s with sockets := s.sockets.set i .closed }
    generalize { s with sockets := s.sockets.set i .closed }.onclose cfg = t at hcloses
    cases hcloses with
    | stopped hshould => exact .inl rfl
    | gaveUp hshould hat => exact .inr ⟨⟨i, rfl⟩, hshould, hat, rfl⟩
    | goesOn hshould hbelow =>
      unfold State.scheduleReconnect
      split <;> exact .inl rfl

variable (cfg) in
structure Kept (s : State) : Prop where
  exact : 0 < cfg.maxReconnectAttempts → Exact cfg s
  gaveUp : ∀ made ∈ s.gaveUp, 0 < cfg.maxReconnectAttempts ∧ cfg.maxReconnectAttempts ≤ made

theorem Kept.step (h : Kept cfg s) (hcond : Counted cfg s a) (hstep : step cfg s a = some t) :
    Kept cfg t := by
  refine ⟨fun hcap => (h.exact hcap).step hcap hcond hstep, fun made hmade => ?_⟩
  obtain hsame | ⟨⟨i, rfl⟩, hshould, hat, heq⟩ := gaveUp_step hstep
  · exact h.gaveUp made (hsame ▸ hmade)
  · rw [heq] at hmade
    rcases List.mem_append.mp hmade with hmade | hmade
    · exact h.gaveUp made hmade
    · obtain rfl := List.mem_singleton.mp hmade
      -- at the cap the counter is all attempts, as no timer waits
      obtain ⟨hcap, hreached⟩ := atCap_iff.mp hat
      have hcounted := (h.exact hcap).counter hshould
      obtain ⟨-, hpending⟩ := hcond.resolve_left (Nat.ne_of_gt hcap)
      rw [hpending] at hcounted
      exact ⟨hcap, le_of_le_of_eq hreached hcounted.symm⟩

/-- Between two events that restore the budget the hook makes at most as many attempts as the
cap allows, and gives up only after that many and never without a cap, in every run in which
`connect` is called with the counter at 0, no constructor throws for a timer at the cap, and no
close event comes beside another live socket or a waiting timer. -/
theorem budgeted_of_counted (cfg : Config) (as : List Label) (t : State)
    (hrun : (hook cfg).run as = some t) (hmeets : (hook cfg).Meets (Counted cfg) rendered as) :
    Budgeted cfg t := by
  have hinit : Kept cfg rendered :=
    ⟨fun _ => exact_rendered, fun _ h => absurd h List.not_mem_nil⟩
  have hkept := @runFrom_keeps_of_meets _ _ (hook cfg) (Kept cfg) (Counted cfg)
    (fun _ _ _ h => h.step) _ _ _ hinit hmeets hrun
  refine ⟨fun hcap => ?_, hkept.gaveUp⟩
  obtain ⟨-, -, hmade, -, hwithin⟩ := hkept.exact hcap
  exact Nat.le_trans (Nat.le_trans (Nat.le_add_right _ _) hmade) hwithin

def oneAttempt : Config := ⟨1, 25000, 90000⟩

/-- The attempt succeeds; the next failure has an attempt again, and then the hook gives up. -/
def openedAgain : List Label :=
  [.mount none, .closed 0, .reconnect 1 none, .opened 1, .closed 1, .reconnect 2 none, .closed 2]

theorem openedAgain_budgeted : ∃ t, (hook oneAttempt).run openedAgain = some t ∧ t.made = 1 ∧
    t.gaveUp = [1] ∧ Budgeted oneAttempt t := by
  have hends : ((hook oneAttempt).run openedAgain).map (fun t => (t.made, t.gaveUp)) =
      some (1, [1]) := by decide
  obtain ⟨t, hrun, hvalues⟩ := Option.map_eq_some_iff.mp hends
  obtain ⟨hmade, hgaveUp⟩ := Prod.mk.inj hvalues
  exact ⟨t, hrun, hmade, hgaveUp,
    budgeted_of_counted oneAttempt openedAgain t hrun (by decide)⟩

/-- The attempt fails and the user connects again. -/
def connectedAgain : List Label :=
  [.mount none, .closed 0, .reconnect 1 none, .closed 1, .connect none, .closed 2]

/-- The hook gives up with no attempt made since the user's call. -/
theorem connectedAgain_not_budgeted : ∃ t, (hook oneAttempt).run connectedAgain = some t ∧
    t.made = 0 ∧ t.gaveUp = [1, 0] ∧ ¬ Budgeted oneAttempt t := by
  have hends : ((hook oneAttempt).run connectedAgain).map (fun t => (t.made, t.gaveUp)) =
      some (0, [1, 0]) := by decide
  obtain ⟨t, hrun, hvalues⟩ := Option.map_eq_some_iff.mp hends
  obtain ⟨hmade, hgaveUp⟩ := Prod.mk.inj hvalues
  refine ⟨t, hrun, hmade, hgaveUp, fun h => ?_⟩
  have := (h.gaveUp 0 (by simp [hgaveUp])).2
  contradiction

/-- A constructor that keeps throwing is tried beyond the cap. -/
example : ((hook oneAttempt).run [.mount (some ""), .reconnect 1 (some ""),
    .reconnect 2 (some "")]).map State.made = some 2 := by decide

/-- The close event of the first socket takes the timer that the second one has left. -/
example : ((hook oneAttempt).run [.mount none, .opened 0, .disconnect, .connect none, .closed 1,
    .closed 0]).map State.gaveUp = some [0] := by decide

end LearnPg.Frontend.WebSocket
