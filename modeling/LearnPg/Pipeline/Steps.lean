import LearnPg.Pipeline.System

/-! What a step of the pipeline can do, and what a step of a page's hook does to its sockets. -/
namespace LearnPg.Pipeline

open Basis.Runs Ws.Writer Collector Frontend

/-! Sockets of a hook that get live. -/

section

variable {cfg : WebSocket.Config} {p q : WebSocket.State} {a : WebSocket.Label}

/-- The sockets of `p` stay, and no other one gets live again. -/
structure Grows (p q : WebSocket.State) : Prop where
  length : p.sockets.length ≤ q.sockets.length
  live : ∀ i, q.live i = true → p.live i = true ∨ p.sockets.length ≤ i

theorem Grows.same (h : q.sockets = p.sockets) : Grows p q :=
  ⟨by rw [h], fun i hi => .inl (by rwa [WebSocket.live_congr h] at hi)⟩

theorem Grows.after {r : WebSocket.State} (h : Grows r q) (hr : r.sockets = p.sockets) :
    Grows p q := by
  obtain ⟨hlength, hlive⟩ := h
  rw [hr] at hlength hlive
  exact ⟨hlength, fun i hi => by rw [← WebSocket.live_congr hr]; exact hlive i hi⟩

theorem Grows.before {r : WebSocket.State} (h : Grows p r) (hr : q.sockets = r.sockets) :
    Grows p q := by
  refine ⟨by rw [hr]; exact h.length, fun i hi => h.live i ?_⟩
  rwa [WebSocket.live_congr hr] at hi

theorem grows_connect (p : WebSocket.State) (thrown : Option String) :
    Grows p (p.connect thrown) := by
  unfold WebSocket.State.connect
  split
  · exact .same rfl
  · cases thrown with
    | some message => exact .same (WebSocket.scheduleReconnect_sockets _).1
    | none =>
      refine ⟨by simp, fun i hi => ?_⟩
      rw [WebSocket.live_append rfl, Bool.or_eq_true, decide_eq_true_eq] at hi
      exact hi.imp_right fun h => Nat.le_of_eq h.symm

theorem grows_closeRef (p : WebSocket.State) : Grows p p.closeRef := by
  refine ⟨?_, fun i hi => .inl (WebSocket.closeRef_live p i hi).1⟩
  unfold WebSocket.State.closeRef
  split
  · simp
  · exact Nat.le_refl _

theorem grows_set {ready before : WebSocket.ReadyState} {i : Nat}
    (hi : p.sockets[i]? = some before) (hready : ready.live = true → before.live = true)
    (hq : q.sockets = p.sockets.set i ready) : Grows p q := by
  refine ⟨by simp [hq], fun j hj => .inl ?_⟩
  rw [WebSocket.live_set (List.getElem?_eq_some_iff.mp hi).1 hq] at hj
  split at hj
  · next heq =>
    rw [heq, WebSocket.State.live, hi]
    exact hready hj
  · exact hj

theorem grows_step (hstep : WebSocket.step cfg p a = some q) : Grows p q := by
  cases a with
  | mount thrown | connect thrown =>
    cases hstep
    exact (grows_connect _ thrown).after rfl
  | disconnect =>
    cases hstep
    have hclose := (grows_closeRef { { p with shouldReconnect := false }.clearTimers with
      status := .closed, lastError := none }).after (p := p) rfl
    exact hclose.before rfl
  | reconnect id thrown =>
    obtain ⟨-, heq⟩ := Option.ite_none_right_eq_some.mp hstep
    cases heq
    exact (grows_connect _ thrown).after rfl
  | heartbeat id | error i =>
    obtain ⟨-, heq⟩ := Option.ite_none_right_eq_some.mp hstep
    cases heq
    exact .same rfl
  | stale id =>
    rw [WebSocket.stale_step hstep]
    exact (grows_closeRef _).after rfl
  | opened i =>
    obtain ⟨hi, heartbeat, stale, rfl⟩ := WebSocket.opened_step hstep
    exact grows_set hi (fun _ => rfl) rfl
  | message i =>
    obtain ⟨timer, rfl⟩ := WebSocket.message_step hstep
    exact .same rfl
  | closing i =>
    obtain ⟨hi, heq⟩ := Option.ite_none_right_eq_some.mp hstep
    cases heq
    exact grows_set hi (fun h => absurd h (by decide)) rfl
  | closed i =>
    obtain ⟨hlt, rfl⟩ := WebSocket.closed_step hstep
    have hset : Grows p { p with sockets := p.sockets.set i .closed } :=
      grows_set (List.getElem?_eq_getElem hlt) (fun h => absurd h (by decide)) rfl
    exact hset.before (WebSocket.onclose_sockets cfg _).1

end

/-! What a step of the pipeline can do. -/

section

variable {κ β ω ε : Type} [DecidableEq κ] [DecidableEq β] [DecidableEq ω]
  {wire : Wire ε} {cfg : WebSocket.Config}

/-- What a page does, by itself or with a message from or to the hub. -/
inductive PageStep (wire : Wire ε) (cfg : WebSocket.Config) (s : State κ β ω ε) (w : ω) :
    WebSocket.Label → State κ β ω ε → Prop where
  | page {l page} (hstep : WebSocket.step cfg (s.pages w) l = some page) :
      PageStep wire cfg s w l { s with pages := Function.update s.pages w page }
  | pings {l page c} (hstep : WebSocket.step cfg (s.pages w) l = some page) :
      PageStep wire cfg s w l
        ({ s with pages := Function.update s.pages w page }.post c wire.ping)
  | message {i page c m} (hstep : WebSocket.step cfg (s.pages w) (.message i) = some page)
      (hconn : s.conn w i = some c) (hm : (texts (s.hub.wire c))[s.got c]? = some m) :
      PageStep wire cfg s w (.message i)
        (({ s with
            pages := Function.update s.pages w page
            got := Function.update s.got c (s.got c + 1) } : State κ β ω ε).show w (wire.shows m))

inductive Step (wire : Wire ε) (cfg : WebSocket.Config) (s : State κ β ω ε) :
    Label κ β ω ε → State κ β ω ε → Prop where
  | sender {lab l collector link} (hstep : Sender.step s.collector l = some collector) :
      Step wire cfg s lab { s with collector, link }
  | sends {lab l collector link c e} (hphase : s.collector.phase = .sending e)
      (hstep : Sender.step s.collector l = some collector) (hl : l = .sends ∨ l = .sendFails) :
      Step wire cfg s lab ({ s with collector, link }.send wire c e)
  | hub {lab l hub link} (hstep : Ws.Hub.step s.hub l = some hub)
      (hread : ∀ c m, l ≠ .readMessage c m) (hmarshal : ∀ b data, l ≠ .marshal b data) :
      Step wire cfg s lab { s with hub, link }
  | reads {lab c m rest hub} (hup : s.up c = m :: rest)
      (hstep : Ws.Hub.step s.hub (.readMessage c m) = some hub) :
      Step wire cfg s lab { s with hub, up := Function.update s.up c rest }
  | request {lab w i c ok hub} (hi : i < (s.pages w).sockets.length)
      (hstep : Ws.Hub.step s.hub (.upgrade c ok) = some hub) :
      Step wire cfg s lab
        { s with hub, conn := Function.update s.conn w (Function.update (s.conn w) i (some c)) }
  | page {w l t} (hstep : PageStep wire cfg s w l t) : Step wire cfg s (.page w l) t

theorem collector_cases {s t : State κ β ω ε} {lab : Label κ β ω ε} {l : Sender.Label ε}
    (h : collectorStep wire s l = some t) : Step wire cfg s lab t := by
  cases l with
  | connects =>
    simp only [collectorStep] at h
    split at h
    · split at h
      · obtain ⟨st, hst, rfl⟩ := Option.map_eq_some_iff.mp h
        exact .sender hst
      · cases h
    · cases h
  | sends =>
    simp only [collectorStep] at h
    split at h
    next c e hlink hphase =>
      obtain ⟨st, hst, rfl⟩ := Option.map_eq_some_iff.mp h
      exact .sends hphase hst (.inl rfl)
    next => cases h
  | sendFails => cases h
  | put _ | close | awakes | frame | takes | connectFails =>
    obtain ⟨st, hst, rfl⟩ := Option.map_eq_some_iff.mp h
    exact .sender hst

theorem breaks_cases {s t : State κ β ω ε} {lab : Label κ β ω ε} {reached : Bool}
    (h : breaksStep wire s reached = some t) : Step wire cfg s lab t := by
  unfold breaksStep at h
  split at h
  next c e hlink hphase =>
    obtain ⟨st, hst, rfl⟩ := Option.map_eq_some_iff.mp h
    cases reached with
    | true => exact .sends hphase hst (.inr rfl)
    | false => exact .sender hst
  next => cases h

omit [DecidableEq β] in
theorem page_cases {s t : State κ β ω ε} {w : ω} {l : WebSocket.Label}
    (h : pageStep wire cfg s w l = some t) : PageStep wire cfg s w l t := by
  obtain ⟨page, hpage, h⟩ := Option.bind_eq_some_iff.mp h
  cases l with
  | opened i =>
    dsimp only at h
    split at h
    · obtain ⟨-, heq⟩ := Option.ite_none_right_eq_some.mp h
      cases heq
      exact .page hpage
    · cases h
  | heartbeat id =>
    dsimp only at h
    split at h
    · cases h
      exact .pings hpage
    · cases h
      exact .page hpage
  | message i =>
    dsimp only at h
    split at h
    next c hconn =>
      split at h
      next m hm =>
        cases h
        exact .message hpage hconn hm
      next => cases h
    next => cases h
  | _ =>
    cases h
    exact .page hpage

theorem step_cases {s t : State κ β ω ε} {lab : Label κ β ω ε}
    (h : step wire cfg s lab = some t) : Step wire cfg s lab t := by
  unfold step at h
  split at h
  next c ok =>
    split at h
    · obtain ⟨hub, hhub, rfl⟩ := Option.map_eq_some_iff.mp h
      exact .hub hhub (by simp) (by simp)
    · cases h
  next => exact collector_cases h
  next => exact breaks_cases h
  next w i c ok =>
    split at h
    next hi =>
      obtain ⟨hub, hhub, rfl⟩ := Option.map_eq_some_iff.mp h
      exact .request hi.1 hhub
    next => cases h
  next => exact .page (page_cases h)
  next c =>
    split at h
    next m rest hup =>
      obtain ⟨hub, hhub, rfl⟩ := Option.map_eq_some_iff.mp h
      exact .reads hup hhub
    next => cases h
  next l =>
    split at h
    · cases h
    · cases h
    · cases h
    next hupgrade hread hmarshal =>
      obtain ⟨hub, hhub, rfl⟩ := Option.map_eq_some_iff.mp h
      exact .hub hhub (fun c m heq => hread c m heq) (fun b data heq => hmarshal b data heq)

def putBy : Label κ β ω ε → List ε
  | .collector (.put e) => [e]
  | _ => []

omit [DecidableEq κ] [DecidableEq β] [DecidableEq ω] in
theorem sender_put {st st' : Sender.State ε} {l : Sender.Label ε}
    (h : Sender.step st l = some st') :
    st'.put = st.put ++ putBy (.collector l : Label κ β ω ε) := by
  unfold Sender.step at h
  cases l with
  | put e | close =>
    dsimp only at h
    split at h
    · cases h
      simp [putBy]
    · cases h
  | connects | connectFails | awakes | frame | sends | sendFails =>
    dsimp only at h
    split at h
    · cases h
      exact (List.append_nil _).symm
    · cases h
  | takes =>
    dsimp only at h
    split at h
    · cases h
      exact (List.append_nil _).symm
    · cases h
      exact (List.append_nil _).symm
    · cases h

omit [DecidableEq κ] [DecidableEq β] in
theorem show_collector (s : State κ β ω ε) (w : ω) (e : Option ε) :
    (s.show w e).collector = s.collector := by
  cases e <;> rfl

omit [DecidableEq β] [DecidableEq ω] in
theorem collector_put {s t : State κ β ω ε} {l : Sender.Label ε}
    (h : collectorStep wire s l = some t) :
    t.collector.put = s.collector.put ++ putBy (.collector l : Label κ β ω ε) := by
  cases l with
  | connects =>
    simp only [collectorStep] at h
    split at h
    · split at h
      · obtain ⟨st, hst, rfl⟩ := Option.map_eq_some_iff.mp h
        exact sender_put hst
      · cases h
    · cases h
  | sends =>
    simp only [collectorStep] at h
    split at h
    · obtain ⟨st, hst, rfl⟩ := Option.map_eq_some_iff.mp h
      exact sender_put hst
    · cases h
  | sendFails => cases h
  | put | close | awakes | frame | takes | connectFails =>
    obtain ⟨st, hst, rfl⟩ := Option.map_eq_some_iff.mp h
    exact sender_put hst

omit [DecidableEq β] in
theorem page_put {s t : State κ β ω ε} {w : ω} {l : WebSocket.Label}
    (h : pageStep wire cfg s w l = some t) : t.collector = s.collector := by
  cases page_cases h with
  | page => rfl
  | pings => rfl
  | message => exact show_collector _ w _

theorem step_put {s t : State κ β ω ε} {lab : Label κ β ω ε} (h : step wire cfg s lab = some t) :
    t.collector.put = s.collector.put ++ putBy lab := by
  have hsame (hcollector : t.collector = s.collector) :
      t.collector.put = s.collector.put ++ [] := by rw [hcollector, List.append_nil]
  unfold step at h
  split at h
  · split at h
    · obtain ⟨hub, -, rfl⟩ := Option.map_eq_some_iff.mp h
      exact hsame rfl
    · cases h
  next => exact collector_put h
  next reached =>
    unfold breaksStep at h
    split at h
    · obtain ⟨st, hst, rfl⟩ := Option.map_eq_some_iff.mp h
      have hput : st.put = s.collector.put ++ putBy (.collector .sendFails : Label κ β ω ε) :=
        sender_put hst
      cases reached with
      | true => exact hput
      | false => exact hput
    · cases h
  · split at h
    · obtain ⟨hub, -, rfl⟩ := Option.map_eq_some_iff.mp h
      exact hsame rfl
    · cases h
  next => exact hsame (page_put h)
  · split at h
    · obtain ⟨hub, -, rfl⟩ := Option.map_eq_some_iff.mp h
      exact hsame rfl
    · cases h
  · split at h
    · cases h
    · cases h
    · cases h
    · obtain ⟨hub, -, rfl⟩ := Option.map_eq_some_iff.mp h
      exact hsame rfl

end

end LearnPg.Pipeline
