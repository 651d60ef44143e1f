import LearnPg.Ws.Hub

/-! What the hub's step function can do, one constructor for each branch that
takes a step. Every invariant is proved over these cases. -/
namespace LearnPg.Ws.Steps

open LearnPg.Basis.Channel Hub

variable {κ β : Type} [DecidableEq κ] [DecidableEq β]

inductive Step (s : State κ β) : Label κ β → State κ β → Prop where
  | upgrade {c ok} (hserve : s.serveWs c = .idle) :
      Step s (.upgrade c ok) { s with
        serveWs := Function.update s.serveWs c (if ok then .registering else .refused) }
  | register {c} (hrun : s.run = .select) (hserve : s.serveWs c = .registering) :
      Step s (.register c) { s with
        run := .adding c
        serveWs := Function.update s.serveWs c .served
        writePump := Function.update s.writePump c .select
        readPump := Function.update s.readPump c .reading }
  | unregisterRead {c} (hrun : s.run = .select) (hread : s.readPump c = .unregistering) :
      Step s (.unregisterRead c) ((s.setRun (.removing c)).setReadPump c .finished)
  | unregisterWrite {c} (hrun : s.run = .select) (hwrite : s.writePump c = .unregistering) :
      Step s (.unregisterWrite c) ((s.setRun (.removing c)).setWritePump c .finished)
  | takeStop (hrun : s.run = .select) (hstop : s.stop = true) :
      Step s .takeStop (s.setRun .stopping)
  | takeBroadcast {m ch} (hrun : s.run = .select)
      (hreceive : s.broadcast.receive = some (some m, ch)) :
      Step s .takeBroadcast { s with broadcast := ch, run := .sharing m }
  | add {c} (hrun : s.run = .adding c) (hreaders : s.readers = ∅) :
      Step s .lock { s with clients := insert c s.clients, run := .select }
  | remove {c} (hrun : s.run = .removing c) (hreaders : s.readers = ∅) (hc : c ∈ s.clients) :
      Step s .lock ((s.setRun .select).drop c)
  | removeNone {c} (hrun : s.run = .removing c) (hc : c ∉ s.clients) :
      Step s .lock (s.setRun .select)
  | evict {m todo c} (hrun : s.run = .evicting m todo c) (hreaders : s.readers = ∅) :
      Step s .lock ((s.setRun (.resuming m todo)).drop c)
  | lockStop (hrun : s.run = .stopping) (hreaders : s.readers = ∅) :
      Step s .lock (s.setRun .closing)
  | closeClient {c} (hrun : s.run = .closing) (hc : c ∈ s.clients) :
      Step s (.closeClient c) (s.drop c)
  | unlockReturn (hrun : s.run = .closing) (hclients : s.clients = ∅) :
      Step s .unlockReturn { s with run := .returned, done := true }
  | share {m} (hrun : s.run = .sharing m) :
      Step s .rlock (s.setRun (.ranging m s.clients))
  | resume {m todo} (hrun : s.run = .resuming m todo) :
      Step s .rlock (s.setRun (.ranging m todo))
  | offerSent {m todo d ch} (hrun : s.run = .ranging m todo) (hd : d ∈ todo)
      (hoffer : (s.send d).offer m = .sent ch) :
      Step s (.offer d) ((s.setRun (.ranging m (todo.erase d))).setSend d ch)
  | offerFull {m todo d} (hrun : s.run = .ranging m todo) (hd : d ∈ todo)
      (hoffer : (s.send d).offer m = .full) :
      Step s (.offer d) (s.setRun (.evicting m (todo.erase d) d))
  | offerPanic {m todo d} (hrun : s.run = .ranging m todo) (hd : d ∈ todo)
      (hoffer : (s.send d).offer m = .panicked) :
      Step s (.offer d) { s with panic := some .sendOnClosed }
  | ranged {m} (hrun : s.run = .ranging m ∅) :
      Step s .ranged (s.setRun .select)
  | readMessage {c m} (hread : s.readPump c = .reading) :
      Step s (.readMessage c m) (s.setReadPump c (.received m))
  | readError {c} (hread : s.readPump c = .reading) :
      Step s (.readError c) (s.setReadPump c .unregistering)
  | rlockRead {c m} (hread : s.readPump c = .received m) (hrun : s.run ≠ .closing) :
      Step s (.rlockRead c) ({ s with readers := insert c s.readers }.setReadPump c
        (.forwarding m s.clients))
  | forwardSent {c d m todo ch} (hread : s.readPump c = .forwarding m todo) (hd : d ∈ todo)
      (hoffer : (s.send d).offer m = .sent ch) (hdc : d ≠ c) :
      Step s (.forward c d) ((s.setReadPump c (.forwarding m (todo.erase d))).setSend d ch)
  | forwardPast {c d m todo} (hread : s.readPump c = .forwarding m todo) (hd : d ∈ todo)
      (hpast : d = c ∨ (s.send d).offer m = .full) :
      Step s (.forward c d) (s.setReadPump c (.forwarding m (todo.erase d)))
  | forwardPanic {c d m todo} (hread : s.readPump c = .forwarding m todo) (hd : d ∈ todo)
      (hoffer : (s.send d).offer m = .panicked) :
      Step s (.forward c d) { s with panic := some .sendOnClosed }
  | forwarded {c m} (hread : s.readPump c = .forwarding m ∅) :
      Step s (.forwarded c) ({ s with readers := s.readers.erase c }.setReadPump c .reading)
  | received {c m ch} (hwrite : s.writePump c = .select)
      (hreceive : (s.send c).receive = some (m, ch)) :
      Step s (.receive c true) (((s.setSend c ch).write c (.text (m.getD []))).setWritePump c
        (if m.isSome then .select else .closing))
  | receiveFailed {c m ch} (hwrite : s.writePump c = .select)
      (hreceive : (s.send c).receive = some (m, ch)) :
      Step s (.receive c false) ((s.setSend c ch).setWritePump c .unregistering)
  | writeClose {c wrote} (hwrite : s.writePump c = .closing) :
      Step s (.writeClose c wrote)
        ((if wrote then s.write c .close else s).setWritePump c .finished)
  | ping {c} (hwrite : s.writePump c = .select) :
      Step s (.ping c true) (s.write c .ping)
  | pingFailed {c} (hwrite : s.writePump c = .select) :
      Step s (.ping c false) (s.setWritePump c .unregistering)
  | marshal {b data} (hcaller : s.caller b = .idle) :
      Step s (.marshal b data) (s.setCaller b (data.elim .finished .broadcasting))
  | enqueue {b data ch} (hcaller : s.caller b = .broadcasting data)
      (hoffer : s.broadcast.offer data = .sent ch) :
      Step s (.enqueue b) ({ s with broadcast := ch }.setCaller b .finished)
  | callStop {b} (hcaller : s.caller b = .idle) :
      Step s (.callStop b) ({ s with stop := true }.setCaller b .stopping)
  | stopReturns {b} (hcaller : s.caller b = .stopping) (hdone : s.done = true) :
      Step s (.stopReturns b) (s.setCaller b .finished)

variable {s t : State κ β} {l : Label κ β}

theorem runStep_cases (h : runStep s l = some t) : Step s l t := by
  cases l with
  | register c =>
    simp only [runStep, Option.ite_none_right_eq_some, Option.some.injEq] at h
    obtain ⟨⟨hrun, hserve⟩, rfl⟩ := h
    exact .register hrun hserve
  | unregisterRead c =>
    simp only [runStep, Option.ite_none_right_eq_some, Option.some.injEq] at h
    obtain ⟨⟨hrun, hread⟩, rfl⟩ := h
    exact .unregisterRead hrun hread
  | unregisterWrite c =>
    simp only [runStep, Option.ite_none_right_eq_some, Option.some.injEq] at h
    obtain ⟨⟨hrun, hwrite⟩, rfl⟩ := h
    exact .unregisterWrite hrun hwrite
  | takeStop =>
    simp only [runStep, Option.ite_none_right_eq_some, Option.some.injEq] at h
    obtain ⟨⟨hrun, hstop⟩, rfl⟩ := h
    exact .takeStop hrun hstop
  | takeBroadcast =>
    simp only [runStep, Option.ite_none_right_eq_some] at h
    obtain ⟨hrun, h⟩ := h
    split at h <;> cases h
    case h_1 m ch hreceive => exact .takeBroadcast hrun hreceive
  | lock =>
    simp only [runStep, Option.ite_none_right_eq_some] at h
    obtain ⟨hreaders, h⟩ := h
    split at h
    case h_1 c hrun => cases h; exact .add hrun hreaders
    case h_2 c hrun =>
      split at h <;> cases h
      case isTrue hc => exact .remove hrun hreaders hc
      case isFalse hc => exact .removeNone hrun hc
    case h_3 m todo c hrun => cases h; exact .evict hrun hreaders
    case h_4 hrun => cases h; exact .lockStop hrun hreaders
    case h_5 => cases h
  | closeClient c =>
    simp only [runStep, Option.ite_none_right_eq_some, Option.some.injEq] at h
    obtain ⟨⟨hrun, hc⟩, rfl⟩ := h
    exact .closeClient hrun hc
  | unlockReturn =>
    simp only [runStep, Option.ite_none_right_eq_some, Option.some.injEq] at h
    obtain ⟨⟨hrun, hclients⟩, rfl⟩ := h
    exact .unlockReturn hrun hclients
  | rlock =>
    simp only [runStep] at h
    split at h <;> cases h
    case h_1 m hrun => exact .share hrun
    case h_2 m todo hrun => exact .resume hrun
  | offer d =>
    simp only [runStep] at h
    split at h
    case h_2 => cases h
    case h_1 m todo hrun =>
      simp only [Option.ite_none_right_eq_some] at h
      obtain ⟨hd, h⟩ := h
      split at h <;> cases h
      case h_1 ch hoffer => exact .offerSent hrun hd hoffer
      case h_2 hoffer => exact .offerFull hrun hd hoffer
      case h_3 hoffer => exact .offerPanic hrun hd hoffer
  | ranged =>
    simp only [runStep] at h
    split at h
    case h_2 => cases h
    case h_1 m todo hrun =>
      simp only [Option.ite_none_right_eq_some, Option.some.injEq] at h
      obtain ⟨rfl, rfl⟩ := h
      exact .ranged hrun
  | _ => cases h

theorem serveWsStep_cases (h : serveWsStep s l = some t) : Step s l t := by
  cases l with
  | upgrade c ok =>
    simp only [serveWsStep, Option.ite_none_right_eq_some, Option.some.injEq] at h
    obtain ⟨hserve, rfl⟩ := h
    exact .upgrade hserve
  | _ => cases h

theorem readPumpStep_cases (h : readPumpStep s l = some t) : Step s l t := by
  cases l with
  | readMessage c m =>
    simp only [readPumpStep, Option.ite_none_right_eq_some, Option.some.injEq] at h
    obtain ⟨⟨hread, -⟩, rfl⟩ := h
    exact .readMessage hread
  | readError c =>
    simp only [readPumpStep, Option.ite_none_right_eq_some, Option.some.injEq] at h
    obtain ⟨hread, rfl⟩ := h
    exact .readError hread
  | rlockRead c =>
    simp only [readPumpStep] at h
    split at h
    case h_2 => cases h
    case h_1 m hread =>
      simp only [Option.ite_none_left_eq_some, Option.some.injEq] at h
      obtain ⟨hrun, rfl⟩ := h
      exact .rlockRead hread hrun
  | forward c d =>
    simp only [readPumpStep] at h
    split at h
    case h_2 => cases h
    case h_1 m todo hread =>
      simp only [Option.ite_none_right_eq_some] at h
      obtain ⟨hd, h⟩ := h
      split at h
      case isTrue hdc => cases h; exact .forwardPast hread hd (.inl hdc)
      case isFalse hdc =>
        split at h <;> cases h
        case h_1 ch hoffer => exact .forwardSent hread hd hoffer hdc
        case h_2 hoffer => exact .forwardPast hread hd (.inr hoffer)
        case h_3 hoffer => exact .forwardPanic hread hd hoffer
  | forwarded c =>
    simp only [readPumpStep] at h
    split at h
    case h_2 => cases h
    case h_1 m todo hread =>
      simp only [Option.ite_none_right_eq_some, Option.some.injEq] at h
      obtain ⟨rfl, rfl⟩ := h
      exact .forwarded hread
  | _ => cases h

theorem writePumpStep_cases (h : writePumpStep s l = some t) : Step s l t := by
  cases l with
  | receive c wrote =>
    simp only [writePumpStep, Option.ite_none_right_eq_some] at h
    obtain ⟨hwrite, h⟩ := h
    split at h
    case h_2 => cases h
    case h_1 m ch hreceive =>
      cases wrote with
      | true => cases h; exact .received hwrite hreceive
      | false => cases h; exact .receiveFailed hwrite hreceive
  | writeClose c wrote =>
    simp only [writePumpStep, Option.ite_none_right_eq_some, Option.some.injEq] at h
    obtain ⟨hwrite, rfl⟩ := h
    exact .writeClose hwrite
  | ping c wrote =>
    simp only [writePumpStep, Option.ite_none_right_eq_some] at h
    obtain ⟨hwrite, h⟩ := h
    cases wrote with
    | true => cases h; exact .ping hwrite
    | false => cases h; exact .pingFailed hwrite
  | _ => cases h

theorem callerStep_cases (h : callerStep s l = some t) : Step s l t := by
  cases l with
  | marshal b data =>
    simp only [callerStep, Option.ite_none_right_eq_some, Option.some.injEq] at h
    obtain ⟨hcaller, rfl⟩ := h
    exact .marshal hcaller
  | enqueue b =>
    simp only [callerStep] at h
    split at h
    case h_2 => cases h
    case h_1 data hcaller =>
      split at h <;> cases h
      case h_1 ch hoffer => exact .enqueue hcaller hoffer
  | callStop b =>
    simp only [callerStep, Option.ite_none_right_eq_some, Option.some.injEq] at h
    obtain ⟨hcaller, rfl⟩ := h
    exact .callStop hcaller
  | stopReturns b =>
    simp only [callerStep, Option.ite_none_right_eq_some, Option.some.injEq] at h
    obtain ⟨⟨hcaller, hdone⟩, rfl⟩ := h
    exact .stopReturns hcaller hdone
  | _ => cases h

theorem step_cases (h : step s l = some t) : Step s l t := by
  unfold step at h
  split at h
  case isTrue => cases h
  case isFalse =>
    split at h
    all_goals first
      | exact serveWsStep_cases h
      | exact readPumpStep_cases h
      | exact writePumpStep_cases h
      | exact callerStep_cases h
      | exact runStep_cases h

end LearnPg.Ws.Steps
