import LearnPg.Pipeline.Sources

/-! What the sources put into the channel stems from: the records of the ring buffer in their
order, the records that the polls found, and heartbeats. -/
namespace LearnPg.Pipeline.Sources

open Basis.Runs Basis.Tickets Collector Collector.Kernel

section

variable {Value : Type} {data : Data Value} {pid : UInt32} {s t : State Value} {l : Label}
  {labels : List Label} {p q : Source} {x : Nat × WsEvent Value}

/-! What each source has put and holds. -/

/-- The events of one source that are in the channel or have been, in their order. -/
def State.of (s : State Value) (p : Source) : List (WsEvent Value) :=
  (s.tickets.out.filter (·.party = p)).map (·.value)

def State.waitsWith (s : State Value) (p : Source) : List (WsEvent Value) :=
  (s.tickets.held p).toList.map Prod.snd

theorem resume_spec (s : State Value) (p : Source) :
    (s.resume p).kernel = s.kernel ∧ (s.resume p).tickets = s.tickets ∧
      (s.resume p).seenLsns = s.seenLsns ∧ (p ≠ .ringbuf → (s.resume p).reader = s.reader) ∧
      (p ≠ .poller → (s.resume p).poller = s.poller) ∧
      (p ≠ .ticker → (s.resume p).ticker = s.ticker) := by
  cases p with
  | ringbuf =>
    unfold State.resume
    cases s.reader <;> simp
  | ticker => simp [State.resume]
  | poller =>
    unfold State.resume
    cases s.poller <;> simp

theorem held_draw_self (s : State Value) (p : Source) (e : WsEvent Value) :
    (s.draw p e).tickets.held p = some (s.tickets.next, e) :=
  Function.update_self ..

theorem held_draw_ne (h : q ≠ p) (s : State Value) (e : WsEvent Value) :
    (s.draw p e).tickets.held q = s.tickets.held q :=
  Function.update_of_ne h ..

def State.send (s : State Value) (p : Source) (x : Nat × WsEvent Value) : State Value :=
  { s with tickets := s.tickets.hand p x }.resume p

theorem tickets_send (s : State Value) (p : Source) (x : Nat × WsEvent Value) :
    (s.send p x).tickets = s.tickets.hand p x :=
  (resume_spec _ p).2.1

theorem of_send (s : State Value) (p q : Source) (x : Nat × WsEvent Value) :
    (s.send p x).of q = s.of q ++ if p = q then [x.2] else [] := by
  unfold State.of
  rw [tickets_send]
  by_cases h : p = q
  · simp [Basis.Tickets.State.hand, h]
  · simp [Basis.Tickets.State.hand, h]

theorem of_send_self (s : State Value) (p : Source) (x : Nat × WsEvent Value) :
    (s.send p x).of p = s.of p ++ [x.2] := by
  rw [of_send, if_pos rfl]

theorem of_send_ne (h : p ≠ q) (s : State Value) (x : Nat × WsEvent Value) :
    (s.send p x).of q = s.of q := by
  rw [of_send, if_neg h, List.append_nil]

theorem held_send_self (s : State Value) (p : Source) (x : Nat × WsEvent Value) :
    (s.send p x).tickets.held p = none := by
  rw [tickets_send]
  exact Function.update_self ..

theorem held_send_ne (h : p ≠ q) (s : State Value) (x : Nat × WsEvent Value) :
    (s.send p x).tickets.held q = s.tickets.held q := by
  rw [tickets_send]
  exact Function.update_of_ne (Ne.symm h) ..

/-! What a step can do. -/

/-- The event that the reader makes of a record. -/
def ringEvent (data : Data Value) (seq : UInt64) (e : Event) : WsEvent Value where
  eventType := e.payload.kind.eventType
  timestamp := e.header.timestamp
  pid := e.header.pid
  seq
  data := data.toValue (decoded e.payload)

theorem parseRawEvent_ringEvent (data : Data Value) (seq : UInt64) (e : Event)
    (pad : Nat → UInt8) :
    parseRawEvent data.parse seq (e.bytes pad) = .ok (some (ringEvent data seq e)) :=
  parseRawEvent_bytes data.parse seq e pad

inductive Step (data : Data Value) (pid : UInt32) (s : State Value) :
    Label → State Value → Prop where
  | probe (l : Kernel.Label) (kernel : Kernel.State Value) (es : List Event)
      (hread : ∀ pad seq, l ≠ .read pad seq)
      (hstep : Kernel.step data.parse s.kernel l = some kernel)
      (hring : kernel.ring = s.kernel.ring ++ es)
      (hconsumed : kernel.consumed = s.kernel.consumed) :
      Step data pid s (.probe l) { s with kernel }
  | wakes (hreader : s.reader = .asleep) : Step data pid s .wakes { s with reader := .awake }
  | parses (pad : Nat → UInt8) (e : Event) (rest : List Event) (hreader : s.reader = .awake)
      (hring : s.kernel.ring = e :: rest) :
      Step data pid s (.parses pad)
        { s.draw .ringbuf (ringEvent data s.nextSeq e) with reader := .parsed pad s.nextSeq }
  | consumes (pad : Nat → UInt8) (seq : UInt64) (e : Event) (kernel : Kernel.State Value)
      (hreader : s.reader = .sent pad seq) (hring : s.kernel.ring = e :: kernel.ring)
      (hstep : Kernel.step data.parse s.kernel (.read pad seq) = some kernel)
      (hconsumed : kernel.consumed = s.kernel.consumed ++ [e]) :
      Step data pid s .consumes { s with kernel, reader := .awake }
  | sleeps (hreader : s.reader = .awake) : Step data pid s .sleeps { s with reader := .asleep }
  | counts (hticker : s.ticker = .waiting) : Step data pid s .counts { s with ticker := .counted }
  | ticks (now : UInt64) (hticker : s.ticker = .counted) :
      Step data pid s (.ticks now)
        { s.draw .ticker (heartbeat pid now s.nextSeq data.ebpfStatus) with ticker := .drawn }
  | polls (dir : Directory) (hpoller : s.poller = .sleeping) :
      Step data pid s (.polls dir) { s with
        poller := .busy (collectNewWalEvents dir s.seenLsns 256).1
        seenLsns := (collectNewWalEvents dir s.seenLsns 256).2 }
  | record (now : UInt64) (e : WalInsertEvent) (events : List WalInsertEvent)
      (hpoller : s.poller = .busy (e :: events)) (hheld : s.tickets.held .poller = none) :
      Step data pid s (.draws now)
        { s.draw .poller (walToEvent data pid now s.nextSeq e) with poller := .busy events }
  | beat (now : UInt64) (hpoller : s.poller = .busy []) (hheld : s.tickets.held .poller = none) :
      Step data pid s (.draws now)
        { s.draw .poller (heartbeat pid now s.nextSeq (data.walFileStatus s.seenLsns.card)) with
          poller := .last }
  | sends (p : Source) (x : Nat × WsEvent Value) (hheld : s.tickets.held p = some x) :
      Step data pid s (.sends p) (s.send p x)

theorem kernel_probe {l : Kernel.Label} {kernel : Kernel.State Value}
    (hread : ∀ pad seq, l ≠ .read pad seq)
    (h : Kernel.step data.parse s.kernel l = some kernel) :
    ∃ es, kernel.ring = s.kernel.ring ++ es ∧ kernel.consumed = s.kernel.consumed := by
  cases l with
  | read pad seq => exact absurd rfl (hread pad seq)
  | wal | xact | buffer =>
    obtain ⟨-, heq⟩ := Option.ite_none_right_eq_some.mp h
    cases heq
    exact ⟨_, (submit_spec _ _ _).1, (submit_spec _ _ _).2.2.2.2.2.2⟩

theorem kernel_read {pad : Nat → UInt8} {seq : UInt64} {kernel : Kernel.State Value}
    (h : Kernel.step data.parse s.kernel (.read pad seq) = some kernel) :
    ∃ e, s.kernel.ring = e :: kernel.ring ∧ kernel.consumed = s.kernel.consumed ++ [e] := by
  simp only [Kernel.step] at h
  split at h
  · cases h
  next e rest hring =>
    rw [parseRawEvent_ringEvent] at h
    cases h
    exact ⟨e, hring, rfl⟩

theorem step_cases (h : step data pid s l = some t) : Step data pid s l t := by
  cases l with
  | probe l =>
    have hread : ∀ pad seq, l ≠ .read pad seq := by
      rintro pad seq rfl
      cases h
    have hmap :
        (Kernel.step data.parse s.kernel l).map (fun kernel => { s with kernel }) = some t := by
      cases l with
      | read pad seq => exact absurd rfl (hread pad seq)
      | wal | xact | buffer => exact h
    obtain ⟨kernel, hstep, rfl⟩ := Option.map_eq_some_iff.mp hmap
    obtain ⟨es, hring, hconsumed⟩ := kernel_probe hread hstep
    exact .probe l kernel es hread hstep hring hconsumed
  | wakes =>
    simp only [step] at h
    split at h
    next hreader =>
      cases h
      exact .wakes hreader
    next => cases h
  | parses pad =>
    simp only [step, Sources.parses] at h
    split at h
    next e rest hreader hring =>
      rw [parseRawEvent_ringEvent] at h
      cases h
      exact .parses pad e rest hreader hring
    next => cases h
  | consumes =>
    simp only [step] at h
    split at h
    next pad seq hreader =>
      obtain ⟨kernel, hstep, rfl⟩ := Option.map_eq_some_iff.mp h
      obtain ⟨e, hring, hconsumed⟩ := kernel_read hstep
      exact .consumes pad seq e kernel hreader hring hstep hconsumed
    next => cases h
  | sleeps =>
    simp only [step] at h
    split at h
    next hreader _ =>
      cases h
      exact .sleeps hreader
    next => cases h
  | counts =>
    simp only [step] at h
    split at h
    next hticker _ =>
      cases h
      exact .counts hticker
    next => cases h
  | ticks now =>
    simp only [step] at h
    split at h
    next hticker =>
      cases h
      exact .ticks now hticker
    next => cases h
  | polls dir =>
    simp only [step] at h
    split at h
    next hpoller =>
      cases h
      exact .polls dir hpoller
    next => cases h
  | draws now =>
    simp only [step] at h
    split at h
    next e events hpoller hheld =>
      cases h
      exact .record now e events hpoller hheld
    next hpoller hheld =>
      cases h
      exact .beat now hpoller hheld
    next => cases h
  | sends p =>
    obtain ⟨x, hheld, rfl⟩ := Option.map_eq_some_iff.mp h
    exact .sends p x hheld

/-! The reader of the ring buffer. -/

def State.forwarded (s : State Value) : List Event :=
  match s.reader with
  | .sent .. => s.kernel.ring.take 1
  | _ => []

/-- The reader sends what it makes of the records in the order of the buffer. -/
structure FromRing (data : Data Value) (s : State Value) : Prop where
  sent : List.Forall₂ (Decodes data.parse) (s.kernel.consumed ++ s.forwarded) (s.of .ringbuf)
  waits : ∀ x, s.tickets.held .ringbuf = some x → ∃ pad seq e rest,
    s.reader = .parsed pad seq ∧ s.kernel.ring = e :: rest ∧ Decodes data.parse e x.2
  ring : ∀ pad seq, s.reader = .sent pad seq → s.kernel.ring ≠ []

theorem FromRing.congr (h : FromRing data s) (hkernel : t.kernel = s.kernel)
    (hreader : t.reader = s.reader) (hof : t.of .ringbuf = s.of .ringbuf)
    (hheld : t.tickets.held .ringbuf = s.tickets.held .ringbuf) : FromRing data t := by
  obtain ⟨hsent, hwaits, hring⟩ := h
  refine ⟨?_, ?_, ?_⟩
  · unfold State.forwarded at hsent ⊢
    rw [hkernel, hreader, hof]
    exact hsent
  · rw [hkernel, hreader, hheld]
    exact hwaits
  · rw [hkernel, hreader]
    exact hring

/-- Between two records the reader has nothing in hand. -/
theorem FromRing.moves (h : FromRing data s) {reader : Reader}
    (hbefore : s.reader = .asleep ∨ s.reader = .awake)
    (hafter : reader = .asleep ∨ reader = .awake) : FromRing data { s with reader } := by
  obtain ⟨hsent, hwaits, -⟩ := h
  refine ⟨?_, fun x hx => ?_, ?_⟩
  · have hnone : s.forwarded = [] := by
      unfold State.forwarded
      rcases hbefore with hbefore | hbefore <;> rw [hbefore]
    rw [hnone] at hsent
    rcases hafter with rfl | rfl <;> exact hsent
  · obtain ⟨pad, seq, e, rest, hreader, -⟩ := hwaits x hx
    rcases hbefore with hbefore | hbefore <;> (rw [hbefore] at hreader; cases hreader)
  · rintro pad seq hreader
    rcases hafter with rfl | rfl <;> cases hreader

theorem FromRing.step (h : FromRing data s) (hstep : Step data pid s l t) : FromRing data t := by
  cases hstep with
  | probe l kernel es hread hstep hring hconsumed =>
    refine ⟨?_, ?_, ?_⟩
    · have hsame : State.forwarded { s with kernel } = s.forwarded := by
        unfold State.forwarded
        dsimp only
        split
        next pad seq hreader =>
          obtain ⟨e, rest, heq⟩ := List.exists_cons_of_ne_nil (h.ring pad seq hreader)
          rw [hring, heq]
          rfl
        next => rfl
      rw [hsame]
      dsimp only
      rw [hconsumed]
      exact h.sent
    · intro x hx
      obtain ⟨pad, seq, e, rest, hreader, heq, hdecodes⟩ := h.waits x hx
      exact ⟨pad, seq, e, rest ++ es, hreader, by rw [hring, heq]; rfl, hdecodes⟩
    · intro pad seq hreader
      dsimp only
      rw [hring]
      exact List.append_ne_nil_of_left_ne_nil (h.ring pad seq hreader) es
  | wakes hreader => exact h.moves (.inl hreader) (.inr rfl)
  | sleeps hreader => exact h.moves (.inr hreader) (.inl rfl)
  | parses pad e rest hreader hring =>
    refine ⟨?_, ?_, ?_⟩
    · have hsent := h.sent
      unfold State.forwarded at hsent
      rw [hreader] at hsent
      exact hsent
    · intro x hx
      have hx' : some (s.tickets.next, ringEvent data s.nextSeq e) = some x :=
        (held_draw_self s .ringbuf _).symm.trans hx
      cases hx'
      exact ⟨pad, s.nextSeq, e, rest, rfl, hring, ⟨rfl, rfl, rfl, rfl⟩⟩
    · intro pad' seq hsent
      cases hsent
  | consumes pad seq e kernel hreader hring hstep hconsumed =>
    refine ⟨?_, ?_, ?_⟩
    · have hsent := h.sent
      unfold State.forwarded at hsent
      rw [hreader, hring] at hsent
      change List.Forall₂ _ (kernel.consumed ++ []) (s.of .ringbuf)
      rw [hconsumed, List.append_nil]
      exact hsent
    · intro x hx
      obtain ⟨pad', seq', e', rest, hparsed, -⟩ := h.waits x hx
      rw [hreader] at hparsed
      cases hparsed
    · intro pad' seq' hsent
      cases hsent
  | sends p x hheld =>
    by_cases hp : p = .ringbuf
    · subst hp
      obtain ⟨pad, seq, e, rest, hparsed, hring, hdecodes⟩ := h.waits x hheld
      have hsent := h.sent
      unfold State.forwarded at hsent
      rw [hparsed, List.append_nil] at hsent
      have hsend : s.send .ringbuf x =
          { s with tickets := s.tickets.hand .ringbuf x, reader := .sent pad seq } := by
        simp only [State.send, State.resume, hparsed]
      have hhead : (s.send .ringbuf x).forwarded = [e] := by
        rw [hsend]
        simp [State.forwarded, hring]
      refine ⟨?_, ?_, ?_⟩
      · rw [of_send_self, hhead, hsend]
        exact List.rel_append hsent (.cons hdecodes .nil)
      · intro y hy
        rw [held_send_self] at hy
        cases hy
      · intro pad' seq' _
        rw [hsend]
        dsimp only
        rw [hring]
        exact List.cons_ne_nil _ _
    · obtain ⟨hkernel, -, -, hreader, -⟩ := resume_spec { s with tickets := s.tickets.hand p x } p
      exact h.congr hkernel (hreader hp) (of_send_ne hp s x) (held_send_ne hp s x)
  | counts | polls => exact h.congr rfl rfl rfl rfl
  | ticks | record | beat => exact h.congr rfl rfl rfl (held_draw_ne (by decide) s _)

/-! The polls of the WAL files. -/

def polled (labels : List Label) : List Directory :=
  labels.filterMap fun
    | .polls dir => some dir
    | _ => none

def seenAfter (limit : Nat) (seenLsns : Finset String) (dirs : List Directory) : Finset String :=
  dirs.foldl (fun seenLsns dir => (collectNewWalEvents dir seenLsns limit).2) seenLsns

theorem collectAll_concat (limit : Nat) (seenLsns : Finset String) (dirs : List Directory)
    (dir : Directory) :
    collectAll limit seenLsns (dirs ++ [dir]) = collectAll limit seenLsns dirs ++
      (collectNewWalEvents dir (seenAfter limit seenLsns dirs) limit).1 := by
  induction dirs generalizing seenLsns with
  | nil => simp [collectAll, seenAfter]
  | cons d dirs ih =>
    rw [List.cons_append, collectAll, collectAll, ih, List.append_assoc]
    rfl

structure Reports (data : Data Value) (pid : UInt32) (e : WalInsertEvent) (event : WsEvent Value) :
    Prop where
  eventType : event.eventType = "wal_insert"
  pid : event.pid = pid
  data : event.data = data.toValue (.walInsert e)

def isWalInsert (event : WsEvent Value) : Bool := event.eventType = "wal_insert"

structure Beat (data : Data Value) (pid : UInt32) (event : WsEvent Value) : Prop where
  eventType : event.eventType = "heartbeat"
  pid : event.pid = pid
  data : event.data = data.ebpfStatus ∨
    ∃ walEventsSeen, event.data = data.walFileStatus walEventsSeen

def Poller.rest : Poller → List WalInsertEvent
  | .busy events => events
  | _ => []

/-- The poller sends the records that the polls found, in their order, and heartbeats. -/
structure FromFiles (data : Data Value) (pid : UInt32) (dirs : List Directory) (s : State Value) :
    Prop where
  seen : s.seenLsns = seenAfter 256 ∅ dirs
  records : ∃ sent waiting, collectAll 256 ∅ dirs = sent ++ waiting ++ s.poller.rest ∧
    List.Forall₂ (Reports data pid) sent ((s.of .poller).filter isWalInsert) ∧
    List.Forall₂ (Reports data pid) waiting ((s.waitsWith .poller).filter isWalInsert)
  kinds : ∀ event ∈ s.of .poller ++ s.waitsWith .poller,
    isWalInsert event = true ∨ Beat data pid event

theorem FromFiles.congr {dirs : List Directory} (h : FromFiles data pid dirs s)
    (hseen : t.seenLsns = s.seenLsns) (hpoller : t.poller = s.poller)
    (hof : t.of .poller = s.of .poller)
    (hheld : t.tickets.held .poller = s.tickets.held .poller) : FromFiles data pid dirs t := by
  have hwaits : t.waitsWith .poller = s.waitsWith .poller := by
    unfold State.waitsWith
    rw [hheld]
  obtain ⟨hseen', hrecords, hkinds⟩ := h
  refine ⟨hseen.trans hseen', ?_, ?_⟩
  · rw [hpoller, hof, hwaits]
    exact hrecords
  · rw [hof, hwaits]
    exact hkinds

/-- The poller waits with a new event and has these records left. -/
theorem FromFiles.draws {dirs : List Directory} (h : FromFiles data pid dirs s)
    (hheld : s.tickets.held .poller = none) {event : WsEvent Value} {poller : Poller}
    (waiting : List WalInsertEvent) (hrest : s.poller.rest = waiting ++ poller.rest)
    (hevent : List.Forall₂ (Reports data pid) waiting ([event].filter isWalInsert))
    (hkind : isWalInsert event = true ∨ Beat data pid event) :
    FromFiles data pid dirs { s.draw .poller event with poller } := by
  obtain ⟨hseen, ⟨sent, before, hall, hsent, hbefore⟩, hkinds⟩ := h
  have hnone : s.waitsWith .poller = [] := by
    unfold State.waitsWith
    rw [hheld]
    rfl
  have hone : State.waitsWith { s.draw .poller event with poller } .poller = [event] := by
    simp [State.waitsWith, State.draw, Basis.Tickets.State.draw]
  rw [hnone] at hbefore hkinds
  cases hbefore
  refine ⟨hseen, ⟨sent, waiting, ?_, hsent, ?_⟩, ?_⟩
  · rw [hall, hrest, List.append_nil, List.append_assoc]
  · rw [hone]
    exact hevent
  · rw [hone]
    rw [List.append_nil] at hkinds
    exact List.forall_mem_append.mpr ⟨hkinds, List.forall_mem_singleton.mpr hkind⟩

theorem FromFiles.sends {dirs : List Directory} (h : FromFiles data pid dirs s)
    (hheld : s.tickets.held .poller = some x) :
    FromFiles data pid dirs (s.send .poller x) := by
  obtain ⟨hseen, ⟨sent, waiting, hall, hsent, hwaiting⟩, hkinds⟩ := h
  have hseen' : (s.send .poller x).seenLsns = s.seenLsns :=
    (resume_spec { s with tickets := s.tickets.hand .poller x } .poller).2.2.1
  have hof : (s.send .poller x).of .poller = s.of .poller ++ s.waitsWith .poller := by
    unfold State.waitsWith
    rw [hheld, of_send_self]
    rfl
  have hnone : (s.send .poller x).waitsWith .poller = [] := by
    unfold State.waitsWith
    rw [held_send_self]
    rfl
  have hrest : (s.send .poller x).poller.rest = s.poller.rest := by
    unfold State.send State.resume
    dsimp only
    split
    next hlast => rw [hlast]; rfl
    next => rfl
  refine ⟨hseen'.trans hseen, ⟨sent ++ waiting, [], ?_, ?_, ?_⟩, ?_⟩
  · rw [hall, hrest, List.append_nil]
  · rw [hof, List.filter_append]
    exact List.rel_append hsent hwaiting
  · rw [hnone]
    exact .nil
  · rw [hof, hnone, List.append_nil]
    exact hkinds

theorem FromFiles.step (h : FromFiles data pid (polled labels) s) (hstep : Step data pid s l t) :
    FromFiles data pid (polled (labels ++ [l])) t := by
  have hpolled (hl : ∀ dir, l ≠ .polls dir) : polled (labels ++ [l]) = polled labels := by
    cases l with
    | polls dir => exact absurd rfl (hl dir)
    | _ => simp [polled]
  cases hstep with
  | polls dir hpoller =>
    have hdirs : polled (labels ++ [.polls dir]) = polled labels ++ [dir] := by simp [polled]
    obtain ⟨hseen, ⟨sent, waiting, hall, hsent, hwaiting⟩, hkinds⟩ := h
    rw [hpoller] at hall
    rw [hdirs]
    refine ⟨?_, ⟨sent, waiting, ?_, hsent, hwaiting⟩, hkinds⟩
    · dsimp only
      rw [hseen, seenAfter, seenAfter, List.foldl_concat]
    · rw [collectAll_concat, hall, ← hseen]
      simp [Poller.rest]
  | record now e events hpoller hheld =>
    rw [hpolled (by simp)]
    refine h.draws hheld [e] (by rw [hpoller]; rfl) ?_ (.inl rfl)
    exact .cons ⟨rfl, rfl, rfl⟩ .nil
  | beat now hpoller hheld =>
    rw [hpolled (by simp)]
    exact h.draws hheld [] (by rw [hpoller]; rfl) .nil (.inr ⟨rfl, rfl, .inr ⟨_, rfl⟩⟩)
  | sends p x hheld =>
    rw [hpolled (by simp)]
    by_cases hp : p = .poller
    · subst hp
      exact h.sends hheld
    · obtain ⟨-, -, hseen, -, hpoller, -⟩ :=
        resume_spec { s with tickets := s.tickets.hand p x } p
      exact h.congr hseen (hpoller hp) (of_send_ne hp s x) (held_send_ne hp s x)
  | probe | wakes | sleeps | consumes | counts =>
    rw [hpolled (by simp)]
    exact h.congr rfl rfl rfl rfl
  | parses | ticks =>
    rw [hpolled (by simp)]
    exact h.congr rfl rfl rfl (held_draw_ne (by decide) s _)

/-! The ticker. -/

structure FromTicker (data : Data Value) (pid : UInt32) (s : State Value) : Prop where
  kinds : ∀ event ∈ s.of .ticker ++ s.waitsWith .ticker, Beat data pid event
  waits : ∀ x, s.tickets.held .ticker = some x → s.ticker = .drawn

theorem FromTicker.congr (h : FromTicker data pid s) (hticker : t.ticker = s.ticker)
    (hof : t.of .ticker = s.of .ticker)
    (hheld : t.tickets.held .ticker = s.tickets.held .ticker) : FromTicker data pid t := by
  obtain ⟨hkinds, hwaits⟩ := h
  refine ⟨?_, ?_⟩
  · unfold State.waitsWith
    rw [hof, hheld]
    exact hkinds
  · rw [hheld, hticker]
    exact hwaits

theorem FromTicker.step (h : FromTicker data pid s) (hstep : Step data pid s l t) :
    FromTicker data pid t := by
  obtain ⟨hkinds, hwaits⟩ := h
  cases hstep with
  | counts hticker =>
    refine ⟨hkinds, fun x hx => ?_⟩
    have hdrawn := hwaits x hx
    rw [hticker] at hdrawn
    cases hdrawn
  | ticks now hticker =>
    refine ⟨?_, fun _ _ => rfl⟩
    have hone : State.waitsWith { s.draw .ticker (heartbeat pid now s.nextSeq data.ebpfStatus) with
        ticker := .drawn } .ticker = [heartbeat pid now s.nextSeq data.ebpfStatus] := by
      simp [State.waitsWith, State.draw, Basis.Tickets.State.draw]
    rw [hone]
    exact List.forall_mem_append.mpr
      ⟨(List.forall_mem_append.mp hkinds).1,
        List.forall_mem_singleton.mpr ⟨rfl, rfl, .inl rfl⟩⟩
  | sends p x hheld =>
    by_cases hp : p = .ticker
    · subst hp
      refine ⟨?_, fun y hy => ?_⟩
      · unfold State.waitsWith at hkinds ⊢
        rw [of_send_self, held_send_self]
        rw [hheld] at hkinds
        simpa using hkinds
      · rw [held_send_self] at hy
        cases hy
    · have hticker := (resume_spec { s with tickets := s.tickets.hand p x } p).2.2.2.2.2 hp
      exact .congr ⟨hkinds, hwaits⟩ hticker (of_send_ne hp s x) (held_send_ne hp s x)
  | probe | wakes | sleeps | consumes | polls => exact .congr ⟨hkinds, hwaits⟩ rfl rfl rfl
  | parses | record | beat =>
    exact .congr ⟨hkinds, hwaits⟩ rfl rfl (held_draw_ne (by decide) s _)

/-! The numbers. -/

structure Numbered (s : State Value) : Prop where
  fair : Fair s.tickets
  out : ∀ x ∈ s.tickets.out, x.value.seq = UInt64.ofNat x.number
  held : ∀ p x, s.tickets.held p = some x → x.2.seq = UInt64.ofNat x.1

theorem Numbered.draw (h : Numbered s) (hfree : s.tickets.held p = none) {event : WsEvent Value}
    (hseq : event.seq = s.nextSeq) (htickets : t.tickets = (s.draw p event).tickets) :
    Numbered t := by
  obtain ⟨hfair, hout, hheld⟩ := h
  refine ⟨?_, ?_, ?_⟩
  · rw [htickets]
    exact hfair.draw hfree event
  · rw [htickets]
    exact hout
  · rw [htickets]
    intro q x hx
    by_cases hq : q = p
    · subst hq
      rw [held_draw_self] at hx
      cases hx
      exact hseq
    · rw [held_draw_ne hq] at hx
      exact hheld q x hx

theorem Numbered.send (h : Numbered s) (hheld : s.tickets.held p = some x) :
    Numbered (s.send p x) := by
  obtain ⟨hfair, hout, hholds⟩ := h
  refine ⟨?_, ?_, ?_⟩
  · rw [tickets_send]
    exact hfair.hand hheld
  · rw [tickets_send]
    exact List.forall_mem_append.mpr ⟨hout, List.forall_mem_singleton.mpr (hholds p x hheld)⟩
  · intro q y hy
    by_cases hq : p = q
    · subst hq
      rw [held_send_self] at hy
      cases hy
    · rw [held_send_ne hq] at hy
      exact hholds q y hy

/-! Runs. -/

def probes (labels : List Label) : List Kernel.Label :=
  labels.filterMap fun
    | .probe l => some l
    | _ => none

structure Sourced (data : Data Value) (pid : UInt32) (labels : List Label) (s : State Value) :
    Prop where
  numbered : Numbered s
  ring : FromRing data s
  files : FromFiles data pid (polled labels) s
  ticker : FromTicker data pid s
  tracked : Tracked (probes labels) s.kernel
  accounts : Accounts data.parse s.kernel

theorem Sourced.numbered_step (h : Sourced data pid labels s) (hstep : Step data pid s l t) :
    Numbered t := by
  have hnumbered := h.numbered
  cases hstep with
  | parses pad e rest hreader hring =>
    have hfree : s.tickets.held .ringbuf = none := by
      rw [Option.eq_none_iff_forall_ne_some]
      intro x hx
      obtain ⟨pad, seq, e, rest, hparsed, -⟩ := h.ring.waits x hx
      rw [hreader] at hparsed
      cases hparsed
    exact hnumbered.draw hfree rfl rfl
  | ticks now hticker =>
    have hfree : s.tickets.held .ticker = none := by
      rw [Option.eq_none_iff_forall_ne_some]
      intro x hx
      have hdrawn := h.ticker.waits x hx
      rw [hticker] at hdrawn
      cases hdrawn
    exact hnumbered.draw hfree rfl rfl
  | record now e events hpoller hheld => exact hnumbered.draw hheld rfl rfl
  | beat now hpoller hheld => exact hnumbered.draw hheld rfl rfl
  | sends p x hheld => exact hnumbered.send hheld
  | probe | wakes | consumes | sleeps | counts | polls =>
    exact ⟨hnumbered.fair, hnumbered.out, hnumbered.held⟩

theorem Sourced.tracked_step (h : Sourced data pid labels s) (hstep : Step data pid s l t) :
    Tracked (probes (labels ++ [l])) t.kernel ∧ Accounts data.parse t.kernel := by
  have hsame (hl : ∀ l', l ≠ .probe l') : probes (labels ++ [l]) = probes labels := by
    cases l with
    | probe l' => exact absurd rfl (hl l')
    | _ => simp [probes]
  have htotal : ∀ d, (data.parse d).isSome := fun _ => rfl
  cases hstep with
  | probe l kernel es hread hstep hring hconsumed =>
    have hprobes : probes (labels ++ [.probe l]) = probes labels ++ [l] := by simp [probes]
    rw [hprobes]
    exact ⟨h.tracked.step hstep, h.accounts.step htotal hstep⟩
  | consumes pad seq e kernel hreader hring hstep hconsumed =>
    rw [hsame (by simp)]
    exact ⟨(h.tracked.step hstep).unread, h.accounts.step htotal hstep⟩
  | sends p x hheld =>
    rw [hsame (by simp)]
    have hkernel : (s.send p x).kernel = s.kernel := (resume_spec _ p).1
    rw [hkernel]
    exact ⟨h.tracked, h.accounts⟩
  | wakes | parses | sleeps | counts | ticks | polls | record | beat =>
    rw [hsame (by simp)]
    exact ⟨h.tracked, h.accounts⟩

theorem Sourced.step (h : Sourced data pid labels s) (hstep : Step data pid s l t) :
    Sourced data pid (labels ++ [l]) t where
  numbered := h.numbered_step hstep
  ring := h.ring.step hstep
  files := h.files.step hstep
  ticker := h.ticker.step hstep
  tracked := (h.tracked_step hstep).1
  accounts := (h.tracked_step hstep).2

theorem kernel_run_nil (data : Data Value) :
    (kernel data.parse).run [] = some (kernel data.parse).init := rfl

theorem sourced_init : Sourced data pid [] (sources data pid).init where
  numbered := ⟨fair_initial, List.forall_mem_nil _, fun _ _ h => nomatch h⟩
  ring := ⟨.nil, fun _ h => (nomatch h), fun _ _ h => (nomatch h)⟩
  files := ⟨rfl, ⟨[], [], rfl, .nil, .nil⟩, List.forall_mem_nil _⟩
  ticker := ⟨List.forall_mem_nil _, fun _ h => (nomatch h)⟩
  tracked := tracked_run (kernel_run_nil data)
  accounts := accounts_run (fun _ => rfl) (kernel_run_nil data)

end

end LearnPg.Pipeline.Sources
