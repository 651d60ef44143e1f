import LearnPg.Pipeline.Delivery
import LearnPg.Pipeline.Origins
import LearnPg.Pipeline.Texts

/-! From the probes to the pages: the sources put their events into the channel that the
pipeline takes them from. The events that a page shows have the numbers of their texts; what
JavaScript makes of a number is `EventText.double`. -/
namespace LearnPg.Pipeline.World

open Basis.Merging Basis.Runs Basis.Tickets Collector Collector.Kernel Frontend Sources

structure State (κ β ω Value : Type) where
  sources : Sources.State Value
  pipeline : Pipeline.State κ β ω (WsEvent Value)

inductive Label (κ β ω Value : Type) where
  | source (l : Sources.Label)
  | pipeline (l : Pipeline.Label κ β ω (WsEvent Value))

section

variable {κ β ω Value : Type} [DecidableEq κ] [DecidableEq β] [DecidableEq ω]

/-- A source's send is the pipeline's put. The channel stays open, as the poller never ends. -/
def step (wire : Wire (WsEvent Value)) (cfg : WebSocket.Config) (data : Data Value)
    (pid : UInt32) (s : State κ β ω Value) : Label κ β ω Value → Option (State κ β ω Value)
  | .source l =>
    (Sources.step data pid s.sources l).bind fun sources =>
      match puts s.sources l with
      | some e => (Pipeline.step wire cfg s.pipeline (.collector (.put e))).map fun pipeline =>
        { sources, pipeline }
      | none => some { s with sources }
  | .pipeline (.collector (.put _)) | .pipeline (.collector .close) => none
  | .pipeline l => (Pipeline.step wire cfg s.pipeline l).map fun pipeline => { s with pipeline }

def world (wire : Wire (WsEvent Value)) (cfg : WebSocket.Config) (data : Data Value)
    (pid : UInt32) : Machine (State κ β ω Value) (Label κ β ω Value) where
  init := ⟨(sources data pid).init, initial⟩
  step := step wire cfg data pid

/-- The close event of a page's socket comes while the page has no other live one. -/
def OwnCloses (s : State κ β ω Value) : Label κ β ω Value → Prop
  | .pipeline l => Pipeline.OwnCloses s.pipeline l
  | .source _ => True

instance (s : State κ β ω Value) (lab : Label κ β ω Value) : Decidable (OwnCloses s lab) :=
  match lab with
  | .pipeline l => inferInstanceAs (Decidable (Pipeline.OwnCloses s.pipeline l))
  | .source _ => .isTrue trivial

def sourceLabels (labels : List (Label κ β ω Value)) : List Sources.Label :=
  labels.filterMap fun
    | .source l => some l
    | _ => none

variable {wire : Wire (WsEvent Value)} {cfg : WebSocket.Config} {data : Data Value}
  {pid : UInt32} {s t : State κ β ω Value} {lab : Label κ β ω Value}
  {labels : List (Label κ β ω Value)}

def State.drawnEvents (s : State κ β ω Value) : List (WsEvent Value) :=
  s.sources.tickets.out.map (·.value)

inductive Step (wire : Wire (WsEvent Value)) (cfg : WebSocket.Config) (data : Data Value)
    (pid : UInt32) (s : State κ β ω Value) : Label κ β ω Value → State κ β ω Value → Prop where
  | source (l : Sources.Label) (sources : Sources.State Value)
      (hstep : Sources.Step data pid s.sources l sources) (hputs : puts s.sources l = none) :
      Step wire cfg data pid s (.source l) { s with sources }
  | put (p : Source) (x : Nat × WsEvent Value) (pipeline : Pipeline.State κ β ω (WsEvent Value))
      (hheld : s.sources.tickets.held p = some x)
      (hstep : Pipeline.step wire cfg s.pipeline (.collector (.put x.2)) = some pipeline) :
      Step wire cfg data pid s (.source (.sends p)) { sources := s.sources.send p x, pipeline }
  | pipeline (l : Pipeline.Label κ β ω (WsEvent Value))
      (pipeline : Pipeline.State κ β ω (WsEvent Value))
      (hstep : Pipeline.step wire cfg s.pipeline l = some pipeline)
      (hput : ∀ e, l ≠ .collector (.put e)) :
      Step wire cfg data pid s (.pipeline l) { s with pipeline }

theorem step_cases (h : step wire cfg data pid s lab = some t) :
    Step wire cfg data pid s lab t := by
  unfold step at h
  split at h
  next l =>
    obtain ⟨sources, hstep, h⟩ := Option.bind_eq_some_iff.mp h
    have hsource := Sources.step_cases hstep
    split at h
    next e hputs =>
      obtain ⟨pipeline, hpipeline, rfl⟩ := Option.map_eq_some_iff.mp h
      cases l with
      | sends p =>
        cases hsource with
        | sends _ x hheld =>
          simp only [puts, hheld, Option.map_some, Option.some_inj] at hputs
          subst hputs
          exact .put p x pipeline hheld hpipeline
      | _ => cases hputs
    next hputs =>
      cases h
      exact .source l sources hsource hputs
  · cases h
  · cases h
  next l hput hclose =>
    obtain ⟨pipeline, hstep, rfl⟩ := Option.map_eq_some_iff.mp h
    exact .pipeline l pipeline hstep fun e heq => hput e heq

/-! What the two halves have in common. -/

omit [DecidableEq κ] [DecidableEq β] [DecidableEq ω] in
theorem out_of_puts {sources : Sources.State Value} {l : Sources.Label}
    {s : Sources.State Value} (hstep : Sources.Step data pid s l sources)
    (hputs : puts s l = none) : sources.tickets.out = s.tickets.out := by
  cases hstep with
  | sends p x hheld => simp [puts, hheld] at hputs
  | _ => rfl

structure Joined (data : Data Value) (pid : UInt32) (wire : Wire (WsEvent Value))
    (labels : List (Label κ β ω Value)) (s : State κ β ω Value) : Prop where
  sourced : Sourced data pid (sourceLabels labels) s.sources
  inv : Inv wire s.pipeline
  put : s.pipeline.collector.put = s.drawnEvents

theorem Joined.step (h : Joined data pid wire labels s)
    (hstep : Step wire cfg data pid s lab t) (hown : OwnCloses s lab) :
    Joined data pid wire (labels ++ [lab]) t := by
  obtain ⟨hsourced, hinv, hput⟩ := h
  cases hstep with
  | source l sources hstep hputs =>
    have hlabels : sourceLabels (labels ++ [.source l]) = sourceLabels labels ++ [l] := by
      simp [sourceLabels]
    refine ⟨?_, hinv, ?_⟩
    · rw [hlabels]
      exact hsourced.step hstep
    · unfold State.drawnEvents at hput ⊢
      rw [hput, out_of_puts hstep hputs]
  | put p x pipeline hheld hstep =>
    have hlabels : sourceLabels (labels ++ [.source (.sends p)]) =
        sourceLabels labels ++ [.sends p] := by simp [sourceLabels]
    refine ⟨?_, hinv.step (Pipeline.step_cases hstep) trivial, ?_⟩
    · rw [hlabels]
      exact hsourced.step (.sends p x hheld)
    · unfold State.drawnEvents at hput ⊢
      rw [step_put hstep, hput, tickets_send]
      simp [Basis.Tickets.State.hand, putBy]
  | pipeline l pipeline hstep hl =>
    have hlabels : sourceLabels (labels ++ [.pipeline l]) = sourceLabels labels := by
      simp [sourceLabels]
    refine ⟨?_, hinv.step (Pipeline.step_cases hstep) hown, ?_⟩
    · rw [hlabels]
      exact hsourced
    · have hnone : putBy l = [] := by
        unfold putBy
        split
        next e => exact absurd rfl (hl e)
        next => rfl
      dsimp only [State.drawnEvents]
      rw [step_put hstep, hnone, List.append_nil]
      exact hput

theorem joined_run (hrun : (world wire cfg data pid).run labels = some s)
    (hown : (world wire cfg data pid).Meets OwnCloses (world wire cfg data pid).init labels) :
    Joined data pid wire labels s := by
  have hinit :
      Joined data pid wire [] (world wire cfg data pid : Machine (State κ β ω Value) _).init :=
    ⟨sourced_init, inv_initial, rfl⟩
  exact run_history_of_meets hinit
    (fun _ _ _ _ _ h hcond hstep => h.step (step_cases hstep) hcond) hown hrun

/-! The numbers. -/

omit [DecidableEq κ] [DecidableEq β] [DecidableEq ω] in
/-- Up to 2^53 the numbers that are drawn are those that a page has. -/
theorem seq_numbers (h : Numbered s.sources) (hnext : s.sources.tickets.next ≤ 2 ^ 53) :
    s.drawnEvents.map (fun e => EventText.double e.seq.toNat) = s.sources.tickets.numbers := by
  unfold State.drawnEvents Basis.Tickets.State.numbers
  rw [List.map_map]
  apply List.map_congr_left
  intro x hx
  have hlt : x.number < 2 ^ 53 :=
    Nat.lt_of_lt_of_le (h.fair.below x.number (List.mem_map_of_mem hx)) hnext
  have hseq : x.value.seq.toNat = x.number := by
    rw [h.out x hx]
    exact Nat.mod_eq_of_lt (hlt.trans (by decide))
  rw [Function.comp_apply, hseq]
  exact Basis.Doubles.nearest_of_lt hlt

/-- While doubles can tell the counter's values apart, no two events on a page have the same number,
and of those that were sent over one connection of the collector no more than two with a smaller
number follow one with a greater. -/
theorem seq_distinct (hrun : (world wire cfg data pid).run labels = some s)
    (hown : (world wire cfg data pid).Meets OwnCloses (world wire cfg data pid).init labels)
    (hnext : s.sources.tickets.next ≤ 2 ^ 53) (w : ω) :
    ((s.pipeline.shown w).map fun e => EventText.double e.seq.toNat).Nodup ∧
      ∃ tagged : List (κ × WsEvent Value), tagged.map Prod.snd = s.pipeline.shown w ∧
        ∀ c, (part c tagged).Sublist (part c s.pipeline.sent) ∧
          LateBy 2 ((part c tagged).map fun e => EventText.double e.seq.toNat) := by
  obtain ⟨hsourced, hinv, hput⟩ := joined_run hrun hown
  have hnumbers := seq_numbers hsourced.numbered hnext
  have hfair := hsourced.numbered.fair
  refine ⟨?_, ?_⟩
  · have hnodup : (s.drawnEvents.map fun e => EventText.double e.seq.toNat).Nodup :=
      hnumbers ▸ hfair.nodup
    obtain ⟨shown, hperm, hsub⟩ := hinv.shown_subperm w
    rw [hput] at hsub
    exact (hperm.map _).nodup_iff.mp (hnodup.sublist (hsub.map _))
  · obtain ⟨tagged, hshown, hparts⟩ := (hinv.page w).shown
    refine ⟨tagged, hshown, fun c => ?_⟩
    have hpart : (part c tagged).Sublist (part c s.pipeline.sent) :=
      (List.sublist_append_left _ _).trans (hparts c)
    have hsent : (part c tagged).Sublist (s.pipeline.sent.map Prod.snd) :=
      hpart.trans (List.filter_sublist.map _)
    have hall := (hsent.trans hinv.sent_sublist).map fun e => EventText.double e.seq.toNat
    rw [hput, hnumbers] at hall
    exact ⟨hpart, hfair.lateBy.sublist hall⟩

end

/-- A thread's insert is probed and read, and before it is sent the ticker draws the next number and
sends its heartbeat. -/
def overtaking : List Sources.Label :=
  [.counts, .probe (.wal 0 (.heapEntry .insert 5 hit)), .probe (.wal 0 (.xlogReturn hit)), .wakes,
    .parses fun _ => 0, .ticks 1, .sends .ticker, .sends .ringbuf]
where
  hit : Hit := ⟨7, 0, ⟨0, 0, 0, 0⟩, true⟩

/-- The collector connects over 0, the page over 1. -/
def connecting : List (Pipeline.Label Nat Unit Unit (WsEvent EventText.Data)) :=
  [.dial 0 true, .hub (.register 0), .hub .lock, .collector .connects, .page () (.mount none),
    .request () 0 1 true, .hub (.register 1), .hub .lock, .page () (.opened 0)]

/-- An event goes to the page and back to the collector. -/
def passing : List (Pipeline.Label Nat Unit Unit (WsEvent EventText.Data)) :=
  [.collector .takes, .collector .sends, .reads 0, .hub (.rlockRead 0), .hub (.forward 0 0),
    .hub (.forward 0 1), .hub (.forwarded 0), .hub (.receive 1 true), .page () (.message 0)]

def overtaken : List (Label Nat Unit Unit EventText.Data) :=
  connecting.map .pipeline ++ overtaking.map .source ++ (passing ++ passing).map .pipeline

theorem overtaken_run : ∃ s : State Nat Unit Unit EventText.Data,
    (world eventWire WebSocket.defaults sourceData 9).run overtaken = some s ∧
      s.sources.tickets.next = 2 ∧ (s.pipeline.shown ()).map (fun e => (e.seq, e.eventType)) =
        [(1, "heartbeat"), (0, "wal_insert")] := by
  have hends : ((world eventWire WebSocket.defaults sourceData 9).run overtaken).map (fun s =>
      (s.sources.tickets.next, (s.pipeline.shown ()).map fun e => (e.seq, e.eventType))) =
        some (2, [(1, "heartbeat"), (0, "wal_insert")]) := by
    decide +kernel
  obtain ⟨s, hrun, hs⟩ := Option.map_eq_some_iff.mp hends
  exact ⟨s, hrun, (Prod.mk.inj hs).1, (Prod.mk.inj hs).2⟩

theorem overtaken_closes : (world eventWire WebSocket.defaults sourceData 9).Meets OwnCloses
    (world eventWire WebSocket.defaults sourceData 9).init overtaken := by
  decide +kernel

theorem seq_distinct_overtaken : ∃ s : State Nat Unit Unit EventText.Data,
    (world eventWire WebSocket.defaults sourceData 9).run overtaken = some s ∧
      (s.pipeline.shown ()).map (·.seq) = [1, 0] ∧
      ((s.pipeline.shown ()).map fun e => EventText.double e.seq.toNat).Nodup ∧
      ∃ tagged, tagged.map Prod.snd = s.pipeline.shown () ∧
        (part 0 tagged).Sublist (part 0 s.pipeline.sent) := by
  obtain ⟨s, hrun, hnext, hshown⟩ := overtaken_run
  have hbound : s.sources.tickets.next ≤ 2 ^ 53 := by
    rw [hnext]
    decide
  have hseqs := congrArg (List.map Prod.fst) hshown
  rw [List.map_map] at hseqs
  obtain ⟨hnodup, tagged, htagged, hparts⟩ := seq_distinct hrun overtaken_closes hbound ()
  exact ⟨s, hrun, hseqs, hnodup, tagged, htagged, (hparts 0).1⟩

section

variable {κ β ω Value : Type} [DecidableEq κ] [DecidableEq β] [DecidableEq ω]
  {wire : Wire (WsEvent Value)} {cfg : WebSocket.Config} {data : Data Value}
  {pid : UInt32} {s : State κ β ω Value} {labels : List (Label κ β ω Value)}

/-! The origins. -/

omit [DecidableEq κ] [DecidableEq β] [DecidableEq ω] in
theorem forall₂_sublist {α γ : Type} {R : α → γ → Prop} {as : List α} {bs bs' : List γ}
    (h : List.Forall₂ R as bs) (hsub : bs'.Sublist bs) :
    ∃ as', as'.Sublist as ∧ List.Forall₂ R as' bs' := by
  induction h generalizing bs' with
  | nil =>
    cases hsub
    exact ⟨[], List.Sublist.refl _, .nil⟩
  | @cons a b as bs hab _ ih =>
    cases hsub with
    | cons _ hsub =>
      obtain ⟨as', has, hall⟩ := ih hsub
      exact ⟨as', has.cons a, hall⟩
    | cons_cons _ hsub =>
      obtain ⟨as', has, hall⟩ := ih hsub
      exact ⟨a :: as', has.cons_cons a, .cons hab hall⟩

/-- The ring buffer's events among those that are out come from records in their order. -/
theorem origins_of_ring {sources : Sources.State Value} {ls : List Sources.Label}
    (h : Sourced data pid ls sources) {events : List (WsEvent Value)}
    (hsub : events.Sublist (sources.of .ringbuf)) :
    ∃ origins, origins.Sublist sources.kernel.events ∧
      List.Forall₂ (Decodes data.parse) origins events := by
  obtain ⟨origins, horigins, hall⟩ := forall₂_sublist h.ring.sent hsub
  refine ⟨origins, horigins.trans ?_, hall⟩
  rw [h.accounts.order]
  refine (List.Sublist.refl _).append ?_
  unfold Sources.State.forwarded
  split
  · exact List.take_sublist _ _
  · exact List.nil_sublist _

theorem records_of_files {sources : Sources.State Value} {ls : List Sources.Label}
    (h : Sourced data pid ls sources) {events : List (WsEvent Value)}
    (hsub : events.Sublist ((sources.of .poller).filter isWalInsert)) :
    ∃ records, records.Sublist (collectAll 256 ∅ (polled ls)) ∧
      List.Forall₂ (Reports data pid) records events := by
  obtain ⟨sent, waiting, hall, hsent, -⟩ := h.files.records
  obtain ⟨records, hrecords, hevents⟩ := forall₂_sublist hsent hsub
  refine ⟨records, hrecords.trans ?_, hevents⟩
  rw [hall, List.append_assoc]
  exact List.sublist_append_left _ _

/-- What a page shows is of what the probes submitted, of what the polls handed out, or a
heartbeat. -/
theorem shown_of_sources (hrun : (world wire cfg data pid).run labels = some s)
    (hown : (world wire cfg data pid).Meets OwnCloses (world wire cfg data pid).init labels)
    (w : ω) :
    ∃ origins fromProbes records fromFiles beats,
      (s.pipeline.shown w).Perm (fromProbes ++ fromFiles ++ beats) ∧
      origins.Sublist s.sources.kernel.events ∧
      List.Forall₂ (Decodes data.parse) origins fromProbes ∧
      records.Sublist (collectAll 256 ∅ (polled (sourceLabels labels))) ∧
      List.Forall₂ (Reports data pid) records fromFiles ∧
      ∀ e ∈ beats, Beat data pid e := by
  obtain ⟨hsourced, hinv, hput⟩ := joined_run hrun hown
  obtain ⟨shown, hperm, hsub⟩ := hinv.shown_subperm w
  rw [hput] at hsub
  obtain ⟨tickets, htickets, rfl⟩ := List.sublist_map_iff.mp hsub
  let ofRing (x : Ticket Source (WsEvent Value)) : Bool := x.party = .ringbuf
  let ofFile (x : Ticket Source (WsEvent Value)) : Bool := x.party = .poller && isWalInsert x.value
  have hsplit : tickets.Perm (tickets.filter ofRing ++ (tickets.filter ofFile ++
      (tickets.filter (!ofRing ·)).filter (!ofFile ·))) := by
    have hfile : (tickets.filter (!ofRing ·)).filter ofFile = tickets.filter ofFile := by
      rw [List.filter_filter]
      apply List.filter_congr
      intro x _
      cases hx : x.party <;> simp [ofRing, ofFile, hx]
    have hrest := List.filter_append_perm ofFile (tickets.filter (!ofRing ·))
    rw [hfile] at hrest
    exact ((List.filter_append_perm ofRing tickets).symm).trans (hrest.symm.append_left _)
  have hring : ((tickets.filter ofRing).map (·.value)).Sublist (s.sources.of .ringbuf) :=
    (htickets.filter _).map _
  have hfiles : ((tickets.filter ofFile).map (·.value)).Sublist
      ((s.sources.of .poller).filter isWalInsert) := by
    have hboth : (s.sources.of .poller).filter isWalInsert =
        (s.sources.tickets.out.filter ofFile).map (·.value) := by
      unfold Sources.State.of
      rw [List.filter_map, List.filter_filter]
      congr 1
      apply List.filter_congr
      intro x _
      simp [ofFile, Bool.and_comm]
    rw [hboth]
    exact (htickets.filter _).map _
  obtain ⟨origins, horigins, hdecodes⟩ := origins_of_ring hsourced hring
  obtain ⟨records, hrecords, hreports⟩ := records_of_files hsourced hfiles
  refine ⟨origins, _, records, _,
    ((tickets.filter (!ofRing ·)).filter (!ofFile ·)).map (·.value), ?_, horigins, hdecodes,
    hrecords, hreports, ?_⟩
  · rw [List.append_assoc, ← List.map_append, ← List.map_append]
    exact hperm.symm.trans (hsplit.map _)
  · intro e he
    obtain ⟨x, hx, rfl⟩ := List.mem_map.mp he
    obtain ⟨hx, hfile⟩ := List.mem_filter.mp hx
    obtain ⟨hx, hnotRing⟩ := List.mem_filter.mp hx
    have hout := htickets.subset hx
    have hof : x.value ∈ s.sources.of x.party :=
      List.mem_map_of_mem (List.mem_filter.mpr ⟨hout, decide_eq_true rfl⟩)
    cases hparty : x.party with
    | ringbuf => simp [ofRing, hparty] at hnotRing
    | ticker =>
      rw [hparty] at hof
      exact hsourced.ticker.kinds _ (List.mem_append_left _ hof)
    | poller =>
      rw [hparty] at hof
      rcases hsourced.files.kinds _ (List.mem_append_left _ hof) with hwal | hbeat
      · simp [ofFile, hparty, hwal] at hfile
      · exact hbeat

end

theorem shown_of_sources_overtaken : ∃ s : State Nat Unit Unit EventText.Data,
    (world eventWire WebSocket.defaults sourceData 9).run overtaken = some s ∧
      (s.pipeline.shown ()).map (·.eventType) = ["heartbeat", "wal_insert"] ∧
      ∃ origins fromProbes rest, (s.pipeline.shown ()).Perm (fromProbes ++ rest) ∧
        origins.Sublist s.sources.kernel.events ∧
        List.Forall₂ (Decodes sourceData.parse) origins fromProbes := by
  obtain ⟨s, hrun, -, hshown⟩ := overtaken_run
  have htypes := congrArg (List.map Prod.snd) hshown
  rw [List.map_map] at htypes
  obtain ⟨origins, fromProbes, records, fromFiles, beats, hperm, horigins, hdecodes, -⟩ :=
    shown_of_sources hrun overtaken_closes ()
  rw [List.append_assoc] at hperm
  exact ⟨s, hrun, htypes, origins, fromProbes, _, hperm, horigins, hdecodes⟩

end LearnPg.Pipeline.World
