import LearnPg.Collector.Xids
import LearnPg.Frontend.Visualization
import LearnPg.Pipeline.World

/-! What the pages' views show of the events that come over the pipeline. -/
namespace LearnPg.Pipeline.Views

open Basis.Json Basis.Runs Basis.Grouping Collector Collector.Kernel
open Collector.EventText Frontend Frontend.EventViews Frontend.Visualization Sources World

/-! The events of the collector. -/

section

variable {e : Received} {name : String} {members : List (String × Value)}

theorem member_eq (h : e.data.value = .object members) :
    member e name = (members.reverse.lookup name).filter (!isNullish ·) := by
  unfold member
  rw [h]

theorem numberAt_natural {n : Nat} (h : member e name = some (natural n)) :
    numberAt e name = n := by
  unfold numberAt number
  rw [h, Option.map_some, Option.getD_some, readNatural_natural]
  rfl

/-- The event tells that some transaction has ended, and how. -/
structure Ended (e : Received) : Prop where
  vxid : member e "vxid" = some (.string "")
  lsn : member e "lsn" = none
  state : member e "state" = some (.string "commit") ∨ member e "state" = some (.string "abort")

theorem numberAt_zero {n : UInt32} (h : member e name = some (natural n.toNat)) (hn : n = 0) :
    numberAt e name = 0 := by
  rw [numberAt_natural h, hn]
  rfl

theorem cstrFromBytes_commit : cstrFromBytes commitText.toList = "commit" := by decide +kernel

theorem cstrFromBytes_abort : cstrFromBytes abortText.toList = "abort" := by decide +kernel

theorem cstrFromBytes_zeros : cstrFromBytes (Vector.replicate 32 0).toList = "" := by
  decide +kernel

theorem eventType_xact {kind : EventKind} (h : kind.eventType = "xact_state") :
    kind = .xactState := by
  revert h
  cases kind <;> decide

/-- An event of the probes names no transaction; that one has ended it may tell. -/
theorem of_probe {o : Event} (h : Decodes sourceData.parse o e) (hname : Nameless o.payload) :
    numberAt e "xid" = 0 ∧ (e.eventType = "xact_state" → Ended e) := by
  have hvalue : e.data.value = eventValue (decoded o.payload) :=
    (congrArg EventText.Data.value (Option.some_inj.mp h.data)).symm
  have htype := h.eventType
  cases hpayload : o.payload with
  | wal p =>
    rw [hpayload] at hvalue hname htype
    refine ⟨numberAt_zero (n := p.xid) ?_ hname, fun hx => ?_⟩
    · rw [member_eq hvalue]
      rfl
    · cases eventType_xact (htype.symm.trans hx)
  | buf p =>
    rw [hpayload] at hvalue htype
    refine ⟨?_, fun hx => ?_⟩
    · unfold numberAt
      rw [member_eq hvalue]
      rfl
    · cases eventType_xact (htype.symm.trans hx)
  | xact p =>
    rw [hpayload] at hvalue hname
    obtain ⟨hxid, -, hlsn, hvxid, hstate⟩ := hname
    have hends : member e "state" = some (.string (cstrFromBytes p.state.toList)) := by
      rw [member_eq hvalue]
      rfl
    refine ⟨numberAt_zero (n := p.xid) ?_ hxid, fun _ => ⟨?_, ?_, ?_⟩⟩
    · rw [member_eq hvalue]
      rfl
    · have hmember : member e "vxid" = some (.string (cstrFromBytes p.vxid.toList)) := by
        rw [member_eq hvalue]
        rfl
      rw [hmember, hvxid, cstrFromBytes_zeros]
    · rw [member_eq hvalue]
      change Option.filter _ (some (orNull Value.string
        (if p.lsn = 0 then none else some (Wal.formatLSN64 p.lsn)))) = none
      rw [if_pos hlsn]
      rfl
    · rcases hstate with hstate | hstate
      · left
        rw [hends, hstate, cstrFromBytes_commit]
      · right
        rw [hends, hstate, cstrFromBytes_abort]
  | lock p =>
    rw [hpayload] at hvalue hname htype
    refine ⟨numberAt_zero (n := p.xid) ?_ hname, fun hx => ?_⟩
    · rw [member_eq hvalue]
      rfl
    · cases eventType_xact (htype.symm.trans hx)

theorem mem_collectNewWalEvents {dir : Directory} {seenLsns : Finset String} {limit : Nat}
    {r : WalInsertEvent} (h : r ∈ (collectNewWalEvents dir seenLsns limit).1) :
    r ∈ present dir := by
  by_cases hidle : listSegments dir = []
  · rw [(collectNewWalEvents_idle hidle seenLsns limit).1] at h
    cases h
  · rw [collectNewWalEvents_eq_poll hidle] at h
    exact Basis.Polling.takeNew_subset ((Basis.Polling.newest_suffix _ _).subset h)

theorem source_of_present {dir : Directory} {r : WalInsertEvent} (h : r ∈ present dir) :
    r.source = "wal-file" := by
  obtain ⟨segment, -, hr⟩ := List.mem_flatMap.mp h
  cases hdata : segment.data with
  | error message =>
    rw [hdata] at hr
    cases hr
  | ok data =>
    rw [hdata, readRecords_eq_scan] at hr
    obtain ⟨x, -, rfl⟩ := List.mem_map.mp hr
    rfl

theorem source_of_collectAll {limit : Nat} {seenLsns : Finset String} {dirs : List Directory}
    {r : WalInsertEvent} (h : r ∈ collectAll limit seenLsns dirs) : r.source = "wal-file" := by
  induction dirs generalizing seenLsns with
  | nil => cases h
  | cons dir dirs ih =>
    rcases List.mem_append.mp h with h | h
    · exact source_of_present (mem_collectNewWalEvents h)
    · exact ih h

theorem of_file {pid : UInt32} {r : WalInsertEvent} (h : Reports sourceData pid r e) :
    stringAt e "source" = r.source := by
  have hvalue : e.data.value = eventValue (.walInsert r) := congrArg EventText.Data.value h.data
  unfold stringAt
  rw [member_eq hvalue]
  rfl

theorem of_beat {pid : UInt32} (h : Beat sourceData pid e) : numberAt e "xid" = 0 ∧
    (stringOnly e "mode" = some "ebpf-uprobe" ∨ stringOnly e "mode" = some "wal-file") := by
  unfold numberAt stringOnly
  rcases h.data with hdata | ⟨n, hdata⟩
  · have hvalue : e.data.value = ebpfStatusValue := congrArg EventText.Data.value hdata
    rw [member_eq hvalue, member_eq hvalue]
    exact ⟨rfl, .inl rfl⟩
  · have hvalue : e.data.value = walFileStatusValue n := congrArg EventText.Data.value hdata
    rw [member_eq hvalue, member_eq hvalue]
    exact ⟨rfl, .inr rfl⟩

structure Tells (e : Received) : Prop where
  xid : numberAt e "xid" ≠ 0 → e.eventType = "wal_insert" ∧ stringAt e "source" = "wal-file"
  ended : e.eventType = "xact_state" → Ended e
  mode : e.eventType = "heartbeat" →
    stringOnly e "mode" = some "ebpf-uprobe" ∨ stringOnly e "mode" = some "wal-file"

end

/-! The events of a run. -/

section

variable {κ β ω : Type} [DecidableEq κ] [DecidableEq β] [DecidableEq ω]
  {cfg : WebSocket.Config} {pid : UInt32} {s t : World.State κ β ω EventText.Data}
  {labels : List (World.Label κ β ω EventText.Data)}

theorem anonymous_source {Value : Type} {data : Sources.Data Value} {s t : Sources.State Value}
    {l : Sources.Label} (h : Anonymous s.kernel) (hstep : Sources.Step data pid s l t) :
    Anonymous t.kernel := by
  cases hstep with
  | probe l kernel es hread hstep hring hconsumed => exact h.step hstep
  | consumes pad seq e kernel hreader hring hstep hconsumed => exact h.step hstep
  | sends p x hheld =>
    have hkernel : (s.send p x).kernel = s.kernel := (resume_spec _ p).1
    rw [hkernel]
    exact h
  | _ => exact h

theorem anonymous_step {l : World.Label κ β ω EventText.Data} (h : Anonymous s.sources.kernel)
    (hstep : (world eventWire cfg sourceData pid).step s l = some t) :
    Anonymous t.sources.kernel := by
  cases World.step_cases hstep with
  | source l sources hsource hputs => exact anonymous_source h hsource
  | put p x pipeline hheld hput =>
    have hsource : Sources.Step sourceData pid s.sources (.sends p) (s.sources.send p x) :=
      .sends p x hheld
    exact anonymous_source h hsource
  | pipeline l pipeline hstep hput => exact h

theorem anonymous_run (hrun : (world eventWire cfg sourceData pid).run labels = some s) :
    Anonymous s.sources.kernel :=
  @run_keeps _ _ (world eventWire cfg sourceData pid) (fun s => Anonymous s.sources.kernel)
    (@anonymous_init _ sourceData.parse) (fun _ _ _ h hstep => anonymous_step h hstep) _ _ hrun

theorem exists_of_mem_right {α γ : Type} {R : α → γ → Prop} {as : List α} {bs : List γ} {b : γ}
    (h : List.Forall₂ R as bs) (hb : b ∈ bs) : ∃ a ∈ as, R a b := by
  induction h with
  | nil => cases hb
  | @cons a b' as bs hab _ ih =>
    rcases List.mem_cons.mp hb with rfl | hb
    · exact ⟨a, List.mem_cons_self, hab⟩
    · obtain ⟨a', ha, hab⟩ := ih hb
      exact ⟨a', List.mem_cons_of_mem _ ha, hab⟩

theorem tells_of_source {data : List Sources.Label} {sources : Sources.State EventText.Data}
    (h : Sourced sourceData pid data sources) (hanon : Anonymous sources.kernel) {p : Source}
    {e : Received} (he : e ∈ sources.of p) : Tells e := by
  have hbeat (hbeat : Beat sourceData pid e) : Tells e := by
    obtain ⟨hxid, hmode⟩ := of_beat hbeat
    refine ⟨fun hne => absurd hxid hne, fun hx => ?_, fun _ => hmode⟩
    rw [hbeat.eventType] at hx
    exact absurd hx (by decide)
  cases p with
  | ringbuf =>
    obtain ⟨origins, horigins, hall⟩ := origins_of_ring h (List.Sublist.refl _)
    obtain ⟨o, ho, hdecodes⟩ := exists_of_mem_right hall he
    obtain ⟨hxid, hended⟩ := of_probe hdecodes (hanon.events o (horigins.subset ho))
    refine ⟨fun hne => absurd hxid hne, hended, fun hx => ?_⟩
    rw [hdecodes.eventType] at hx
    exact absurd hx (by cases o.payload.kind <;> decide)
  | ticker => exact hbeat (h.ticker.kinds e (List.mem_append_left _ he))
  | poller =>
    rcases h.files.kinds e (List.mem_append_left _ he) with hwal | hb
    · have htype : e.eventType = "wal_insert" := of_decide_eq_true hwal
      obtain ⟨records, hrecords, hall⟩ := records_of_files h (List.Sublist.refl _)
      obtain ⟨r, hr, hreports⟩ := exists_of_mem_right hall (List.mem_filter.mpr ⟨he, hwal⟩)
      refine ⟨fun _ => ⟨htype, ?_⟩, fun hx => ?_, fun hx => ?_⟩
      · rw [of_file hreports, source_of_collectAll (hrecords.subset hr)]
      · rw [htype] at hx
        exact absurd hx (by decide)
      · rw [htype] at hx
        exact absurd hx (by decide)
    · exact hbeat hb

theorem tells_of_store (hrun : (world eventWire cfg sourceData pid).run labels = some s)
    (hown : (world eventWire cfg sourceData pid).Meets World.OwnCloses
      (world eventWire cfg sourceData pid).init labels) (w : ω) :
    ∀ e ∈ s.pipeline.store w, Tells e := by
  intro e he
  obtain ⟨hsourced, hinv, hput⟩ := joined_run hrun hown
  rw [(hinv.page w).store] at he
  have hshown : e ∈ s.pipeline.shown w := (List.drop_sublist _ _).subset he
  obtain ⟨shown, hperm, hsub⟩ := hinv.shown_subperm w
  rw [hput] at hsub
  obtain ⟨x, hx, rfl⟩ := List.mem_map.mp (hsub.subset (hperm.symm.subset hshown))
  refine tells_of_source hsourced (anonymous_run hrun) (p := x.party) ?_
  exact List.mem_map_of_mem (List.mem_filter.mpr ⟨hx, decide_eq_true rfl⟩)

end

/-! The views. -/

theorem strings_of {e : Received} {name v : String} (h : member e name = some (.string v)) :
    stringOnly e name = some v ∧ stringAt e name = v := by
  unfold stringOnly stringAt
  rw [h]
  exact ⟨rfl, rfl⟩

/-- What the stages at the end of a write show, by the state of the last transaction. -/
def endStatus : Option XactState → Status
  | some .commit => .done
  | some .abort => .error
  | _ => .pending

theorem Ended.transaction {e : Received} (h : Ended e) : (transactionOf e).vxid = "" ∧
    (transactionOf e).lsn = none ∧
    ((transactionOf e).state = .commit ∨ (transactionOf e).state = .abort) := by
  obtain ⟨hvxid, hlsn, hstate⟩ := h
  unfold transactionOf stringAt stringOnly
  rw [hvxid, hlsn]
  refine ⟨rfl, rfl, ?_⟩
  rcases hstate with hstate | hstate
  · rw [hstate]
    exact .inl rfl
  · rw [hstate]
    exact .inr rfl

theorem Ended.proc {e : Received} (h : Ended e) (k : Nat) : (procEntry k (view e)).vxid = "" ∧
    ((procEntry k (view e)).state = .commit ∨ (procEntry k (view e)).state = .abort) := by
  obtain ⟨hvxid, -, hstate⟩ := h
  unfold procEntry view
  rw [hvxid]
  refine ⟨rfl, ?_⟩
  rcases hstate with hstate | hstate
  · rw [hstate]
    exact .inl rfl
  · rw [hstate]
    exact .inr rfl

theorem Ended.stage {e : Received} (h : Ended e) {stage : PipelineStage} :
    (endStage stage (some e)).status = endStatus (some (transactionOf e).state) := by
  unfold endStage transactionOf
  dsimp only
  rcases h.state with hstate | hstate
  · rw [(strings_of hstate).1, (strings_of hstate).2]
    rfl
  · rw [(strings_of hstate).1, (strings_of hstate).2]
    rfl

theorem xid_of_xact {e : Received} (h : Tells e) (htype : e.eventType = "xact_state") :
    numberAt e "xid" = 0 := by
  by_contra hne
  have hwal := (h.xid hne).1
  rw [htype] at hwal
  exact absurd hwal (by decide)

section

variable {events : List Received} (h : ∀ e ∈ events, Tells e)

include h

theorem transactions_tell : ∀ t ∈ buildTransactionStates events,
    t.xid = 0 ∧ t.vxid = "" ∧ t.lsn = none ∧ (t.state = .commit ∨ t.state = .abort) := by
  intro t ht
  obtain ⟨e, he, rfl⟩ := List.mem_map.mp ht
  obtain ⟨hmem, htype⟩ := List.mem_filter.mp he
  have hxact : e.eventType = "xact_state" := of_decide_eq_true htype
  exact ⟨xid_of_xact (h e hmem) hxact, ((h e hmem).ended hxact).transaction⟩

theorem xacts_tell : buildXactFromEvents (events.map view) = [] := by
  have hnone (k : Nat) : k ∉ (collect xactKey (keepGreatest ProbeEvent.timestamp)
      (events.map view)).entries.map Prod.fst := by
    rw [mem_keys_greatest]
    rintro ⟨v, hv, hkey⟩
    obtain ⟨e, he, rfl⟩ := List.mem_map.mp hv
    unfold xactKey at hkey
    split_ifs at hkey with htype hxid
    exact hxid (xid_of_xact (h e he) htype)
  unfold buildXactFromEvents
  rw [List.map_eq_nil_iff, ← List.map_eq_nil_iff (f := Prod.fst)]
  exact List.eq_nil_iff_forall_not_mem.mpr hnone

theorem procs_tell : ∀ p ∈ buildProcFromEvents (events.map view),
    p.xid = 0 ∧ p.vxid = "" ∧ (p.state = .commit ∨ p.state = .abort) := by
  intro p hp
  obtain ⟨⟨k, v⟩, hentry, rfl⟩ := List.mem_map.mp hp
  have hget := Table.mem_entries.mp hentry
  rw [get_collect] at hget
  have hkept : v ∈ ofKey procKey k (events.map view) := by
    rcases follow_keepGreatest ProbeEvent.timestamp (ofKey procKey k (events.map view)) with
      ⟨-, hnone⟩ | ⟨g, hsome, hg⟩
    · rw [hnone] at hget
      cases hget
    · rw [hsome] at hget
      cases hget
      exact hg.1
  obtain ⟨hmem, hkey⟩ := mem_ofKey.mp hkept
  obtain ⟨e, he, rfl⟩ := List.mem_map.mp hmem
  unfold procKey at hkey
  split_ifs at hkey with htype
  exact ⟨xid_of_xact (h e he) htype, ((h e he).ended htype).proc k⟩

theorem latest_tells {as : Received → Bool} {e : Received} (hlatest : latest as events = some e) :
    Tells e ∧ as e = true := by
  refine ⟨h e ?_, List.find?_some hlatest⟩
  exact List.mem_reverse.mp (List.mem_of_find?_eq_some hlatest)

theorem stages_tell {stages : List PipelineStage} (hstages : buildWriteStages events = some stages)
    {stage : PipelineStage} (hstage : stage ∈ stages)
    (hid : stage.id = "clog_update" ∨ stage.id = "commit") :
    stage.status = endStatus ((buildTransactionStates events).getLast?.map (·.state)) := by
  unfold buildWriteStages at hstages
  dsimp only at hstages
  split at hstages
  · cases hstages
  cases hstages
  obtain ⟨template, htemplate, rfl⟩ := List.mem_map.mp hstage
  rw [buildStage_id] at hid
  rw [transactions_getLast?, Option.map_map]
  rw [buildStage_end _ _ _ hid]
  cases hlatest : latest asXactEvent events with
  | none => exact pending_of_template htemplate
  | some e =>
    obtain ⟨htells, htype⟩ := latest_tells h hlatest
    exact (htells.ended (of_decide_eq_true htype)).stage

theorem mode_tells : (useVisualizationData events).collectorMode ∈
    ["unknown", "ebpf-uprobe", "wal-file"] := by
  unfold useVisualizationData
  dsimp only
  cases hlatest : latest asHeartbeatEvent events with
  | none => exact List.mem_cons_self
  | some e =>
    obtain ⟨htells, htype⟩ := latest_tells h hlatest
    rw [Option.bind_some]
    rcases htells.mode (of_decide_eq_true htype) with hmode | hmode
    · rw [hmode]
      decide
    · rw [hmode]
      decide

end

/-- No view of the events that reach a page tells transactions apart: all it can show is that some
have ended, and how. The ids that there are come with the records of the WAL files. -/
theorem views_tell {κ β ω : Type} [DecidableEq κ] [DecidableEq β] [DecidableEq ω]
    {cfg : WebSocket.Config} {pid : UInt32} {s : World.State κ β ω EventText.Data}
    {labels : List (World.Label κ β ω EventText.Data)}
    (hrun : (world eventWire cfg sourceData pid).run labels = some s)
    (hown : (world eventWire cfg sourceData pid).Meets World.OwnCloses
      (world eventWire cfg sourceData pid).init labels) (w : ω) :
    let events := s.pipeline.store w
    let shown := useVisualizationData events
    (∀ t ∈ shown.transactions,
      t.xid = 0 ∧ t.vxid = "" ∧ t.lsn = none ∧ (t.state = .commit ∨ t.state = .abort)) ∧
    buildXactFromEvents (events.map view) = [] ∧
    (∀ p ∈ buildProcFromEvents (events.map view),
      p.xid = 0 ∧ p.vxid = "" ∧ (p.state = .commit ∨ p.state = .abort)) ∧
    (∀ stages ∈ shown.writeStages, ∀ stage ∈ stages,
      stage.id = "clog_update" ∨ stage.id = "commit" →
        stage.status = endStatus (shown.transactions.getLast?.map (·.state))) ∧
    shown.collectorMode ∈ ["unknown", "ebpf-uprobe", "wal-file"] ∧
    ∀ e ∈ events, numberAt e "xid" ≠ 0 →
      e.eventType = "wal_insert" ∧ stringAt e "source" = "wal-file" := by
  have h := tells_of_store hrun hown w
  exact ⟨transactions_tell h, xacts_tell h, procs_tell h,
    fun stages hstages stage hstage => stages_tell h hstages hstage, mode_tells h,
    fun e he => (h e he).xid⟩

def committed : List (World.Label Nat Unit Unit EventText.Data) :=
  connecting.map .pipeline ++ [.source (.probe (.xact 0 (.start plainHit))),
    .source (.probe (.xact 0 (.commit plainHit))), .source .wakes,
    .source (.parses fun _ => 0), .source (.sends .ringbuf)] ++ passing.map .pipeline

theorem views_tell_committed : ∃ s : World.State Nat Unit Unit EventText.Data,
    (world eventWire WebSocket.defaults sourceData 9).run committed = some s ∧
      (useVisualizationData (s.pipeline.store ())).transactions.map (·.state) = [.commit] ∧
      buildXactFromEvents ((s.pipeline.store ()).map view) = [] := by
  have hends : ((world eventWire WebSocket.defaults sourceData 9).run committed).map (fun s =>
      (useVisualizationData (s.pipeline.store ())).transactions.map (·.state)) =
        some [.commit] := by
    decide +kernel
  obtain ⟨s, hrun, hs⟩ := Option.map_eq_some_iff.mp hends
  exact ⟨s, hrun, hs, (views_tell hrun (by decide +kernel) ()).2.1⟩

end LearnPg.Pipeline.Views
