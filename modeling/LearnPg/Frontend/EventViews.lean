import LearnPg.Basis.Grouping
import Mathlib.Algebra.Order.Group.Int
import Mathlib.Algebra.Ring.Int.Defs

/-! What the views of buffers, processes and transactions make of the events received. -/
namespace LearnPg.Frontend.EventViews

open Basis.Grouping

/-! The events. Of their data the fields that the views read; any of them may be left out. -/

structure EventData (ν : Type) where
  bufferId : Option ν := none
  relfilenode : Option ν := none
  blockNum : Option ν := none
  xid : Option ν := none
  vxid : Option String := none
  state : Option String := none

structure ProbeEvent (ν : Type) where
  type : String
  timestamp : ν
  pid : ν
  data : EventData ν

structure BufferCell (ν : Type) where
  bufferId : ν
  hitCount : Nat
  isDirty : Bool
  isPinned : Bool
  relfilenode : ν
  deriving DecidableEq

structure BufferDescEntry (ν : Type) where
  bufferId : ν
  isDirty : Bool
  isPinned : Bool
  hitCount : Nat
  relfilenode : ν
  blockNum : ν
  deriving DecidableEq

/-- A state name, or what every object has under the name it was looked up by. -/
inductive XactState where
  | idle | started | inProgress | commit | abort
  | inherited (name : String)
  deriving DecidableEq

structure PGProcEntry (ν : Type) where
  pid : ν
  xid : ν
  vxid : String
  state : XactState
  database : ν
  lastEventTs : ν
  waitEvent : String
  deriving DecidableEq

structure PGXactEntry (ν : Type) where
  xid : ν
  state : XactState
  xmin : ν
  commitTs : ν
  deriving DecidableEq

/-- The names that an object literal has without being given them. -/
def objectPrototype : List String :=
  ["__proto__", "__defineGetter__", "__defineSetter__", "__lookupGetter__", "__lookupSetter__",
    "constructor", "hasOwnProperty", "isPrototypeOf", "propertyIsEnumerable", "toLocaleString",
    "toString", "valueOf"]

def toXactState (raw : String) : XactState :=
  match raw with
  | "begin" => .started
  | "commit" => .commit
  | "abort" => .abort
  | "savepoint" | "release" | "rollback_to" => .inProgress
  | name => if name ∈ objectPrototype then .inherited name else .idle

section

variable {ν : Type} [LinearOrder ν] [Zero ν]

/-! The two views of the buffers. -/

def cellKey (event : ProbeEvent ν) : Option ν :=
  if event.type = "buffer_pin" then some (event.data.bufferId.getD 0) else none

def hitCell (current : Option (BufferCell ν)) (event : ProbeEvent ν) : Option (BufferCell ν) :=
  some {
    bufferId := event.data.bufferId.getD 0
    hitCount := (current.map (·.hitCount)).getD 0 + 1
    isDirty := (current.map (·.isDirty)).getD false
    isPinned := true
    relfilenode := (event.data.relfilenode.or (current.map (·.relfilenode))).getD 0 }

def buildBufferCells (events : List (ProbeEvent ν)) : List (BufferCell ν) :=
  (collect cellKey hitCell events).values.mergeSort fun a b => decide (a.bufferId ≤ b.bufferId)

/-- The entries leave the id 0 out. -/
def descKey (evt : ProbeEvent ν) : Option ν :=
  if evt.type = "buffer_pin" then
    if evt.data.bufferId.getD 0 = 0 then none else some (evt.data.bufferId.getD 0)
  else none

def hitDesc (prev : Option (BufferDescEntry ν)) (evt : ProbeEvent ν) :
    Option (BufferDescEntry ν) :=
  let prev := prev.getD {
    bufferId := evt.data.bufferId.getD 0
    isDirty := false
    isPinned := false
    hitCount := 0
    relfilenode := evt.data.relfilenode.getD 0
    blockNum := evt.data.blockNum.getD 0 }
  some { prev with isPinned := true, hitCount := prev.hitCount + 1 }

def buildBufferDescEntries (events : List (ProbeEvent ν)) : List (BufferDescEntry ν) :=
  (collect descKey hitDesc events).values.mergeSort fun a b => decide (a.bufferId ≤ b.bufferId)

/-! The views of processes and of transactions. -/

def procKey (evt : ProbeEvent ν) : Option ν :=
  if evt.type = "xact_state" then some evt.pid else none

def procEntry (pid : ν) (evt : ProbeEvent ν) : PGProcEntry ν where
  pid := pid
  xid := evt.data.xid.getD 0
  vxid := evt.data.vxid.getD ""
  state := toXactState (evt.data.state.getD "")
  database := 0
  lastEventTs := evt.timestamp
  waitEvent := ""

def buildProcFromEvents (events : List (ProbeEvent ν)) : List (PGProcEntry ν) :=
  (collect procKey (keepGreatest ProbeEvent.timestamp) events).entries.map fun e =>
    procEntry e.1 e.2

def xactKey (evt : ProbeEvent ν) : Option ν :=
  if evt.type = "xact_state" then
    if evt.data.xid.getD 0 = 0 then none else some (evt.data.xid.getD 0)
  else none

def xactEntry (xid : ν) (evt : ProbeEvent ν) : PGXactEntry ν where
  xid := xid
  state := toXactState (evt.data.state.getD "")
  xmin := xid
  commitTs := if evt.data.state = some "commit" then evt.timestamp else 0

def buildXactFromEvents (events : List (ProbeEvent ν)) : List (PGXactEntry ν) :=
  (collect xactKey (keepGreatest ProbeEvent.timestamp) events).entries.map fun e =>
    xactEntry e.1 e.2

/-! What the views of the buffers show. -/

def pins (id : ν) (events : List (ProbeEvent ν)) : List (ProbeEvent ν) := ofKey cellKey id events

def firstRelfilenode (events : List (ProbeEvent ν)) : ν :=
  (events.head?.bind fun e => e.data.relfilenode).getD 0

def firstBlockNum (events : List (ProbeEvent ν)) : ν :=
  (events.head?.bind fun e => e.data.blockNum).getD 0

def latestRelfilenode (events : List (ProbeEvent ν)) : ν :=
  (events.filterMap fun e => e.data.relfilenode).getLast?.getD 0

def cellOf (id : ν) (events : List (ProbeEvent ν)) : BufferCell ν where
  bufferId := id
  hitCount := events.length
  isDirty := false
  isPinned := true
  relfilenode := latestRelfilenode events

def descOf (id : ν) (events : List (ProbeEvent ν)) : BufferDescEntry ν where
  bufferId := id
  isDirty := false
  isPinned := true
  hitCount := events.length
  relfilenode := firstRelfilenode events
  blockNum := firstBlockNum events

variable {events events' : List (ProbeEvent ν)} {id : ν}

theorem mem_pins {e : ProbeEvent ν} :
    e ∈ pins id events ↔ e ∈ events ∧ e.type = "buffer_pin" ∧ e.data.bufferId.getD 0 = id := by
  rw [pins, mem_ofKey, cellKey]
  simp

omit [LinearOrder ν] in
theorem follow_hitCell (h : ∀ e ∈ events, e.data.bufferId.getD 0 = id) :
    follow hitCell events = if events = [] then none else some (cellOf id events) := by
  induction events using List.reverseRecOn with
  | nil => rfl
  | append_singleton events e ih =>
    obtain ⟨hevents, he⟩ := List.forall_mem_append.mp h
    have hne : events ++ [e] ≠ [] := List.append_ne_nil_of_right_ne_nil events (List.cons_ne_nil e [])
    rw [follow_concat, ih hevents, if_neg hne]
    have hid : e.data.bufferId.getD 0 = id := he e (by simp)
    by_cases hnil : events = []
    · subst hnil
      cases hrel : e.data.relfilenode with
      | none => simp [hitCell, cellOf, latestRelfilenode, hid, hrel]
      | some rel => simp [hitCell, cellOf, latestRelfilenode, hid, hrel]
    · cases hrel : e.data.relfilenode with
      | none => simp [hnil, hitCell, cellOf, latestRelfilenode, hid, hrel]
      | some rel => simp [hnil, hitCell, cellOf, latestRelfilenode, hid, hrel]

omit [LinearOrder ν] in
theorem follow_hitDesc (h : ∀ e ∈ events, e.data.bufferId.getD 0 = id) :
    follow hitDesc events = if events = [] then none else some (descOf id events) := by
  induction events using List.reverseRecOn with
  | nil => rfl
  | append_singleton events e ih =>
    obtain ⟨hevents, he⟩ := List.forall_mem_append.mp h
    have hne : events ++ [e] ≠ [] := List.append_ne_nil_of_right_ne_nil events (List.cons_ne_nil e [])
    rw [follow_concat, ih hevents, if_neg hne]
    have hid : e.data.bufferId.getD 0 = id := he e (by simp)
    cases events with
    | nil => simp [hitDesc, descOf, firstRelfilenode, firstBlockNum, hid]
    | cons first events => simp [hitDesc, descOf, firstRelfilenode, firstBlockNum]

theorem get_cells : (collect cellKey hitCell events).get id =
    if pins id events = [] then none else some (cellOf id (pins id events)) := by
  rw [get_collect]
  exact follow_hitCell fun e he => (mem_pins.mp he).2.2

theorem ofKey_descKey : ofKey descKey id events = if id = 0 then [] else pins id events := by
  split
  next h =>
    rw [List.eq_nil_iff_forall_not_mem]
    intro e he
    have hkey := (mem_ofKey.mp he).2
    unfold descKey at hkey
    split_ifs at hkey with htype hzero
    exact hzero ((Option.some_inj.mp hkey).trans h)
  next h =>
    apply List.filter_congr
    intro e _
    unfold descKey cellKey
    split_ifs with htype hzero
    · rw [hzero]
      simp [Ne.symm h]
    · rfl
    · rfl

theorem get_desc : (collect descKey hitDesc events).get id =
    if id = 0 ∨ pins id events = [] then none else some (descOf id (pins id events)) := by
  rw [get_collect, ofKey_descKey]
  by_cases h : id = 0
  · rw [if_pos h, if_pos (.inl h)]
    rfl
  · rw [if_neg h, follow_hitDesc fun e he => (mem_pins.mp he).2.2]
    simp [h]

theorem mem_cells {c : BufferCell ν} : c ∈ buildBufferCells events ↔
    ∃ id, pins id events ≠ [] ∧ c = cellOf id (pins id events) := by
  unfold buildBufferCells
  rw [List.mem_mergeSort, Table.mem_values]
  simp only [get_cells, Option.ite_none_left_eq_some, Option.some_inj]
  exact exists_congr fun id => and_congr_right fun _ => eq_comm

theorem mem_desc {d : BufferDescEntry ν} : d ∈ buildBufferDescEntries events ↔
    ∃ id, (id ≠ 0 ∧ pins id events ≠ []) ∧ d = descOf id (pins id events) := by
  unfold buildBufferDescEntries
  rw [List.mem_mergeSort, Table.mem_values]
  simp only [get_desc, Option.ite_none_left_eq_some, Option.some_inj, not_or]
  exact exists_congr fun id => and_congr_right fun _ => eq_comm

theorem cells_sorted (events : List (ProbeEvent ν)) :
    (buildBufferCells events).Pairwise fun a b => a.bufferId < b.bufferId := by
  apply Table.pairwise_sorted
  intro id c h
  rw [get_cells, Option.ite_none_left_eq_some, Option.some_inj] at h
  rw [← h.2]
  rfl

theorem desc_sorted (events : List (ProbeEvent ν)) :
    (buildBufferDescEntries events).Pairwise fun a b => a.bufferId < b.bufferId := by
  apply Table.pairwise_sorted
  intro id d h
  rw [get_desc, Option.ite_none_left_eq_some, Option.some_inj] at h
  rw [← h.2]
  rfl

def cellRows (events : List (ProbeEvent ν)) : List (ν × Nat × ν) :=
  (buildBufferCells events).map fun c => (c.bufferId, c.hitCount, c.relfilenode)

def descRows (events : List (ProbeEvent ν)) : List (ν × Nat × ν) :=
  (buildBufferDescEntries events).map fun d => (d.bufferId, d.hitCount, d.relfilenode)

def cellHits (events : List (ProbeEvent ν)) : List (ν × Nat) :=
  (buildBufferCells events).map fun c => (c.bufferId, c.hitCount)

def descHits (events : List (ProbeEvent ν)) : List (ν × Nat) :=
  (buildBufferDescEntries events).map fun d => (d.bufferId, d.hitCount)

theorem mem_map_cells {γ : Type} (f : BufferCell ν → γ) {row : ν × γ} :
    row ∈ (buildBufferCells events).map (fun c => (c.bufferId, f c)) ↔
      pins row.1 events ≠ [] ∧ row.2 = f (cellOf row.1 (pins row.1 events)) := by
  obtain ⟨id, rest⟩ := row
  simp only [List.mem_map, mem_cells]
  constructor
  · rintro ⟨c, ⟨k, hne, rfl⟩, heq⟩
    cases heq
    exact ⟨hne, rfl⟩
  · rintro ⟨hne, rfl⟩
    exact ⟨_, ⟨id, hne, rfl⟩, rfl⟩

theorem mem_map_desc {γ : Type} (f : BufferDescEntry ν → γ) {row : ν × γ} :
    row ∈ (buildBufferDescEntries events).map (fun d => (d.bufferId, f d)) ↔
      (row.1 ≠ 0 ∧ pins row.1 events ≠ []) ∧ row.2 = f (descOf row.1 (pins row.1 events)) := by
  obtain ⟨id, rest⟩ := row
  simp only [List.mem_map, mem_desc]
  constructor
  · rintro ⟨d, ⟨k, hne, rfl⟩, heq⟩
    cases heq
    exact ⟨hne, rfl⟩
  · rintro ⟨hne, rfl⟩
    exact ⟨_, ⟨id, hne, rfl⟩, rfl⟩

theorem pairwise_map_cells {γ : Type} (f : BufferCell ν → γ) (events : List (ProbeEvent ν)) :
    ((buildBufferCells events).map fun c => (c.bufferId, f c)).Pairwise fun a b => a.1 < b.1 :=
  (cells_sorted events).map _ fun _ _ hlt => hlt

theorem pairwise_map_desc {γ : Type} (f : BufferDescEntry ν → γ) (events : List (ProbeEvent ν)) :
    ((buildBufferDescEntries events).map fun d => (d.bufferId, f d)).Pairwise
      fun a b => a.1 < b.1 :=
  (desc_sorted events).map _ fun _ _ hlt => hlt

theorem mem_cellRows {row : ν × Nat × ν} : row ∈ cellRows events ↔ pins row.1 events ≠ [] ∧
    row.2 = ((pins row.1 events).length, latestRelfilenode (pins row.1 events)) :=
  mem_map_cells fun c => (c.hitCount, c.relfilenode)

theorem mem_descRows {row : ν × Nat × ν} : row ∈ descRows events ↔
    (row.1 ≠ 0 ∧ pins row.1 events ≠ []) ∧
      row.2 = ((pins row.1 events).length, firstRelfilenode (pins row.1 events)) :=
  mem_map_desc fun d => (d.hitCount, d.relfilenode)

theorem pins_perm (h : events.Perm events') (id : ν) : (pins id events).Perm (pins id events') :=
  h.filter _

theorem pins_ne_nil_iff (h : events.Perm events') (id : ν) :
    pins id events ≠ [] ↔ pins id events' ≠ [] := by
  rw [← List.length_pos_iff, ← List.length_pos_iff, (pins_perm h id).length_eq]

theorem cellHits_perm (h : events.Perm events') : cellHits events = cellHits events' := by
  apply eq_of_sorted (pairwise_map_cells _ events) (pairwise_map_cells _ events')
  intro row
  rw [mem_map_cells, mem_map_cells, pins_ne_nil_iff h, cellOf, cellOf, (pins_perm h row.1).length_eq]

theorem descHits_perm (h : events.Perm events') : descHits events = descHits events' := by
  apply eq_of_sorted (pairwise_map_desc _ events) (pairwise_map_desc _ events')
  intro row
  rw [mem_map_desc, mem_map_desc, pins_ne_nil_iff h, descOf, descOf, (pins_perm h row.1).length_eq]

/-- The two views agree, in an order of their own; no order of the events changes the hits. -/
structure ViewsAgree (events : List (ProbeEvent ν)) : Prop where
  rows : cellRows events = descRows events
  cells : (buildBufferCells events).Pairwise fun a b => a.bufferId < b.bufferId
  desc : (buildBufferDescEntries events).Pairwise fun a b => a.bufferId < b.bufferId
  cellHits : ∀ events', events.Perm events' → cellHits events = cellHits events'
  descHits : ∀ events', events.Perm events' → descHits events = descHits events'

/-- They do exactly if every buffer has an id and stays with the relation it came with. -/
theorem viewsAgree_iff (events : List (ProbeEvent ν)) : ViewsAgree events ↔
    (∀ e ∈ events, e.type = "buffer_pin" → e.data.bufferId.getD 0 ≠ 0) ∧
      ∀ id, firstRelfilenode (pins id events) = latestRelfilenode (pins id events) := by
  constructor
  · intro h
    have hrow (id : ν) (hne : pins id events ≠ []) : id ≠ 0 ∧
        firstRelfilenode (pins id events) = latestRelfilenode (pins id events) := by
      have hmem : (id, (pins id events).length, latestRelfilenode (pins id events)) ∈
          descRows events := by
        rw [← h.rows]
        exact mem_cellRows.mpr ⟨hne, rfl⟩
      obtain ⟨⟨hzero, -⟩, heq⟩ := mem_descRows.mp hmem
      exact ⟨hzero, (Prod.ext_iff.mp heq).2.symm⟩
    constructor
    · intro e he htype
      exact (hrow _ (List.ne_nil_of_mem (mem_pins.mpr ⟨he, htype, rfl⟩))).1
    · intro id
      by_cases hnil : pins id events = []
      · rw [hnil]
        rfl
      · exact (hrow id hnil).2
  · rintro ⟨hids, hsame⟩
    refine ⟨?_, cells_sorted events, desc_sorted events, fun _ => cellHits_perm,
      fun _ => descHits_perm⟩
    apply eq_of_sorted (pairwise_map_cells _ events) (pairwise_map_desc _ events)
    intro row
    have hzero (hne : pins row.1 events ≠ []) : row.1 ≠ 0 := by
      obtain ⟨e, he⟩ := List.exists_mem_of_ne_nil _ hne
      obtain ⟨hmem, htype, hid⟩ := mem_pins.mp he
      exact hid ▸ hids e hmem htype
    change row ∈ cellRows events ↔ row ∈ descRows events
    rw [mem_cellRows, mem_descRows, hsame row.1, and_iff_right_of_imp hzero]

end

/-- A pin of a buffer that holds a page of the relation. -/
def pinned (bufferId relfilenode : Int) : ProbeEvent Int where
  type := "buffer_pin"
  timestamp := 0
  pid := 1
  data := { bufferId := some bufferId, relfilenode := some relfilenode }

/-- A buffer used for another relation is shown with either relation. -/
theorem reused_buffer : cellRows [pinned 5 100, pinned 5 200] = [(5, 2, 200)] ∧
    descRows [pinned 5 100, pinned 5 200] = [(5, 2, 100)] ∧
    ¬ ViewsAgree [pinned 5 100, pinned 5 200] := by
  have hcells : cellRows [pinned 5 100, pinned 5 200] = [(5, 2, 200)] := by
    rw [cellRows, buildBufferCells]
    exact congrArg _ (List.mergeSort_singleton _)
  have hdesc : descRows [pinned 5 100, pinned 5 200] = [(5, 2, 100)] := by
    rw [descRows, buildBufferDescEntries]
    exact congrArg _ (List.mergeSort_singleton _)
  refine ⟨hcells, hdesc, fun h => ?_⟩
  have hrows := h.rows
  rw [hcells, hdesc] at hrows
  cases hrows

/-! The views of processes and transactions. -/
section

variable {ν : Type} [LinearOrder ν] [Zero ν]

/-- One entry for each key of the events, which shows the key's latest event. -/
structure ShowsLatest {β : Type} (key : ProbeEvent ν → Option ν) (entryOf : ν → ProbeEvent ν → β)
    (id : β → ν) (events : List (ProbeEvent ν)) (entries : List β) : Prop where
  nodup : (entries.map id).Nodup
  ids : ∀ k, k ∈ entries.map id ↔ ∃ e ∈ events, key e = some k
  latest : ∀ entry ∈ entries, ∃ e, IsGreatest ProbeEvent.timestamp (ofKey key (id entry) events) e ∧
    entry = entryOf (id entry) e

variable {events events' : List (ProbeEvent ν)}

omit [Zero ν] in
theorem showsLatest_collect {β : Type} {key : ProbeEvent ν → Option ν}
    {entryOf : ν → ProbeEvent ν → β} {id : β → ν} (hid : ∀ k e, id (entryOf k e) = k)
    (h : Apart key ProbeEvent.timestamp events) :
    ShowsLatest key entryOf id events
      ((collect key (keepGreatest ProbeEvent.timestamp) events).entries.map fun e =>
        entryOf e.1 e.2) := by
  have hkeys : ((collect key (keepGreatest ProbeEvent.timestamp) events).entries.map fun e =>
      entryOf e.1 e.2).map id =
        (collect key (keepGreatest ProbeEvent.timestamp) events).entries.map Prod.fst := by
    rw [List.map_map]
    exact List.map_congr_left fun e _ => hid e.1 e.2
  refine ⟨?_, fun k => ?_, fun entry hentry => ?_⟩
  · rw [hkeys]
    exact Table.nodup _
  · rw [hkeys]
    exact mem_keys_greatest
  · obtain ⟨⟨k, e⟩, hmem, rfl⟩ := List.mem_map.mp hentry
    rw [hid]
    exact ⟨e, (get_greatest_iff h).mp (Table.mem_entries.mp hmem), rfl⟩

/-- Where no two events of a process, or of a transaction, are of one time, the view does not
depend on the order in which they came. -/
theorem views_ignore_order (events : List (ProbeEvent ν)) :
    (Apart procKey ProbeEvent.timestamp events →
      ShowsLatest procKey procEntry PGProcEntry.pid events (buildProcFromEvents events) ∧
      ∀ events', events.Perm events' →
        (buildProcFromEvents events).Perm (buildProcFromEvents events')) ∧
    (Apart xactKey ProbeEvent.timestamp events →
      ShowsLatest xactKey xactEntry PGXactEntry.xid events (buildXactFromEvents events) ∧
      ∀ events', events.Perm events' →
        (buildXactFromEvents events).Perm (buildXactFromEvents events')) := by
  constructor
  · intro h
    exact ⟨showsLatest_collect (fun _ _ => rfl) h, fun _ hperm => (perm_greatest h hperm).map _⟩
  · intro h
    exact ⟨showsLatest_collect (fun _ _ => rfl) h, fun _ hperm => (perm_greatest h hperm).map _⟩

end

def xactAt (timestamp : Int) (state : String) : ProbeEvent Int where
  type := "xact_state"
  timestamp := timestamp
  pid := 1
  data := { xid := some 7, state := some state }

theorem views_ignore_order_commit :
    (buildProcFromEvents [xactAt 10 "begin", xactAt 20 "commit"]).Perm
      (buildProcFromEvents [xactAt 20 "commit", xactAt 10 "begin"]) ∧
    (buildXactFromEvents [xactAt 10 "begin", xactAt 20 "commit"]).Perm
      (buildXactFromEvents [xactAt 20 "commit", xactAt 10 "begin"]) := by
  have hviews := views_ignore_order [xactAt 10 "begin", xactAt 20 "commit"]
  have hne (k : ProbeEvent Int → Option Int) :
      Apart k ProbeEvent.timestamp [xactAt 10 "begin", xactAt 20 "commit"] := by
    simp [Apart, xactAt]
  exact ⟨(hviews.1 (hne _)).2 _ (List.Perm.swap _ _ _), (hviews.2 (hne _)).2 _ (List.Perm.swap _ _ _)⟩

end LearnPg.Frontend.EventViews
