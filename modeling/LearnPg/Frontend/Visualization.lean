import LearnPg.Collector.EventText
import LearnPg.Frontend.EventViews

/-! `useVisualizationData`: what the app shows of the events it keeps. -/
namespace LearnPg.Frontend.Visualization

open Basis.Json Basis.JsonTypes Collector Collector.EventText EventViews

abbrev Received := WsEvent EventText.Data

/-! The members of an event's data. -/

def isNullish : Value → Bool
  | .null => true
  | _ => false

/-- `event.data[name]`, unless it is `null`. -/
def member (event : Received) (name : String) : Option Value :=
  match event.data.value with
  | .object members => (members.reverse.lookup name).filter (!isNullish ·)
  | _ => none

/-- `Number(value)`, of a number. -/
def number (value : Value) : Nat := (readNatural value).getD 0

/-- `String(value)`, of a text or a number. -/
def string : Value → String
  | .string s => s
  | .number literal => String.ofList literal
  | _ => ""

/-- `Number(event.data[name] ?? 0)`. -/
def numberAt (event : Received) (name : String) : Nat := ((member event name).map number).getD 0

/-- `String(event.data[name] ?? '')`. -/
def stringAt (event : Received) (name : String) : String :=
  ((member event name).map string).getD ""

def stringOnly (event : Received) (name : String) : Option String :=
  match member event name with
  | some (.string s) => some s
  | _ => none

/-- The event as the views of buffers, processes and transactions read it. -/
def view (event : Received) : ProbeEvent Nat where
  type := event.eventType
  timestamp := event.timestamp.toNat
  pid := event.pid.toNat
  data := {
    bufferId := (member event "buffer_id").map number
    relfilenode := (member event "relfilenode").map number
    blockNum := (member event "block_num").map number
    xid := (member event "xid").map number
    vxid := (member event "vxid").map string
    state := (member event "state").map string }

/-! The transactions. -/

structure TransactionState where
  xid : Nat
  vxid : String
  state : XactState
  startTimeUs : UInt64
  endTimeUs : UInt64
  lsn : Option String

/-- `transactionStateMap[raw] ?? 'in_progress'`. -/
def transactionState (raw : String) : XactState :=
  match raw with
  | "begin" => .started
  | "commit" => .commit
  | "abort" => .abort
  | name => if name ∈ objectPrototype then .inherited name else .inProgress

def asWalEvent (event : Received) : Bool := event.eventType = "wal_insert"
def asBufferEvent (event : Received) : Bool := event.eventType = "buffer_pin"
def asXactEvent (event : Received) : Bool := event.eventType = "xact_state"
def asHeartbeatEvent (event : Received) : Bool := event.eventType = "heartbeat"

def transactionOf (event : Received) : TransactionState where
  xid := numberAt event "xid"
  vxid := stringAt event "vxid"
  state := transactionState (stringAt event "state")
  startTimeUs := event.timestamp
  endTimeUs := event.timestamp
  lsn := stringOnly event "lsn"

def buildTransactionStates (events : List Received) : List TransactionState :=
  (events.filter asXactEvent).map transactionOf

/-! The stages of a write. -/

inductive Status where
  | pending | active | done | error
deriving DecidableEq

structure PipelineStage where
  id : String
  name : String
  label : String
  durationUs : Nat := 0
  startUs : Nat := 0
  endUs : Nat := 0
  status : Status := .pending
  details : List (String × Value) := []
  color : String

def writeStageTemplate : List PipelineStage := [
  { id := "parse", name := "Parser", label := "SQL 解析", color := "#58a6ff" },
  { id := "bind", name := "Binder", label := "参数绑定", color := "#bc8cff" },
  { id := "plan", name := "Planner", label := "执行计划", color := "#d29922" },
  { id := "exec_start", name := "ExecutorStart", label := "执行器启动", color := "#3fb950" },
  { id := "tuple_form", name := "heap_form_tuple", label := "元组构建", color := "#f0883e" },
  { id := "buf_alloc", name := "BufferAlloc", label := "Buffer 分配", color := "#f85149" },
  { id := "wal_insert", name := "XLogInsert", label := "WAL 写入", color := "#ff7b72" },
  { id := "page_modify", name := "PageAddItem", label := "数据页修改", color := "#a371f7" },
  { id := "clog_update", name := "TransactionLogUpdate", label := "CLOG 更新", color := "#7ee787" },
  { id := "commit", name := "Commit", label := "提交完成", color := "#39d353" }]

/-- `[...events].reverse().find(as)`. -/
def latest (as : Received → Bool) (events : List Received) : Option Received :=
  events.reverse.find? as

def bufferDetails (event : Received) : List (String × Value) :=
  ["buffer_id", "relfilenode", "block_num"].map fun name => (name, natural (numberAt event name))

def walDetails (event : Received) : List (String × Value) :=
  [("xlog_ptr", .string (stringAt event "xlog_ptr")),
    ("rmgr_name", .string (stringAt event "rmgr_name")),
    ("operation", .string (stringAt event "operation")),
    ("xid", natural (numberAt event "xid")),
    ("record_len", natural (numberAt event "record_len")),
    ("source", .string (stringAt event "source"))]

def xactDetails (event : Received) : List (String × Value) :=
  [("xid", natural (numberAt event "xid")), ("state", .string (stringAt event "state"))]

/-- The stages for which the end of a transaction counts. -/
def endStage (stage : PipelineStage) : Option Received → PipelineStage
  | some xact =>
    match stringOnly xact "state" with
    | some "commit" => { stage with
        status := .done
        details := xactDetails xact ++ [("lsn", .string (stringAt xact "lsn"))] }
    | some "abort" => { stage with status := .error, details := xactDetails xact }
    | _ => stage
  | none => stage

def buildStage (wal buffer xact : Option Received) (stage : PipelineStage) : PipelineStage :=
  match stage.id with
  | "exec_start" =>
    if wal.isSome || buffer.isSome || xact.isSome then
      { stage with status := .done, details := [("source", .string "runtime event stream")] }
    else stage
  | "buf_alloc" =>
    match buffer with
    | some event => { stage with status := .done, details := bufferDetails event }
    | none => stage
  | "wal_insert" =>
    match wal with
    | some event => { stage with status := .done, details := walDetails event }
    | none => stage
  | "clog_update" | "commit" => endStage stage xact
  | _ => stage

def buildWriteStages (events : List Received) : Option (List PipelineStage) :=
  let latestWal := latest asWalEvent events
  let latestBuffer := latest asBufferEvent events
  let latestXact := latest asXactEvent events
  if latestWal.isNone && latestBuffer.isNone && latestXact.isNone then none
  else some (writeStageTemplate.map (buildStage latestWal latestBuffer latestXact))

/-! What the hook returns. -/

structure VisualizationData where
  buffers : List (BufferCell Nat)
  collectorMode : String
  eventCount : Nat
  lastEventType : String
  transactions : List TransactionState
  writeStages : Option (List PipelineStage)

def useVisualizationData (events : List Received) : VisualizationData where
  buffers := buildBufferCells (events.map view)
  collectorMode := ((latest asHeartbeatEvent events).bind (stringOnly · "mode")).getD "unknown"
  eventCount := events.length
  lastEventType := (events.getLast?.map (·.eventType)).getD ""
  transactions := buildTransactionStates events
  writeStages := buildWriteStages events

/-! How the views hang together. -/

theorem latest_eq (as : Received → Bool) (events : List Received) :
    latest as events = (events.filter as).getLast? := by
  unfold latest
  rw [← List.head?_filter, List.filter_reverse, List.head?_reverse]

theorem transactions_getLast? (events : List Received) :
    (buildTransactionStates events).getLast? = (latest asXactEvent events).map transactionOf := by
  rw [latest_eq, buildTransactionStates, List.getLast?_map]

theorem endStage_id (stage : PipelineStage) (xact : Option Received) :
    (endStage stage xact).id = stage.id := by
  unfold endStage
  split
  · split <;> rfl
  · rfl

theorem buildStage_id (wal buffer xact : Option Received) (stage : PipelineStage) :
    (buildStage wal buffer xact stage).id = stage.id := by
  unfold buildStage
  split
  · split <;> rfl
  · split <;> rfl
  · split <;> rfl
  · exact endStage_id stage xact
  · exact endStage_id stage xact
  · rfl

theorem buildStage_end {stage : PipelineStage} (wal buffer xact : Option Received)
    (h : stage.id = "clog_update" ∨ stage.id = "commit") :
    buildStage wal buffer xact stage = endStage stage xact := by
  cases stage
  rcases h with rfl | rfl <;> rfl

theorem pending_of_template {stage : PipelineStage} (h : stage ∈ writeStageTemplate) :
    stage.status = .pending := by
  have hall : ∀ stage ∈ writeStageTemplate, stage.status = .pending := by decide
  exact hall stage h

end LearnPg.Frontend.Visualization
