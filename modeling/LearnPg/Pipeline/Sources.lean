import LearnPg.Basis.Tickets
import LearnPg.Collector.Polling
import LearnPg.Collector.RingBuffer
import LearnPg.Pipeline.Steps

/-! Where the events come from: the reader of the probes' ring buffer, its heartbeat, and the
thread that polls the WAL files. Each draws a number for an event and then waits for room in the
channel with it, while the others do the same. -/
namespace LearnPg.Pipeline.Sources

open Basis.Runs Basis.Tickets Collector Collector.Kernel

inductive Source where
  | ringbuf
  | ticker
  | poller
deriving DecidableEq

instance : Fintype Source := ⟨{.ringbuf, .ticker, .poller}, fun p => by cases p <;> decide⟩

/-- What the JSON library makes of the events' data. That of the ticker's heartbeat has no probes
in it: `take_map` has taken their counts out of what `read_probe_counts` looks into. -/
structure Data (Value : Type) where
  toValue : EventData → Value
  ebpfStatus : Value
  walFileStatus : (walEventsSeen : Nat) → Value

/-- The reader holds the lock on `bpf` except while it is asleep. A record is consumed after its
event has been sent. -/
inductive Reader where
  | asleep
  | awake
  | parsed (pad : Nat → UInt8) (seq : UInt64)
  | sent (pad : Nat → UInt8) (seq : UInt64)

inductive Ticker where
  | waiting
  | counted
  | drawn

/-- `last` is the heartbeat after a poll's events. -/
inductive Poller where
  | sleeping
  | busy (events : List WalInsertEvent)
  | last

structure State (Value : Type) where
  kernel : Kernel.State Value
  tickets : Basis.Tickets.State Source (WsEvent Value)
  reader : Reader
  ticker : Ticker
  poller : Poller
  seenLsns : Finset String

inductive Label where
  /-- A hit of a probe. -/
  | probe (l : Kernel.Label)
  | wakes
  | parses (pad : Nat → UInt8)
  | consumes
  | sleeps
  | counts
  | ticks (now : UInt64)
  | polls (dir : Directory)
  | draws (now : UInt64)
  /-- There is room in the channel for what the source waits with. -/
  | sends (p : Source)

section

variable {Value : Type} (data : Data Value) (pid : UInt32)

def Data.parse : EventData → Option Value := fun d => some (data.toValue d)

def State.nextSeq (s : State Value) : UInt64 := UInt64.ofNat s.tickets.next

def walToEvent (now seq : UInt64) (e : WalInsertEvent) : WsEvent Value where
  eventType := "wal_insert"
  timestamp := now
  pid
  seq
  data := data.toValue (.walInsert e)

def heartbeat (now seq : UInt64) (status : Value) : WsEvent Value where
  eventType := "heartbeat"
  timestamp := now
  pid
  seq
  data := status

def State.draw (s : State Value) (p : Source) (e : WsEvent Value) : State Value :=
  { s with tickets := s.tickets.draw p e }

/-- What the source goes on with when its event is in the channel. -/
def State.resume (s : State Value) : Source → State Value
  | .ringbuf =>
    match s.reader with
    | .parsed pad seq => { s with reader := .sent pad seq }
    | _ => s
  | .ticker => { s with ticker := .waiting }
  | .poller =>
    match s.poller with
    | .last => { s with poller := .sleeping }
    | _ => s

def parses (s : State Value) (pad : Nat → UInt8) : Option (State Value) :=
  match s.reader, s.kernel.ring with
  | .awake, e :: _ =>
    match parseRawEvent data.parse s.nextSeq (e.bytes pad) with
    | .ok (some event) =>
      some { s.draw .ringbuf event with reader := .parsed pad s.nextSeq }
    -- nothing is sent for the record
    | .ok none => some { s with reader := .sent pad s.nextSeq }
    | .error _ => none
  | _, _ => none

def step (s : State Value) : Label → Option (State Value)
  | .probe (.read ..) => none
  | .probe l => (Kernel.step data.parse s.kernel l).map fun kernel => { s with kernel }
  | .wakes =>
    match s.reader with
    | .asleep => some { s with reader := .awake }
    | _ => none
  | .parses pad => parses data s pad
  | .consumes =>
    match s.reader with
    | .sent pad seq => (Kernel.step data.parse s.kernel (.read pad seq)).map fun kernel =>
      { s with kernel, reader := .awake }
    | _ => none
  | .sleeps =>
    match s.reader, s.kernel.ring with
    | .awake, [] => some { s with reader := .asleep }
    | _, _ => none
  | .counts =>
    match s.ticker, s.reader with
    | .waiting, .asleep => some { s with ticker := .counted }
    | _, _ => none
  | .ticks now =>
    match s.ticker with
    | .counted => some { s.draw .ticker (heartbeat pid now s.nextSeq data.ebpfStatus) with
        ticker := .drawn }
    | _ => none
  | .polls dir =>
    match s.poller with
    | .sleeping =>
      let (events, seenLsns) := collectNewWalEvents dir s.seenLsns 256
      some { s with poller := .busy events, seenLsns }
    | _ => none
  | .draws now =>
    match s.poller, s.tickets.held .poller with
    | .busy (e :: events), none =>
      some { s.draw .poller (walToEvent data pid now s.nextSeq e) with poller := .busy events }
    | .busy [], none =>
      some { s.draw .poller
          (heartbeat pid now s.nextSeq (data.walFileStatus s.seenLsns.card)) with
        poller := .last }
    | _, _ => none
  | .sends p =>
    (s.tickets.held p).map fun x => { s with tickets := s.tickets.hand p x }.resume p

def puts (s : State Value) : Label → Option (WsEvent Value)
  | .sends p => (s.tickets.held p).map Prod.snd
  | _ => none

def sources : Machine (State Value) Label where
  init := ⟨(kernel data.parse).init, Basis.Tickets.initial, .asleep, .waiting, .sleeping, ∅⟩
  step := step data pid

end

end LearnPg.Pipeline.Sources
