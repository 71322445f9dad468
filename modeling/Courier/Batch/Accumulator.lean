import Courier.Batch.Payload
import Courier.Commons
import Courier.Metrics.Counters

/-!
The batch of a pipe. It holds a reference on every tablet it keeps, and is due when its payload
reaches the slice of memory granted to it or when its first tablet has waited for the maximum delay.
Found due, it reports to the memory budget which share of the delay it took.
-/

namespace Courier
namespace Batch

structure Settings where
  maxDelayMs : Nat := 1000
  maxBytes : Nat := 16777216
  deriving DecidableEq, Repr

/-- What the recorder of a batch is told when the batch is found due. -/
structure Sample where
  elapsed : Duration
  bytes : Nat
  events : Nat
  deriving DecidableEq, Repr

/-- Events and payload handed to a sender, who owns a reference on each event. -/
structure Emitted where
  events : List EventRef
  payload : Bytes
  deriving DecidableEq, Repr

structure Accumulator (P : Type) where
  id : String
  maxDelayMs : Nat
  slice : Nat
  payload : P
  events : List EventRef := []
  /-- When the first event now held was taken. -/
  firstAt : Option Nat := none
  stats : Metrics.BatchStats := {}
  /-- What the recorder was told, oldest first. -/
  samples : List Sample := []
  closed : Bool := false

namespace Accumulator

variable {P : Type} [Payload P]

/-- Registers a slice of the shared budget. -/
def create (id : String) (settings : Settings) (payload : P) (commons : Commons) :
    Accumulator P × Commons :=
  let memory := commons.memory.withBudget
  ({ id, maxDelayMs := settings.maxDelayMs, slice := memory.sliceCount, payload },
    { commons with memory := memory.registerSlice settings.maxBytes })

def size (b : Accumulator P) : Nat := Payload.size b.payload

/-- Bytes granted to the batch now. -/
def grant (b : Accumulator P) (commons : Commons) : Nat := commons.memory.grantOf b.slice

def reset (b : Accumulator P) : Accumulator P :=
  { b with events := [], payload := Payload.reset b.payload, firstAt := none }

def onSlice (b : Accumulator P) (commons : Commons) (f : Memory.Budget → Nat → Memory.Budget) :
    Commons :=
  { commons with memory := commons.memory.onBudget fun budget => f budget b.slice }

def resetUsage (b : Accumulator P) (commons : Commons) : Commons :=
  b.onSlice commons Memory.Budget.resetUsage

/-- The share of the maximum delay that has passed. -/
def delayShare (elapsed maxDelay : Duration) : Float :=
  if 0.0 < maxDelay.toSeconds then elapsed.toSeconds / maxDelay.toSeconds else 1.0

/-- Whether the batch is due; if so, budget and recorder are told. -/
def checkDue (b : Accumulator P) (commons : Commons) : Accumulator P × Commons × Bool :=
  match b.firstAt with
  | none => (b, commons, false)
  | some first =>
      if b.size < b.grant commons && commons.now - first < b.maxDelayMs then (b, commons, false)
      else
        let elapsed := commons.elapsed first
        let share := delayShare elapsed (.ofMillis b.maxDelayMs)
        let sample : Sample := { elapsed, bytes := b.size, events := b.events.length }
        ({ b with
            samples := b.samples ++ [sample]
            stats := b.stats.recordEmission elapsed sample.bytes sample.events },
          b.onSlice commons fun budget slice => budget.sample slice share,
          true)

def endsWith (b : Accumulator P) (e : EventRef) : Bool :=
  match b.events.getLast? with
  | some last => last.id == e.id
  | none => false

/-- Keeps a constructed event, whose reference was taken before. -/
def keep (b : Accumulator P) (commons : Commons) (e : EventRef) (payload : P) :
    Accumulator P × Commons :=
  let added := Payload.size payload - b.size
  ({ b with
      payload := payload
      events := b.events ++ [e]
      firstAt := some (b.firstAt.getD commons.now) },
    b.onSlice commons fun budget slice => budget.addUsage slice added)

/-- Takes the event in if it can: a reference first, then its encoding. The reference is dropped
when the event is not kept. -/
def add (b : Accumulator P) (commons : Commons) (e : EventRef) :
    Accumulator P × Commons × Option BatchError :=
  match commons.hold e with
  | (commons, false) => (b, commons, none)
  | (commons, true) =>
      match Payload.construct b.payload e.event with
      | (payload, .ok true) =>
          let (b, commons) := b.keep commons e payload
          (b, commons, none)
      | (payload, .ok false) => ({ b with payload := payload }, (commons.drop e).1, none)
      | (payload, .error error) => ({ b with payload := payload }, (commons.drop e).1, some error)

/-- Offers an event and says whether the batch is due. A closed batch takes nothing; the event that
was taken last is not taken again. -/
def onEvent (b : Accumulator P) (commons : Commons) (e : EventRef) :
    Accumulator P × Commons × Except BatchError Bool :=
  if b.closed then (b, commons, .ok false)
  else
    let (b, commons, error?) := if b.endsWith e then (b, commons, none) else b.add commons e
    match error? with
    | some error => (b, commons, .error error)
    | none =>
        let (b, commons, due) := b.checkDue commons
        (b, commons, .ok due)

/-- Hands everything to a sender, with the references. -/
def take (b : Accumulator P) (commons : Commons) : Accumulator P × Commons × Emitted :=
  let (payload, bytes) := Payload.take b.payload
  (({ b with payload := payload } : Accumulator P).reset, b.resetUsage commons,
    { events := b.events, payload := bytes })

/-- Forgets everything after a send; the references belong to the sender. -/
def onSuccess (b : Accumulator P) (commons : Commons) : Accumulator P × Commons :=
  (b.reset, b.resetUsage commons)

/-- Releases everything and gives the slice back, once. -/
def close (b : Accumulator P) (commons : Commons) : Accumulator P × Commons :=
  if b.closed then (b, commons)
  else
    ({ b.reset with closed := true },
      b.onSlice (commons.clearAll b.events) Memory.Budget.close)

/-- Releases the events of one pipe instance and returns their number. The payload keeps their bytes
unless no event is left. -/
def discardPipe (b : Accumulator P) (commons : Commons) (pipe : String) (region : Int) :
    Accumulator P × Commons × Nat :=
  let removed := b.events.filter fun e => e.belongsTo pipe region
  let kept := b.events.filter fun e => !e.belongsTo pipe region
  let commons := commons.clearAll removed
  let b' := { b with events := kept }
  if !removed.isEmpty && kept.isEmpty then (b'.reset, b'.resetUsage commons, removed.length)
  else (b', commons, removed.length)

def dropReferences (b : Accumulator P) (commons : Commons) : Commons := commons.dropAll b.events

end Accumulator
end Batch
end Courier
