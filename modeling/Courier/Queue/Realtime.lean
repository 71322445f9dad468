import Courier.Commons
import Courier.Metrics.Counters
import Courier.Queue.Channels
import Courier.Queue.EventCounter

/-!
The queue of a pipe. It admits events without bound and hands each on with the reference it was
offered with. Beside its channels it keeps counts, the bytes in its memory block, and a gauge of its
length that outlives it.
-/

namespace Courier
namespace Queue

structure Settings where
  bulkThreshold : Nat := 10
  bulkPeriod : Nat := 3
  maxInFlight : Nat := 1
  maxBlockingMs : Nat := 1000
  deriving DecidableEq, Repr

def Settings.effectivePeriod (s : Settings) : Nat := max s.bulkPeriod 1

structure Realtime where
  pipe : String
  settings : Settings
  block : Nat
  channels : Channels := {}
  counter : EventCounter := {}
  stats : Metrics.QueueStats := {}
  gauge : Nat := 0
  /-- Offers and the shutdown, as a waiting retrieval sees them. -/
  signals : Nat := 0
  isShutdown : Bool := false

namespace Realtime

/-- A queue over the process's block for queues. -/
def create (pipe : String) (settings : Settings) (commons : Commons) : Realtime × Commons :=
  ({ pipe, settings, block := commons.memory.blocks.length },
    { commons with memory := commons.memory.allocateQueue })

def withChannels (q : Realtime) (channels : Channels) : Realtime :=
  { q with channels := channels, gauge := channels.size }

def usage (q : Realtime) (commons : Commons) : Nat := commons.memory.usageOf q.block

/-- Returns false for a heartbeat behind a heartbeat, whose reference is dropped. -/
def offer (q : Realtime) (commons : Commons) (e : EventRef) : Realtime × Commons × Bool :=
  match q.channels.push? e with
  | none => ({ q with stats := q.stats.recordCoalesced }, (commons.drop e).1, false)
  | some channels =>
      ({ q.withChannels channels with
          counter := q.counter.increase e.event
          stats := q.stats.recordOffered
          signals := q.signals + 1 },
        { commons with memory := commons.memory.addUsage q.block e.event.size },
        true)

def bulkAllowed (q : Realtime) (commons : Commons) : Bool :=
  commons.slots.count < q.settings.maxInFlight

def poll (q : Realtime) (commons : Commons) : Realtime × Commons × Option EventRef :=
  match q.channels.pop q.settings.bulkThreshold q.settings.effectivePeriod
      (q.bulkAllowed commons) with
  | (channels, none) => (q.withChannels channels, commons, none)
  | (channels, some (e, bulk)) =>
      ({ q.withChannels channels with
          counter := q.counter.decrease e.event
          stats := q.stats.recordPolled bulk },
        { commons with memory := commons.memory.reduceUsage q.block e.event.size },
        some e)

/-- Takes out everything; the references go with the events. -/
def clear (q : Realtime) (commons : Commons) : Realtime × Commons × List EventRef :=
  ({ q.withChannels { q.channels with live := [], bulk := [] } with counter := {} },
    { commons with memory := commons.memory.reduceUsage q.block (q.usage commons) },
    q.channels.toList)

def discardAll (q : Realtime) (commons : Commons) : Realtime × Commons :=
  let (q, commons, events) := q.clear commons
  ({ q with stats := q.stats.recordDiscarded events.length }, commons.clearAll events)

/-- Uncounts an event that was taken out, and releases it. -/
def forget (q : Realtime) (commons : Commons) (e : EventRef) : Realtime × Commons :=
  let commons := (commons.clear e).1
  ({ q with counter := q.counter.decrease e.event },
    { commons with memory := commons.memory.reduceUsage q.block e.event.size })

/-- Releases the events of one pipe instance and returns their number. -/
def discardPipe (q : Realtime) (commons : Commons) (pipe : String) (region : Int) :
    Realtime × Commons × Nat :=
  let (channels, removed) := q.channels.removePipe pipe region
  let (q, commons) := removed.foldl (fun acc e => acc.1.forget acc.2 e)
    (q.withChannels channels, commons)
  ({ q with stats := q.stats.recordDiscarded removed.length }, commons, removed.length)

def shutdown (q : Realtime) : Realtime :=
  { q with isShutdown := true, signals := q.signals + 1 }

end Realtime
end Queue
end Courier
