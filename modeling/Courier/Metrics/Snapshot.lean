import Courier.Metrics.Counters

/-!
What all queues, batches and connectors had counted at one moment, and how fast connectors went from
one such moment to a later one.
-/

namespace Courier
namespace Metrics

structure QueueReading where
  id : String
  queued : Nat := 0
  stats : QueueStats := {}
  deriving DecidableEq, Repr

structure BatchReading where
  id : String
  stats : BatchStats := {}
  deriving DecidableEq, Repr

structure ConnectorReading where
  id : String
  transfer : TransferStats := {}
  retrying : Nat := 0
  inFlight : Nat := 0
  deriving DecidableEq, Repr

structure Snapshot where
  /-- When the readings were taken, counted from a common origin. -/
  takenAt : Option Duration := none
  queues : List QueueReading := []
  batches : List BatchReading := []
  connectors : List ConnectorReading := []
  deriving DecidableEq, Repr

structure Rate where
  id : String
  piecesPerSecond : Float := 0.0
  bytesPerSecond : Float
  retries : Nat := 0

namespace ConnectorReading

/-- The speed since an earlier reading. A counter that went down counts as unmoved. -/
def rateSince (c earlier : ConnectorReading) (seconds : Float) : Rate :=
  let perSecond (moved : Nat) : Float := moved.toUInt64.toFloat / seconds
  { id := c.id
    piecesPerSecond := perSecond (c.transfer.pieces - earlier.transfer.pieces)
    bytesPerSecond := perSecond (c.transfer.pieceBytes - earlier.transfer.pieceBytes)
    retries := c.transfer.retries - earlier.transfer.retries }

end ConnectorReading

namespace Snapshot

def connector? (s : Snapshot) (id : String) : Option ConnectorReading :=
  s.connectors.find? fun c => c.id = id

/-- Seconds since an earlier snapshot, if both have a time and some time has passed. -/
def secondsSince? (s earlier : Snapshot) : Option Float :=
  match s.takenAt, earlier.takenAt with
  | some now, some past =>
      if past.nanos < now.nanos then some (Duration.toSeconds ⟨now.nanos - past.nanos⟩) else none
  | _, _ => none

/-- Speeds of the connectors that both snapshots know. -/
def ratesSince? (s earlier : Snapshot) : Option (List Rate) :=
  (s.secondsSince? earlier).map fun seconds =>
    s.connectors.filterMap fun c =>
      (earlier.connector? c.id).map fun past => c.rateSince past seconds

end Snapshot
end Metrics
end Courier
