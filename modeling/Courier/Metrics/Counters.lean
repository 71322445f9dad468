import Courier.Duration

/-!
What the stages count: words that wrap, and timers that keep the number, the sum and the longest
of the times recorded, in microseconds.
-/

namespace Courier
namespace Metrics

structure TimerStats where
  count : Nat := 0
  totalMicros : Nat := 0
  maxMicros : Nat := 0
  deriving DecidableEq, Repr

namespace TimerStats

def record (t : TimerStats) (d : Duration) : TimerStats :=
  let micros := Word.clamp d.micros
  { count := Word.add t.count 1
    totalMicros := Word.add t.totalMicros micros
    maxMicros := max t.maxMicros micros }

def mean (t : TimerStats) : Duration :=
  if t.count = 0 then .zero else .ofMicros (t.totalMicros / t.count)

def longest (t : TimerStats) : Duration := .ofMicros t.maxMicros

end TimerStats

structure QueueStats where
  offered : Nat := 0
  polled : Nat := 0
  bulkPolled : Nat := 0
  coalesced : Nat := 0
  discarded : Nat := 0
  deriving DecidableEq, Repr

namespace QueueStats

def recordOffered (s : QueueStats) : QueueStats := { s with offered := Word.add s.offered 1 }

def recordPolled (s : QueueStats) (bulk : Bool) : QueueStats :=
  { s with
    polled := Word.add s.polled 1
    bulkPolled := if bulk then Word.add s.bulkPolled 1 else s.bulkPolled }

def recordCoalesced (s : QueueStats) : QueueStats := { s with coalesced := Word.add s.coalesced 1 }

def recordDiscarded (s : QueueStats) (n : Nat) : QueueStats :=
  { s with discarded := Word.add s.discarded n }

end QueueStats

structure BatchStats where
  emissions : Nat := 0
  bytes : Nat := 0
  events : Nat := 0
  delay : TimerStats := {}
  deriving DecidableEq, Repr

namespace BatchStats

def recordEmission (s : BatchStats) (elapsed : Duration) (bytes events : Nat) : BatchStats :=
  { emissions := Word.add s.emissions 1
    bytes := Word.add s.bytes bytes
    events := Word.add s.events events
    delay := s.delay.record elapsed }

end BatchStats

structure TransferStats where
  pieces : Nat := 0
  pieceBytes : Nat := 0
  pieceTimer : TimerStats := {}
  seals : Nat := 0
  fileTimer : TimerStats := {}
  offsetResets : Nat := 0
  retries : Nat := 0
  batches : Nat := 0
  batchEvents : Nat := 0
  deriving DecidableEq, Repr

namespace TransferStats

def recordPiece (s : TransferStats) (bytes : Nat) (elapsed : Duration) : TransferStats :=
  { s with
    pieces := Word.add s.pieces 1
    pieceBytes := Word.add s.pieceBytes bytes
    pieceTimer := s.pieceTimer.record elapsed }

def recordSeal (s : TransferStats) (elapsed : Duration) : TransferStats :=
  { s with seals := Word.add s.seals 1, fileTimer := s.fileTimer.record elapsed }

def recordOffsetReset (s : TransferStats) : TransferStats :=
  { s with offsetResets := Word.add s.offsetResets 1 }

def recordRetry (s : TransferStats) : TransferStats := { s with retries := Word.add s.retries 1 }

def recordBatch (s : TransferStats) (events : Nat) : TransferStats :=
  { s with batches := Word.add s.batches 1, batchEvents := Word.add s.batchEvents events }

end TransferStats
end Metrics
end Courier
