import Courier.Batch.Accumulator
import Courier.Metrics.Reporter
import Courier.Queue.Realtime
import Courier.Transfer.Attempt

/-!
The configuration of a process: settings for each of its parts, what makes a combination of them
unusable, and what is said about it. The first problem found is the one reported.
-/

namespace Courier

namespace Log

inductive Level
  | trace
  | debug
  | info
  | warn
  | error
  deriving DecidableEq, Repr

inductive Form
  | console
  | json
  deriving DecidableEq, Repr

structure Settings where
  level : Level := .info
  form : Form := .console
  deriving DecidableEq, Repr

def Level.names : List (String × Level) :=
  [("trace", .trace), ("debug", .debug), ("info", .info), ("warn", .warn), ("error", .error)]

def Form.names : List (String × Form) := [("console", .console), ("json", .json)]

end Log

namespace Metrics

def ReportForm.names : List (String × ReportForm) := [("human", .human), ("json", .json)]

end Metrics

structure Config where
  queue : Queue.Settings := {}
  batch : Batch.Settings := {}
  transfer : Transfer.Settings := {}
  memory : Memory.Settings := {}
  log : Log.Settings := {}
  metrics : Metrics.ReportSettings := {}
  deriving DecidableEq, Repr

inductive ConfigProblem
  | zeroBulkThreshold
  | zeroInFlight
  | zeroBatchDelay
  | zeroBatchSize
  | zeroReadBuffer
  | noClients
  | zeroRetryInterval
  /-- The memory of the process cannot hold one read buffer. -/
  | memoryBelowBuffer (total buffer : Nat)
  deriving DecidableEq, Repr

namespace ConfigProblem

def part : ConfigProblem → String
  | .zeroBulkThreshold | .zeroInFlight => "queue"
  | .zeroBatchDelay | .zeroBatchSize => "batch"
  | .zeroReadBuffer | .noClients | .zeroRetryInterval => "transfer"
  | .memoryBelowBuffer _ _ => "memory"

def field : ConfigProblem → String
  | .zeroBulkThreshold => "bulk_poll_threshold"
  | .zeroInFlight => "max_waiting_bulk_count"
  | .zeroBatchDelay => "max_delay_ms"
  | .zeroBatchSize => "max_batch_size_bytes"
  | .zeroReadBuffer => "read_buffer_size"
  | .noClients => "max_client_number"
  | .zeroRetryInterval => "initial_retry_interval_ms"
  | .memoryBelowBuffer _ _ => "total_bytes"

def reason : ConfigProblem → String
  | .zeroInFlight => "must be greater than 0, otherwise file events are never delivered"
  | .zeroRetryInterval => "must be greater than 0, a zero interval never grows"
  | .memoryBelowBuffer total buffer =>
      toString total ++ " is smaller than transfer.read_buffer_size (" ++ toString buffer ++ ")"
  | _ => "must be greater than 0"

def message (p : ConfigProblem) : String :=
  "[" ++ p.part ++ "] has invalid " ++ p.field ++ ": " ++ p.reason

end ConfigProblem

namespace Config

open ConfigProblem in
/-- Everything that is wrong, in the order in which it is looked for. -/
def problems (c : Config) : List ConfigProblem :=
  (if c.queue.bulkThreshold = 0 then [zeroBulkThreshold] else []) ++
  (if c.queue.maxInFlight = 0 then [zeroInFlight] else []) ++
  (if c.batch.maxDelayMs = 0 then [zeroBatchDelay] else []) ++
  (if c.batch.maxBytes = 0 then [zeroBatchSize] else []) ++
  (if c.transfer.readBufferBytes = 0 then [zeroReadBuffer] else []) ++
  (if c.transfer.maxClients = 0 then [noClients] else []) ++
  (if c.transfer.initialRetryMs = 0 then [zeroRetryInterval] else []) ++
  (if c.memory.totalBytes < c.transfer.readBufferBytes then
    [memoryBelowBuffer c.memory.totalBytes c.transfer.readBufferBytes] else [])

def validate (c : Config) : Except ConfigProblem Unit :=
  match c.problems with
  | [] => .ok ()
  | problem :: _ => .error problem

end Config
end Courier
