import Courier.Config
import Courier.Duration.Spelled
import Courier.Toml.Value

/-!
The fields of a configuration by name: what a value of a document puts into each, and what each
holds. Reading a configuration and listing it both go through these tables.
-/

namespace Courier
namespace Config

open Toml (Value)

inductive Setting
  | number (n : Int)
  | flag (b : Bool)
  | word (s : String)
  | duration (d : Duration)
  deriving DecidableEq, Repr

/-- A field of a section: its name, how a value is put into it, and what is in it. -/
structure Field (S : Type) where
  name : String
  store : S → Value → Option S
  load : S → Setting

def natural? : Value → Option Nat
  | .integer n => if 0 ≤ n then some n.toNat else none
  | _ => none

def int32? : Value → Option Int
  | .integer n => if -(Nat.pow 2 31 : Nat) ≤ n && n < (Nat.pow 2 31 : Nat) then some n else none
  | _ => none

def boolean? : Value → Option Bool
  | .boolean b => some b
  | _ => none

def duration? : Value → Option Duration
  | .text s => Duration.ofText? s
  | _ => none

def isEmpty : Value → Bool
  | .array items | .tables items => items.isEmpty
  | .table _ entries => entries.isEmpty
  | _ => false

/-- One of a few words, as a text or as the only name in a table, with nothing under it. -/
def word? {α : Type} (names : List (String × α)) : Value → Option α
  | .text s => names.lookup s
  | .table _ [(name, v)] => if isEmpty v then names.lookup name else none
  | _ => none

/-- The word for one of a few things. -/
def wordFor {α : Type} [DecidableEq α] (names : List (String × α)) (a : α) : String :=
  match names.find? fun row => row.2 = a with
  | some row => row.1
  | none => ""

variable {S : Type}

def natural (name : String) (get : S → Nat) (put : S → Nat → S) : Field S where
  name := name
  store s v := (natural? v).map (put s)
  load s := .number (get s)

def int32 (name : String) (get : S → Int) (put : S → Int → S) : Field S where
  name := name
  store s v := (int32? v).map (put s)
  load s := .number (get s)

def boolean (name : String) (get : S → Bool) (put : S → Bool → S) : Field S where
  name := name
  store s v := (boolean? v).map (put s)
  load s := .flag (get s)

def duration (name : String) (get : S → Duration) (put : S → Duration → S) : Field S where
  name := name
  store s v := (duration? v).map (put s)
  load s := .duration (get s)

def word {α : Type} [DecidableEq α] (name : String) (names : List (String × α)) (get : S → α)
    (put : S → α → S) : Field S where
  name := name
  store s v := (word? names v).map (put s)
  load s := .word (wordFor names (get s))

def queueFields : List (Field Queue.Settings) :=
  [natural "bulk_poll_threshold" (·.bulkThreshold) fun s n => { s with bulkThreshold := n },
   natural "historical_poll_threshold" (·.bulkPeriod) fun s n => { s with bulkPeriod := n },
   natural "max_waiting_bulk_count" (·.maxInFlight) fun s n => { s with maxInFlight := n },
   natural "max_blocking_time_ms" (·.maxBlockingMs) fun s n => { s with maxBlockingMs := n }]

def batchFields : List (Field Batch.Settings) :=
  [natural "max_delay_ms" (·.maxDelayMs) fun s n => { s with maxDelayMs := n },
   natural "max_batch_size_bytes" (·.maxBytes) fun s n => { s with maxBytes := n }]

def transferFields : List (Field Transfer.Settings) :=
  [natural "read_buffer_size" (·.readBufferBytes) fun s n => { s with readBufferBytes := n },
   natural "initial_retry_interval_ms" (·.initialRetryMs) fun s n => { s with initialRetryMs := n },
   natural "max_client_number" (·.maxClients) fun s n => { s with maxClients := n },
   natural "request_timeout_ms" (·.requestTimeoutMs) fun s n => { s with requestTimeoutMs := n },
   int32 "node_id" (·.node) fun s n => { s with node := n }]

def memoryFields : List (Field Memory.Settings) :=
  [natural "total_bytes" (·.totalBytes) fun s n => { s with totalBytes := n },
   natural "batch_budget_bytes" (·.batchBudgetBytes) fun s n => { s with batchBudgetBytes := n },
   natural "queue_budget_bytes" (·.queueBudgetBytes) fun s n => { s with queueBudgetBytes := n }]

def logFields : List (Field Log.Settings) :=
  [word "level" Log.Level.names (·.level) fun s l => { s with level := l },
   word "format" Log.Form.names (·.form) fun s f => { s with form := f }]

def metricsFields : List (Field Metrics.ReportSettings) :=
  [boolean "enabled" (·.enabled) fun s b => { s with enabled := b },
   duration "interval" (·.interval) fun s d => { s with interval := d },
   word "format" Metrics.ReportForm.names (·.form) fun s f => { s with form := f }]

/-- What the fields of a section hold, under their names. -/
def loadAll (fields : List (Field S)) (s : S) : List (String × Setting) :=
  fields.map fun f => (f.name, f.load s)

/-- Everything a configuration holds, section by section. -/
def settings (c : Config) : List (String × List (String × Setting)) :=
  [("queue", loadAll queueFields c.queue), ("batch", loadAll batchFields c.batch),
   ("transfer", loadAll transferFields c.transfer), ("memory", loadAll memoryFields c.memory),
   ("log", loadAll logFields c.log), ("metrics", loadAll metricsFields c.metrics)]

end Config
end Courier
