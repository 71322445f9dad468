import Courier.Metrics.Snapshot
import Courier.Metrics.Units
import Courier.Text.Json

/-!
A snapshot as text, in one of two forms. The form for people has a line each for queues, batches and
connectors, of those that exist. The form for machines is one object.
-/

namespace Courier
namespace Metrics

inductive ReportForm
  | human
  | json
  deriving DecidableEq, Repr

namespace Report

/-- The speed of a connector, if it is known. -/
def rateOf? (rates : Option (List Rate)) (id : String) : Option Float :=
  ((rates.getD []).find? fun r => r.id = id).map (·.bytesPerSecond)

def queueText (q : QueueReading) : String :=
  q.id ++ " (" ++ toString q.queued ++ " queued, " ++ Units.count q.stats.polled ++ " polled, " ++
    Units.count q.stats.bulkPolled ++ " bulk, " ++ Units.count q.stats.coalesced ++ " hb dropped)"

def batchText (b : BatchReading) : String :=
  b.id ++ " (" ++ Units.count b.stats.emissions ++ " emitted, " ++ Units.bytes b.stats.bytes ++
    ", " ++ Units.millis b.stats.delay.mean ++ " avg delay)"

def connectorText (rates : Option (List Rate)) (c : ConnectorReading) : String :=
  let speed :=
    match rateOf? rates c.id with
    | some rate => Units.byteRate rate ++ ", "
    | none => ""
  c.id ++ " (" ++ speed ++ Units.count c.transfer.pieces ++ " pieces, " ++
    Units.count c.transfer.seals ++ " sealed, " ++ toString c.retrying ++ " retrying, " ++
    toString c.inFlight ++ " in flight)"

/-- The line for one sort of component, if there are any. -/
def line (sort : String) (entries : List String) : List String :=
  if entries.isEmpty then []
  else ["[metrics] " ++ sort ++ ": " ++ String.intercalate " | " entries]

def human (s : Snapshot) (rates : Option (List Rate)) : String :=
  String.intercalate "\n"
    (line "queues" (s.queues.map queueText) ++
      line "batches" (s.batches.map batchText) ++
      line "connectors" (s.connectors.map (connectorText rates)))

open Text (Json)

def timerObject (t : TimerStats) : Json :=
  .object [("count", .number t.count), ("total_micros", .number t.totalMicros),
    ("max_micros", .number t.maxMicros)]

def queueObject (q : QueueReading) : Json :=
  .object [("id", .text q.id), ("queued", .number q.queued), ("offered", .number q.stats.offered),
    ("polled", .number q.stats.polled), ("bulk_polled", .number q.stats.bulkPolled),
    ("heartbeats_coalesced", .number q.stats.coalesced), ("discarded", .number q.stats.discarded)]

def batchObject (b : BatchReading) : Json :=
  .object [("id", .text b.id), ("emissions", .number b.stats.emissions),
    ("bytes", .number b.stats.bytes), ("events", .number b.stats.events),
    ("delay", timerObject b.stats.delay)]

def transferObject (t : TransferStats) : Json :=
  .object [("pieces_sent", .number t.pieces), ("piece_bytes", .number t.pieceBytes),
    ("piece_timer", timerObject t.pieceTimer), ("seals", .number t.seals),
    ("file_timer", timerObject t.fileTimer), ("offset_resets", .number t.offsetResets),
    ("retries", .number t.retries), ("batches_sent", .number t.batches),
    ("batch_events_sent", .number t.batchEvents)]

/-- Speeds are cut to whole bytes within a word. -/
def connectorObject (rates : Option (List Rate)) (c : ConnectorReading) : Json :=
  let speed :=
    match rateOf? rates c.id with
    | some rate => [("bytes_per_sec", Json.number rate.toUInt64.toNat)]
    | none => []
  .object ([("id", .text c.id)] ++ speed ++
    [("transfer", transferObject c.transfer), ("retrying", .number c.retrying),
      ("in_flight", .number c.inFlight)])

/-- The field for one sort of component, if there are any. -/
def field (sort : String) (entries : List Json) : List (String × Json) :=
  if entries.isEmpty then [] else [(sort, .list entries)]

def json (s : Snapshot) (rates : Option (List Rate)) : String :=
  (Json.object (("type", .text "pipe") ::
    (field "queues" (s.queues.map queueObject) ++
      field "batches" (s.batches.map batchObject) ++
      field "connectors" (s.connectors.map (connectorObject rates))))).render

end Report

def ReportForm.render (form : ReportForm) (s : Snapshot) (rates : Option (List Rate)) : String :=
  match form with
  | .human => Report.human s rates
  | .json => Report.json s rates

end Metrics
end Courier
