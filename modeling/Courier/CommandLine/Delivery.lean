import Courier.CommandLine.Arguments
import Courier.Config
import Courier.Pipe.Assembly

/-!
The command that sends one file through a whole pipe to a receiver in the same process. It waits
until nobody holds the file's event any more, which is so once the receiver has taken the seal.
-/

namespace Courier
namespace CommandLine

open Transfer

inductive DeliveryError
  | notAFile (path : String)
  /-- There can be no directory of this name. -/
  | noDirectory (path : String)
  | timedOut (path : String) (seconds : Nat)
  deriving DecidableEq, Repr

def DeliveryError.message : DeliveryError → String
  | .notAFile path => path ++ " is not a file"
  | .noDirectory path => "failed to create " ++ path
  | .timedOut path seconds =>
      "transfer of " ++ path ++ " did not complete within " ++ toString seconds ++ "s"

structure Delivered where
  stats : Metrics.TransferStats
  elapsed : Duration

namespace SendOrder

def sources (o : SendOrder) : List String := o.dataFile :: o.modFile.toList

def event (o : SendOrder) : Event where
  content := .file { data := o.dataFile, mods := o.modFile, flushPoints := 0 }
  pipe := o.pipe
  region := o.region
  commit := ⟨0, 0, 1⟩
  progress := 0

def peer (o : SendOrder) (place : List String) : Peer where
  fallback := .pass
  receiver := { pathBytes := (Path.join o.out "").utf8ByteSize }
  place := some place

def settings (config : Config) : Pipe.Settings where
  queue := config.queue
  batch := config.batch
  transfer := config.transfer
  memory := config.memory
  clients := config.transfer.maxClients

/-- The pipe at work, with the event in its queue. -/
def begun (o : SendOrder) (config : Config) (d : Disk) (place : List String) :
    Pipe Batch.PlainPayload :=
  let p := Pipe.assemble ⟨o.pipe, o.pipe, o.pipe⟩ (settings config) ({} : Batch.PlainPayload) d
    (o.peer place)
  let ledger := p.commons.ledger.enrol Backoff.standard
  let p := { p with commons := { p.commons with ledger } }
  (p.startWorker.startConsumer.offer ⟨0, o.event⟩).1

/-- Nobody holds the event any more. -/
def isDone (p : Pipe Batch.PlainPayload) : Bool := p.commons.ledger.isReleased 0

/-- The pipe when the event is released or time is up. Nothing runs in no time. -/
def finish (o : SendOrder) (p : Pipe Batch.PlainPayload) : Pipe Batch.PlainPayload :=
  if o.timeoutSeconds = 0 then p
  else
    (Schedule.drive Schedule.bound isDone (some (1000 * o.timeoutSeconds))
      (Schedule.refill { pipe := p })).pipe

def run (o : SendOrder) (config : Config) (d : Disk) : Disk × Except DeliveryError Delivered :=
  match o.sources.find? fun path => !d.isFile path with
  | some path => (d, .error (.notAFile path))
  | none =>
      match d.makeDirectory o.out with
      | (d, none) => (d, .error (.noDirectory o.out))
      | (d, some place) =>
          let p := o.finish (o.begun config d place)
          (p.disk,
            if isDone p then .ok { stats := p.connector.stats, elapsed := .ofMillis p.now }
            else .error (.timedOut o.dataFile o.timeoutSeconds))

end SendOrder
end CommandLine
end Courier
