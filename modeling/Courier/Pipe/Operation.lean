import Courier.Commons.Operation
import Courier.Pipe.Schedule

/-!
Operations on a running pipe. Those of `Pipe` change it at once; those of `Schedule` may wait, and
the tasks of the pipe run meanwhile. A history of a pipe is a list of them.
-/

namespace Courier

namespace Pipe

inductive Operation
  | transferFile (e : EventRef)
  | addFailure (e : EventRef)
  | remove (e : EventRef)
  | discard (pipe : String) (region : Int)
  | closeConnector
  | offer (e : EventRef)
  | shutdownQueue
  | teardown (pipe : String) (region : Int)
  | close
  | startWorker
  | startConsumer
  | shared (o : Commons.Operation)
  deriving DecidableEq, Repr

def perform {P : Type} [Batch.Payload P] (p : Pipe P) : Operation → Pipe P × Reply ConnectorError
  | .transferFile e =>
      let (p, started) := p.transferFile e
      (p, .ofExcept .flag started)
  | .addFailure e => (p.addFailure e, .done)
  | .remove e =>
      let (p, removed) := p.remove e
      (p, .flag removed)
  | .discard pipe region =>
      let (p, n) := p.discard pipe region
      (p, .count n)
  | .closeConnector => (p.closeConnector, .done)
  | .offer e =>
      let (p, accepted) := p.offer e
      (p, .flag accepted)
  | .shutdownQueue => (p.shutdownQueue, .done)
  | .teardown pipe region =>
      let (p, n) := p.teardown pipe region
      (p, .count n)
  | .close => (p.close, .done)
  | .startWorker => (p.startWorker, .done)
  | .startConsumer => (p.startConsumer, .done)
  | .shared o =>
      let (commons, reply) := p.commons.perform o
      ({ p with commons }, reply)

end Pipe

namespace Schedule

inductive Operation
  | now (o : Pipe.Operation)
  | sleep (ms : Nat)
  /-- Sends tablets, with a reference on each taken before if `hold` says so. -/
  | send (events : List EventRef) (hold : Bool)
  /-- Waits until the connector is idle while others work, each a time from now. -/
  | waitIdle (ms : Nat) (others : List (Nat × Pipe.Operation))
  | dispatch (e : EventRef)
  | step
  | stopWorker
  /-- Waits for the end of the consumer, which is told to stop if `cancel` says so. -/
  | joinConsumer (cancel : Bool)
  deriving DecidableEq, Repr

variable {P : Type} [Batch.Payload P]

/-- Performs an operation that changes the pipe at once. -/
def performNow (s : Schedule P) (o : Pipe.Operation) : Schedule P × Reply ConnectorError :=
  let (pipe, reply) := s.pipe.perform o
  ({ s with pipe }, reply)

/-- Runs a call until it came back, and then answers with what it came back with. -/
def comeBack (s : Schedule P) (id : Pipe.TaskId)
    (answer : Pipe.Answer × Nat → Reply ConnectorError) : Schedule P × Reply ConnectorError :=
  let s := s.await id
  match s.pipe.answer? id with
  | some result => (s, answer result)
  | none => (s, .done)

def send (s : Schedule P) (events : List EventRef) (hold : Bool) :
    Schedule P × Reply ConnectorError :=
  let commons :=
    if hold then events.foldl (fun c e => (c.hold e).1) s.pipe.commons else s.pipe.commons
  let payload := events.foldl (fun (x : Batch.PlainPayload) e => (x.construct e.event).1) {}
  let (pipe, id) := { s.pipe with commons }.callSend events payload.bytes
  { s with pipe }.comeBack id fun
    | (.sent result, _) => .ofExcept (fun _ => .granted) result
    | _ => .done

def waitIdle (s : Schedule P) (ms : Nat) (others : List (Nat × Pipe.Operation)) :
    Schedule P × Reply ConnectorError :=
  let start := s.pipe.now
  let (pipe, id) := s.pipe.callWaitIdle ms
  let s := others.foldl (fun s (after, o) => ((s.runTo (start + after)).performNow o).1)
    { s with pipe }
  s.comeBack id fun
    | (.idle isIdle, moment) => .waited isIdle (moment - start)
    | _ => .done

def step (s : Schedule P) : Schedule P × Reply ConnectorError :=
  match s.pipe.callStep with
  | (pipe, none) => ({ s with pipe }, .event none)
  | (pipe, some (e, id)) => { s with pipe }.comeBack id fun _ => .event (some e)

def stopWorker (s : Schedule P) : Schedule P × Reply ConnectorError :=
  match s.pipe.worker with
  | none => (s, .flag false)
  | some id =>
      let s := { s with pipe := s.pipe.cancelWorker }.await id
      ({ s with pipe := { s.pipe with worker := none } }, .flag true)

def joinConsumer (s : Schedule P) (cancel : Bool) : Schedule P × Reply ConnectorError :=
  match s.pipe.consumer with
  | none => (s, .flag false)
  | some id =>
      let s := (if cancel then { s with pipe := s.pipe.cancelConsumer } else s).await id
      ({ s with pipe := { s.pipe with consumer := none } }, .flag true)

def perform (s : Schedule P) : Operation → Schedule P × Reply ConnectorError
  | .now o => s.performNow o
  | .sleep ms => (s.runTo (s.pipe.now + ms), .done)
  | .send events hold => s.send events hold
  | .waitIdle ms others => s.waitIdle ms others
  | .dispatch e =>
      let (pipe, id) := s.pipe.callDispatch e
      { s with pipe }.comeBack id fun _ => .done
  | .step => s.step
  | .stopWorker => s.stopWorker
  | .joinConsumer cancel => s.joinConsumer cancel

end Schedule
end Courier
