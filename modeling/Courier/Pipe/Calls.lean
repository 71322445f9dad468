import Courier.Pipe.Step

/-!
What a pipe can be asked from outside while its tasks run. A call that has to wait is a task itself
and ends with its answer; the others answer at once.
-/

namespace Courier

open Transfer

namespace Pipe

variable {P : Type}

/-- What a call came back with, if it did, and when. -/
def answer? (p : Pipe P) (id : TaskId) : Option (Answer × Nat) :=
  match p.task? id with
  | some (.ended answer at_) => some (answer, at_)
  | _ => none

/-- Starts a worker on the retry queue, beside those that there are. -/
def startWorker (p : Pipe P) : Pipe P := { p with worker := some p.nextTask }.spawn .looking

/-- Starts a consumer, beside those that there are. -/
def startConsumer (p : Pipe P) : Pipe P := { p with consumer := some p.nextTask }.spawn .consuming

def cancelWorker (p : Pipe P) : Pipe P := p.cancel p.worker

def cancelConsumer (p : Pipe P) : Pipe P := p.cancel p.consumer

/-- The task is still there and has not come back. -/
def isUnderWay (p : Pipe P) (id : TaskId) : Bool :=
  match p.task? id with
  | some (.ended _ _) | none => false
  | some _ => true

/-- Waits until the connector is idle, at most so long. -/
def callWaitIdle (p : Pipe P) (ms : Nat) : Pipe P × TaskId :=
  (p.spawn (.idling (p.now + ms) none), p.nextTask)

/-- Sends tablets whose references the caller hands over. On a closed connector they are dropped. -/
def callSend (p : Pipe P) (events : List EventRef) (payload : Bytes) : Pipe P × TaskId :=
  let (p, id) := p.newTask
  if p.connector.closed then
    ((p.dropAll events).setTask id (.ended (.sent (.error .closed)) p.now), id)
  else if events.isEmpty then (p.setTask id (.ended (.sent (.ok ())) p.now), id)
  else (p.submit id { events, payload, purpose := .call }, id)

/-- Releases what the connector holds of one pipe instance. -/
def discard (p : Pipe P) (pipe : String) (region : Int) : Pipe P × Nat :=
  let (connector, commons, n) := p.connector.discardPipe p.commons pipe region
  ({ p with connector, commons }, n)

def closeConnector (p : Pipe P) : Pipe P :=
  let (connector, commons) := p.connector.close p.commons
  { p with connector, commons }

def offer (p : Pipe P) (e : EventRef) : Pipe P × Bool :=
  let (queue, commons, accepted) := p.queue.offer p.commons e
  ({ p with queue, commons }, accepted)

def shutdownQueue (p : Pipe P) : Pipe P := { p with queue := p.queue.shutdown }

/-- A task holds the connector: a transfer, a retry of a tablet, or the worker. -/
def holdsConnector (t : Task) : Bool :=
  match t.process with
  | .transfer _ _ | .looking | .watching _ _ => true
  | .tablets send _ => send.purpose = .retry
  | _ => false

/-- Lets go of the connector, which closes unless a task still holds it. -/
def releaseConnector (p : Pipe P) : Pipe P :=
  if p.tasks.any holdsConnector then p else p.closeConnector

variable [Batch.Payload P]

def callDispatch (p : Pipe P) (e : EventRef) : Pipe P × TaskId :=
  let (p, id) := p.newTask
  (p.dispatch id e false, id)

/-- Takes the next event from the queue and dispatches it. -/
def callStep (p : Pipe P) : Pipe P × Option (EventRef × TaskId) :=
  match p.queue.poll p.commons with
  | (queue, commons, none) => ({ p with queue, commons }, none)
  | (queue, commons, some e) =>
      let (p, id) := { p with queue, commons }.callDispatch e
      (p, some (e, id))

end Pipe
end Courier
