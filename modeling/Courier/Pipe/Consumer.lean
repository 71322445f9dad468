import Courier.Pipe.Requests

/-!
The consumer of a pipe: it takes events from the queue and dispatches each. A tablet goes into the
batch; a file starts once the batch ahead of it is sent; a heartbeat sends the batch if it is due.
A tablet that cannot be encoded now is offered again, after a pause, before anything newer.
-/

namespace Courier

open Transfer

namespace Pipe

variable {P : Type}

/-- What a task of the consumer does after a dispatch: the next round, or back to the caller. -/
def afterDispatch (p : Pipe P) (id : TaskId) (loop : Bool) : Pipe P :=
  p.setTask id (if loop then .consuming else .ended .nothing p.now)

def transferFile (p : Pipe P) (e : EventRef) : Pipe P × Except ConnectorError Bool :=
  match p.takeOn e with
  | (p, .error error) => (p, .error error)
  | (p, .ok none) => (p, .ok false)
  | (p, .ok (some attempt)) =>
      let p := { p with connector := p.connector.startTask }
      (p.spawn (.transfer attempt .asking), .ok true)

def afterFlush (p : Pipe P) (id : TaskId) : After → Pipe P
  | .dispatched e loop => (p.drop e).afterDispatch id loop
  | .file e loop =>
      match p.transferFile e with
      | (p, .ok _) => (p.drop e).afterDispatch id loop
      | (p, .error _) => (p.countFailure.drop e).afterDispatch id loop
  | .due => p.setTask id .consuming
  | .stop => p.removeTask id

/-- Sends a batch of tablets for somebody. Their pauses start over. -/
def submit (p : Pipe P) (id : TaskId) (t : TabletSend) : Pipe P :=
  let ms := p.connector.settings.initialRetryMs
  let commons := t.events.foldl (fun c e => c.resetRetry e ms) p.commons
  { p with commons }.askForTablets id t

variable [Batch.Payload P]

/-- Sends what the batch holds, then goes on. -/
def flush (p : Pipe P) (id : TaskId) (after : After) : Pipe P :=
  let (batch, commons, emitted) := p.batch.take p.commons
  let p := { p with batch, commons }
  if emitted.events.isEmpty then p.afterFlush id after
  else if p.connector.closed then (p.dropAll emitted.events).countFailure.afterFlush id after
  else
    p.submit id { events := emitted.events, payload := emitted.payload, purpose := .flush after }

/-- Routes an event and drops the reference it came with. -/
def dispatch (p : Pipe P) (id : TaskId) (e : EventRef) (loop : Bool) : Pipe P :=
  match e.event.content with
  | .tablet _ =>
      let (batch, commons, result) := p.batch.onEvent p.commons e
      let p := { p with batch, commons }
      match result with
      | .ok true => p.flush id (.dispatched e loop)
      | .ok false => (p.drop e).afterDispatch id loop
      | .error error =>
          if error.isPermanent then
            ((p.note (.refused e error)).countFailure.drop e).afterDispatch id loop
          else { p.countFailure with pending := some e }.afterDispatch id loop
  | .file _ => p.flush id (.file e loop)
  | .heartbeat _ =>
      let (batch, commons, due) := p.batch.checkDue p.commons
      let p := { p with batch, commons }
      if due then p.flush id (.dispatched e loop) else (p.drop e).afterDispatch id loop

/-- Sends the batch if it is due although nothing came. -/
def flushIfDue (p : Pipe P) (id : TaskId) : Pipe P :=
  let (batch, commons, due) := p.batch.checkDue p.commons
  let p := { p with batch, commons }
  if due then p.flush id .due else p.setTask id .consuming

/-- Goes on with what a retrieval by the consumer came to. -/
def afterRetrieval (p : Pipe P) (id : TaskId) : Queue.Retrieval → Pipe P
  | .waiting w => p.setTask id (.polling w)
  | .done (some e) => p.dispatch id e true
  | .done none => if p.queue.isShutdown then p.flush id .stop else p.flushIfDue id

def consume (p : Pipe P) (id : TaskId) : Pipe P :=
  match p.pending with
  | some e =>
      if p.queue.isShutdown || p.isCancelled id then p.flush id .stop
      else { p with pending := none }.setTask id (.pausing e (p.now + constructRetryMs))
  | none =>
      if p.isCancelled id then p.flush id .stop
      else
        let (queue, commons, retrieval) :=
          p.queue.look p.commons (p.now + p.queue.settings.maxBlockingMs)
        { p with queue, commons }.afterRetrieval id retrieval

def runPolling (p : Pipe P) (id : TaskId) (w : Queue.Waiting) : Pipe P :=
  if p.isCancelled id then p.flush id .stop
  else
    let (queue, commons, retrieval) := p.queue.resume p.commons w
    { p with queue, commons }.afterRetrieval id retrieval

/-- A tablet in a pause goes back to its place when the consumer is cancelled. -/
def runPausing (p : Pipe P) (id : TaskId) (e : EventRef) : Pipe P :=
  if p.isCancelled id then { p with pending := some e }.flush id .stop
  else p.dispatch id e true

/-- Releases everything of one pipe instance in queue, batch and connector; returns how many events
that were. -/
def teardown (p : Pipe P) (pipe : String) (region : Int) : Pipe P × Nat :=
  let (queue, commons, queued) := p.queue.discardPipe p.commons pipe region
  let (pending, commons, waiting) :=
    match p.pending with
    | none => (none, commons, 0)
    | some e =>
        if e.belongsTo pipe region then
          let (commons, released) := commons.clear e
          (none, commons, if released then 1 else 0)
        else (some e, commons, 0)
  let (batch, commons, batched) := p.batch.discardPipe commons pipe region
  let (connector, commons, sent) := p.connector.discardPipe commons pipe region
  ({ p with queue, commons, pending, batch, connector }, queued + waiting + batched + sent)

/-- Shuts the queue down and releases everything that is still held. -/
def close (p : Pipe P) : Pipe P :=
  let queue := p.queue.shutdown
  let (queue, commons) := queue.discardAll p.commons
  let commons :=
    match p.pending with
    | some e => (commons.clear e).1
    | none => commons
  let (batch, commons) := p.batch.close commons
  let (connector, commons) := p.connector.close commons
  { p with queue, commons, batch, connector, pending := none }

end Pipe
end Courier
