import Courier.Batch.Accumulator
import Courier.Connector
import Courier.Metrics.RateLog
import Courier.Queue.Retrieval
import Courier.Transfer.ClientPool
import Courier.Transfer.Peer

/-!
A running pipe: its queue, batch and connector, the clients and the peer behind them, and the tasks
under way. A task runs from one place where it waits to the next; what it waits for is in its state,
so whether it can go on is a question to the pipe. The trace keeps what the pipe did, newest first.
-/

namespace Courier

open Transfer

namespace Pipe

abbrev TaskId := Nat

/-- What a flush of the batch was made for. -/
inductive After
  /-- The event is dispatched; its offered reference can go. -/
  | dispatched (e : EventRef) (loop : Bool)
  /-- The tablets ahead of a file are sent; the file can start. -/
  | file (e : EventRef) (loop : Bool)
  /-- The batch was due although nothing was polled. -/
  | due
  | stop
  deriving DecidableEq, Repr

/-- On whose behalf tablets are sent. -/
inductive Purpose
  | retry
  | call
  | flush (after : After)
  deriving DecidableEq, Repr

/-- How far an exchange with the peer has come. -/
inductive Link (α : Type)
  | asking
  | waiting
  | exchanging (client : ClientId) (exchange : Exchange) (more : α)

/-- What a transfer keeps while its request is on the way. -/
structure Pending where
  buffer : Nat
  sent : Sent
  deriving DecidableEq, Repr

structure TabletSend where
  events : List EventRef
  payload : Bytes
  purpose : Purpose
  deriving DecidableEq, Repr

/-- What a call from outside came back with. -/
inductive Answer
  | nothing
  | idle (isIdle : Bool)
  | sent (result : Except ConnectorError Unit)

inductive Process
  | transfer (a : Attempt) (link : Link Pending)
  | tablets (t : TabletSend) (link : Link Unit)
  | looking
  /-- The worker, until an entry is ready or it is woken because one was added. -/
  | watching (next : Option Nat) (woken : Bool)
  | consuming
  | polling (w : Queue.Waiting)
  /-- The consumer with a tablet that could not be encoded, before it offers it again. -/
  | pausing (e : EventRef) (until_ : Nat)
  /-- A call that waits until the connector is idle, and the changes it has seen. -/
  | idling (deadline : Nat) (seen : Option Nat)
  | ended (answer : Answer) (at_ : Nat)

structure Task where
  id : TaskId
  process : Process

inductive Occurrence
  | requested (at_ : Nat) (request : Request)
  /-- What came of a request: an answer, or none. -/
  | answered (request : Request) (result : Except ClientError Response)
  /-- A request was accepted, or its refusal tolerated. -/
  | accepted (request : Request)
  | judged (judgement : Judgement)
  | failed (error : TransferError) (increases : Bool)
  /-- The batch will never take the event. -/
  | refused (e : EventRef) (error : Batch.BatchError)
  /-- An event entered the retry queue. -/
  | queued (e : EventRef)
  /-- The worker took an event up again. -/
  | resubmitted (e : EventRef)

/-- Before a tablet that could not be encoded is offered again, in milliseconds. -/
def constructRetryMs : Nat := 100

end Pipe

open Pipe in
structure Pipe (P : Type) where
  commons : Commons
  queue : Queue.Realtime
  batch : Batch.Accumulator P
  connector : Connector
  clients : Transfer.ClientPool
  disk : Disk
  peer : Transfer.Peer
  /-- A tablet that waits to be offered to the batch again. -/
  pending : Option EventRef := none
  failures : Metrics.RateLog := {}
  /-- Tasks in the order in which they last began to wait. -/
  tasks : List Task := []
  nextTask : TaskId := 0
  /-- The worker that was started last, unless it was stopped. -/
  worker : Option TaskId := none
  /-- The consumer that was started last, unless its end was awaited. -/
  consumer : Option TaskId := none
  /-- Workers and consumers that were told to stop. -/
  cancelled : List TaskId := []
  /-- An entry was added to the retry queue when no worker waited for one. -/
  retryAdded : Bool := false
  trace : List Occurrence := []

namespace Pipe

variable {P : Type}

def now (p : Pipe P) : Nat := p.commons.now

def note (p : Pipe P) (o : Occurrence) : Pipe P := { p with trace := o :: p.trace }

def noteJudgement (p : Pipe P) : Option Judgement → Pipe P
  | some judgement => p.note (.judged judgement)
  | none => p

def countFailure (p : Pipe P) : Pipe P :=
  { p with failures := (p.failures.record (.ofMillis p.now)).1 }

def task? (p : Pipe P) (id : TaskId) : Option Process :=
  (p.tasks.find? fun t => t.id == id).map (·.process)

/-- The task begins to wait, behind those that already do. -/
def setTask (p : Pipe P) (id : TaskId) (process : Process) : Pipe P :=
  { p with tasks := (p.tasks.filter fun t => t.id != id) ++ [⟨id, process⟩] }

def removeTask (p : Pipe P) (id : TaskId) : Pipe P :=
  { p with tasks := p.tasks.filter fun t => t.id != id }

def isCancelled (p : Pipe P) (id : TaskId) : Bool := p.cancelled.contains id

def cancel (p : Pipe P) : Option TaskId → Pipe P
  | some id => { p with cancelled := id :: p.cancelled }
  | none => p

def newTask (p : Pipe P) : Pipe P × TaskId := ({ p with nextTask := p.nextTask + 1 }, p.nextTask)

/-- Starts a task; its id is `nextTask`. -/
def spawn (p : Pipe P) (process : Process) : Pipe P :=
  { p with tasks := p.tasks ++ [⟨p.nextTask, process⟩], nextTask := p.nextTask + 1 }

/-- Ends a task that the connector counts. -/
def finishTask (p : Pipe P) (id : TaskId) : Pipe P :=
  { p.removeTask id with connector := p.connector.endTask }

def takeOn (p : Pipe P) (e : EventRef) : Pipe P × Except ConnectorError (Option Attempt) :=
  let (connector, commons, result) := p.connector.takeOn p.commons e
  ({ p with connector, commons }, result)

def drop (p : Pipe P) (e : EventRef) : Pipe P := { p with commons := (p.commons.drop e).1 }

def dropAll (p : Pipe P) (events : List EventRef) : Pipe P :=
  { p with commons := p.commons.dropAll events }

def Task.isWatching (t : Task) : Bool :=
  match t.process with
  | .watching _ false => true
  | _ => false

def Task.wake (t : Task) : Task :=
  match t.process with
  | .watching next _ => { t with process := .watching next true }
  | _ => t

/-- Wakes the worker that has waited longest for an entry. Without one the next that comes to wait
finds the wake-up. -/
def wakeWorker (p : Pipe P) : Pipe P :=
  match p.tasks.find? Task.isWatching with
  | some found =>
      { p with tasks := p.tasks.map fun t => if t.id = found.id then t.wake else t }
  | none => { p with retryAdded := true }

def addFailure (p : Pipe P) (e : EventRef) : Pipe P :=
  let (connector, commons) := p.connector.addFailure p.commons e
  let p' := { p with connector, commons }
  if p.connector.retryQueue.length < connector.retryQueue.length then
    (p'.note (.queued e)).wakeWorker
  else p'

def remove (p : Pipe P) (e : EventRef) : Pipe P × Bool :=
  let (connector, commons, removed) := p.connector.remove p.commons e
  ({ p with connector, commons }, removed)

/-- Hands an event to the retry queue, with a longer pause if the failure calls for it. -/
def fail (p : Pipe P) (increases : Bool) (e : EventRef) : Pipe P :=
  (if increases then { p with commons := p.commons.backOff e } else p).addFailure e

def send (p : Pipe P) (request : Request) : Pipe P × Exchange :=
  let (exchange, peer) := Exchange.send p.peer request p.now p.connector.settings.requestTimeoutMs
  ({ p with peer }.note (.requested p.now request), exchange)

end Pipe
end Courier
