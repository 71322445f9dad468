import Courier.Commons
import Courier.Transfer.Attempt
import Courier.Transfer.BufferPool

/-!
The connector of a pipe: the files it has taken on, by commit id, the events that wait to be tried
again, and the counts and gauges on them. Every file taken on occupies a slot until it leaves the
buffer. Requests and tasks are not its concern; they belong to the running pipe.
-/

namespace Courier

open Transfer (Attempt BufferPool RetryPolicy StatusPolicy TransferError)

inductive ConnectorError
  | closed
  | transfer (error : TransferError)
  deriving DecidableEq, Repr

def ConnectorError.message : ConnectorError → String
  | .closed => "connector is closed"
  | .transfer error => error.message

/-- An event that may be tried again from `readyAt` on. -/
structure RetryEntry where
  event : EventRef
  readyAt : Nat
  deriving DecidableEq, Repr

structure Connector where
  id : String
  settings : Transfer.Settings
  statusPolicy : StatusPolicy := .tolerateConflicts
  retryPolicy : RetryPolicy := .transientFailures
  buffers : BufferPool
  buffer : List (CommitId × EventRef) := []
  retryQueue : List RetryEntry := []
  stats : Metrics.TransferStats := {}
  retryingGauge : Nat := 0
  inFlightGauge : Nat := 0
  /-- Transfers, tablet retries and looks into the retry queue under way. -/
  tasks : Nat := 0
  /-- Times at which those who wait for idleness were told to look again. -/
  changes : Nat := 0
  closed : Bool := false

namespace Connector

def create (id : String) (settings : Transfer.Settings) : Connector :=
  { id, settings, buffers := .ofSize settings.maxClients settings.readBufferBytes }

/-- Nothing buffered, waiting to be tried again or under way. -/
def isIdle (c : Connector) : Bool := c.tasks == 0 && c.retryQueue.isEmpty && c.buffer.isEmpty

def withBuffer (c : Connector) (buffer : List (CommitId × EventRef)) : Connector :=
  { c with buffer := buffer, inFlightGauge := buffer.length }

def withRetryQueue (c : Connector) (queue : List RetryEntry) : Connector :=
  { c with retryQueue := queue, retryingGauge := queue.length }

def buffered? (c : Connector) (commit : CommitId) : Option EventRef := c.buffer.lookup commit

def announce (c : Connector) : Connector := { c with changes := c.changes + 1 }

def startTask (c : Connector) : Connector := { c with tasks := c.tasks + 1 }

def endTask (c : Connector) : Connector := { c with tasks := c.tasks - 1 }.announce

/-- Takes a file on: a reference, a place in the buffer and a slot. Nothing is taken when the event
was released or its commit id is taken already. The answer is the attempt to start. -/
def takeOn (c : Connector) (commons : Commons) (e : EventRef) :
    Connector × Commons × Except ConnectorError (Option Attempt) :=
  if c.closed then (c, commons, .error .closed)
  else
    match Attempt.prepare e c.settings commons.now with
    | .error error => (c, commons, .error (.transfer error))
    | .ok attempt =>
        match commons.hold e with
        | (commons, false) => (c, commons, .ok none)
        | (commons, true) =>
            if (c.buffered? e.event.commit).isSome then (c, (commons.drop e).1, .ok none)
            else
              (c.withBuffer (c.buffer ++ [(e.event.commit, e)]),
                { commons with slots := commons.slots.acquire }.resetRetry e
                  c.settings.initialRetryMs,
                .ok (some attempt))

/-- Takes a finished file out of the buffer, if it is the one that is there. -/
def remove (c : Connector) (commons : Commons) (e : EventRef) : Connector × Commons × Bool :=
  match c.buffered? e.event.commit with
  | some found =>
      if found.id = e.id then
        ((c.withBuffer (c.buffer.filter fun entry => entry.1 != e.event.commit)).announce,
          { commons with slots := commons.slots.release }, true)
      else (c.withBuffer c.buffer, commons, false)
  | none => (c.withBuffer c.buffer, commons, false)

/-- Puts a failed event into the retry queue, unless it is released or the connector closed. -/
def addFailure (c : Connector) (commons : Commons) (e : EventRef) : Connector × Commons :=
  if c.closed then (c, (commons.clear e).1)
  else if commons.isReleased e then (c, commons)
  else
    let entry := { event := e, readyAt := commons.now + commons.ledger.retryMs e.id }
    (c.withRetryQueue (c.retryQueue ++ [entry]), commons)

/-- Takes the entries whose time has come out of the queue, in commit order. -/
def takeDue (c : Connector) (now : Nat) : Connector × List EventRef :=
  let due := (c.retryQueue.filter fun entry => entry.readyAt ≤ now).map (·.event)
  (c.withRetryQueue (c.retryQueue.filter fun entry => !(entry.readyAt ≤ now : Bool)),
    due.mergeSort fun a b => a.event.commit.le b.event.commit)

def nextReady (c : Connector) : Option Nat := (c.retryQueue.map (·.readyAt)).min?

def releaseSlots (slots : Slots) : Nat → Slots
  | 0 => slots
  | n + 1 => releaseSlots slots.release n

/-- Releases what is queued or buffered for one pipe instance; returns how many events that
released. What is under way goes on. -/
def discardPipe (c : Connector) (commons : Commons) (pipe : String) (region : Int) :
    Connector × Commons × Nat :=
  let mine (e : EventRef) : Bool := e.belongsTo pipe region
  let queued := (c.retryQueue.filter fun entry => mine entry.event).map (·.event)
  let buffered := (c.buffer.filter fun entry => mine entry.2).map (·.2)
  let (ledger, fromQueue) := commons.ledger.clearCounting queued
  let (ledger, fromBuffer) := ledger.clearCounting buffered
  let c := c.withRetryQueue (c.retryQueue.filter fun entry => !mine entry.event)
  let c := c.withBuffer (c.buffer.filter fun entry => !mine entry.2)
  (c.announce,
    { commons with ledger, slots := releaseSlots commons.slots buffered.length },
    fromQueue + fromBuffer)

/-- Releases everything and accepts no more, once. -/
def close (c : Connector) (commons : Commons) : Connector × Commons :=
  if c.closed then (c, commons)
  else
    let events := c.retryQueue.map (·.event) ++ c.buffer.map (·.2)
    let commons := commons.clearAll events
    ((({ c with closed := true }.withRetryQueue []).withBuffer []).announce,
      { commons with slots := releaseSlots commons.slots c.buffer.length })

end Connector
end Courier
