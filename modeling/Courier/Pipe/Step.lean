import Courier.Pipe.Consumer

/-!
Steps of a running pipe. `run` takes one task from the place where it waits to the next; `canRun`
says whether what it waits for has come about, and `wakeAt` when time alone will bring it about.
The worker on the retry queue takes up what is due, files and tablets alike, in commit order.
-/

namespace Courier

open Transfer

namespace Pipe

variable {P : Type}

def resubmit (p : Pipe P) (e : EventRef) : Pipe P :=
  if p.commons.isReleased e then p
  else
    let p := p.note (.resubmitted e)
    match e.event.content with
    | .file _ =>
        match Attempt.prepare e p.connector.settings p.now with
        | .ok attempt =>
            { p with connector := p.connector.startTask }.spawn (.transfer attempt .asking)
        | .error _ =>
            match p.remove e with
            | (p, true) => p.drop e
            | (p, false) => p
    | .tablet _ =>
        match (Batch.PlainPayload.construct {} e.event) with
        | (payload, .ok true) =>
            let send : TabletSend := { events := [e], payload := payload.bytes, purpose := .retry }
            { p with connector := p.connector.startTask }.spawn (.tablets send .asking)
        | _ => p.drop e
    | .heartbeat _ => p.drop e

/-- Takes up everything that is due. The connector counts as busy meanwhile. -/
def resubmitDue (p : Pipe P) : Pipe P :=
  let (connector, due) := p.connector.startTask.takeDue p.now
  let p := due.foldl resubmit { p with connector }
  { p with connector := p.connector.endTask }

/-- A worker looks into the retry queue and waits for the next entry. What was added before it
looked needs no other look. -/
def runLooking (p : Pipe P) (id : TaskId) : Pipe P :=
  let p := p.resubmitDue
  { p with retryAdded := false }.setTask id (.watching p.connector.nextReady false)

/-- A worker that stops leaves its wake-up to another. -/
def runWatching (p : Pipe P) (id : TaskId) (woken : Bool) : Pipe P :=
  if p.isCancelled id then
    if woken then (p.removeTask id).wakeWorker else p.removeTask id
  else p.runLooking id

/-- A call that waits for idleness looks again. -/
def runIdling (p : Pipe P) (id : TaskId) (deadline : Nat) : Pipe P :=
  if p.connector.isIdle then p.setTask id (.ended (.idle true) p.now)
  else if deadline ≤ p.now then p.setTask id (.ended (.idle false) p.now)
  else p.setTask id (.idling deadline (some p.connector.changes))

/-- Ends a task whose tablets were sent, on whosever behalf it was. -/
def afterTablets (p : Pipe P) (id : TaskId) (purpose : Purpose)
    (result : Except TransferError Unit) : Pipe P :=
  match purpose with
  | .retry => p.finishTask id
  | .call => p.setTask id (.ended (.sent (result.mapError .transfer)) p.now)
  | .flush after =>
      match result with
      | .ok () => p.afterFlush id after
      | .error _ => p.countFailure.afterFlush id after

def runTablets (p : Pipe P) (id : TaskId) (t : TabletSend) : Link Unit → Pipe P
  | .asking | .waiting => p.askForTablets id t
  | .exchanging client exchange _ =>
      match p.look exchange with
      | (p, .pending exchange) => p.setTask id (.tablets t (.exchanging client exchange ()))
      | (p, .done result) =>
          let (p, result) := p.judgeTablets exchange result
          let p := { p with clients := p.clients.giveBack client }
          (p.settleTablets t result).afterTablets id t.purpose result

variable [Batch.Payload P]

def runProcess (p : Pipe P) (id : TaskId) : Process → Pipe P
  | .transfer a link => p.runTransfer id a link
  | .tablets t link => p.runTablets id t link
  | .looking => p.runLooking id
  | .watching _ woken => p.runWatching id woken
  | .consuming => p.consume id
  | .polling w => p.runPolling id w
  | .pausing e _ => p.runPausing id e
  | .idling deadline _ => p.runIdling id deadline
  | .ended _ _ => p

/-- Runs a task to the next place where it waits. -/
def run (p : Pipe P) (id : TaskId) : Pipe P :=
  match p.task? id with
  | some process => p.runProcess id process
  | none => p

omit [Batch.Payload P]

def linkCanRun {α : Type} (p : Pipe P) (id : TaskId) : Link α → Bool
  | .asking => true
  | .waiting => p.clients.isWoken id
  | .exchanging _ exchange _ => exchange.wakeAt ≤ p.now

def canRunProcess (p : Pipe P) (id : TaskId) : Process → Bool
  | .transfer _ link => p.linkCanRun id link
  | .tablets _ link => p.linkCanRun id link
  | .looking | .consuming => true
  | .watching next woken =>
      p.isCancelled id || woken ||
        match next with
        | some ready => ready ≤ p.now
        | none => false
  | .polling w => p.isCancelled id || p.queue.canResume p.commons w
  | .pausing _ until_ => p.isCancelled id || until_ ≤ p.now
  | .idling deadline seen => seen != some p.connector.changes || deadline ≤ p.now
  | .ended _ _ => false

def canRun (p : Pipe P) (t : Task) : Bool := p.canRunProcess t.id t.process

def linkWakeAt {α : Type} : Link α → Option Nat
  | .exchanging _ exchange _ => some exchange.wakeAt
  | _ => none

/-- When time alone lets the process go on. -/
def Process.wakeAt : Process → Option Nat
  | .transfer _ link => linkWakeAt link
  | .tablets _ link => linkWakeAt link
  | .watching next _ => next
  | .polling w => some w.deadline
  | .pausing _ until_ => some until_
  | .idling deadline _ => some deadline
  | _ => none

/-- The earliest moment at which time alone lets a task go on. -/
def nextWake (p : Pipe P) : Option Nat := (p.tasks.filterMap fun t => t.process.wakeAt).min?

def isQuiet (p : Pipe P) : Bool := p.tasks.all fun t => !p.canRun t

def setClock (p : Pipe P) (now : Nat) : Pipe P :=
  { p with commons := { p.commons with now } }

end Pipe
end Courier
