import Courier.Pipe.State

/-!
Requests of a running pipe. A transfer keeps its client and its buffer from its first request to its
last; a batch of tablets is one request. Whatever becomes of them, client and buffer go back.
-/

namespace Courier

open Transfer

namespace Pipe

variable {P : Type}

/-- A transfer that ended well gives back its reference, unless the event left the buffer before. -/
def completeTransfer (p : Pipe P) (a : Attempt) : Pipe P :=
  let (p, removed) := p.remove a.event
  let p := if removed then p.drop a.event else p
  { p with
    connector := { p.connector with
      stats := p.connector.stats.recordSeal (p.commons.elapsed a.createdAt) } }

def noteFailure (p : Pipe P) (error : TransferError) : Pipe P × Bool :=
  let increases := p.connector.retryPolicy.increases error
  (p.note (.failed error increases), increases)

def countRetry (p : Pipe P) : Pipe P :=
  { p with connector := { p.connector with stats := p.connector.stats.recordRetry } }

/-- A transfer that failed leaves its event, with its reference, to the retry queue. -/
def failTransfer (p : Pipe P) (a : Attempt) (error : TransferError) : Pipe P :=
  let (p, increases) := p.noteFailure error
  (p.fail increases a.event).countRetry

/-- Ends a transfer: buffer and client go back first. -/
def endTransfer (p : Pipe P) (id : TaskId) (a : Attempt) (client : ClientId) (buffer : Nat)
    (result : Except TransferError Unit) : Pipe P :=
  let p := { p with
    connector := { p.connector with buffers := p.connector.buffers.put buffer }
    clients := p.clients.giveBack client }
  let p :=
    match result with
    | .ok () => p.completeTransfer a
    | .error error => p.failTransfer a error
  p.finishTask id

/-- Makes the request that a stage of a transfer calls for. -/
def proceed (p : Pipe P) (id : TaskId) (a : Attempt) (client : ClientId) (buffer : Nat)
    (stage : Stage) : Pipe P :=
  match a.next p.disk stage with
  | .error error => p.endTransfer id a client buffer (.error error)
  | .ok (sent, request) =>
      let (p, exchange) := p.send request
      p.setTask id (.transfer a (.exchanging client exchange { buffer, sent }))

/-- Begins a transfer with the client it was lent. -/
def beginTransfer (p : Pipe P) (id : TaskId) (a : Attempt) (client : ClientId) : Pipe P :=
  let (buffers, capacity) := p.connector.buffers.get
  let buffer := max capacity a.bufferBytes
  let p := { p with connector := { p.connector with buffers } }
  match a.start p.disk with
  | .error error => p.endTransfer id a client buffer (.error error)
  | .ok stage => p.proceed id a client buffer stage

def askForTransfer (p : Pipe P) (id : TaskId) (a : Attempt) : Pipe P :=
  let (clients, client?) := p.clients.ask id
  let p := { p with clients }
  match client? with
  | some client => p.beginTransfer id a client
  | none => p.setTask id (.transfer a .waiting)

/-- Goes on with a transfer whose request was answered. -/
def answerTransfer (p : Pipe P) (id : TaskId) (a : Attempt) (client : ClientId) (pending : Pending)
    (exchange : Exchange) (response : Response) : Pipe P :=
  let verdict := a.receive p.connector.statusPolicy p.connector.stats
    (p.commons.elapsed exchange.sentAt) pending.sent response
  let p := { p with connector := { p.connector with stats := verdict.stats } }
  let p := p.noteJudgement verdict.judgement
  match verdict.result with
  | .error error => p.endTransfer id a client pending.buffer (.error error)
  | .ok stage? =>
      let p := if response.resetOffset.isSome then p else p.note (.accepted exchange.request)
      match stage? with
      | none => p.endTransfer id a client pending.buffer (.ok ())
      | some stage => p.proceed id a client pending.buffer stage

def look (p : Pipe P) (exchange : Exchange) : Pipe P × Exchange.Progress :=
  let (peer, disk, progress) := exchange.look p.peer p.disk p.now
  let p := { p with peer, disk }
  match progress with
  | .pending exchange => (p, .pending exchange)
  | .done result => (p.note (.answered exchange.request result), .done result)

def runTransfer (p : Pipe P) (id : TaskId) (a : Attempt) : Link Pending → Pipe P
  | .asking | .waiting => p.askForTransfer id a
  | .exchanging client exchange pending =>
      match p.look exchange with
      | (p, .pending exchange) => p.setTask id (.transfer a (.exchanging client exchange pending))
      | (p, .done (.error error)) =>
          p.endTransfer id a client pending.buffer (.error (.client error))
      | (p, .done (.ok response)) => p.answerTransfer id a client pending exchange response

/-- The request for a batch; it is scoped to the group of its first event. -/
def tabletRequest (p : Pipe P) (t : TabletSend) : Request :=
  .tablets {
    payload := t.payload
    count := t.events.length
    region := match t.events.head? with
      | some e => e.event.region
      | none => 0
    node := p.connector.settings.node }

/-- Asks for a client for a batch; with one the request is made at once. -/
def askForTablets (p : Pipe P) (id : TaskId) (t : TabletSend) : Pipe P :=
  let (clients, client?) := p.clients.ask id
  let p := { p with clients }
  match client? with
  | none => p.setTask id (.tablets t .waiting)
  | some client =>
      let (p, exchange) := p.send (p.tabletRequest t)
      p.setTask id (.tablets t (.exchanging client exchange ()))

/-- What the peer's answer to a batch comes to. -/
def judgeTablets (p : Pipe P) (exchange : Exchange) (result : Except ClientError Response) :
    Pipe P × Except TransferError Unit :=
  match result with
  | .error error => (p, .error (.client error))
  | .ok response =>
      let (judgement, verdict) := judge p.connector.statusPolicy exchange.request.name response
      let p := p.noteJudgement judgement
      match verdict with
      | .ok () => (p.note (.accepted exchange.request), .ok ())
      | .error error => (p, .error error)

/-- A batch that was taken gives back its references; one that was not leaves its events, with
their references, to the retry queue. -/
def settleTablets (p : Pipe P) (t : TabletSend) (result : Except TransferError Unit) : Pipe P :=
  match result with
  | .ok () =>
      { p with
        connector := { p.connector with
          stats := p.connector.stats.recordBatch t.events.length } }.dropAll t.events
  | .error error =>
      let (p, increases) := p.noteFailure error
      (t.events.foldl (fun p e => p.fail increases e) p).countRetry

end Pipe
end Courier
