import Courier.Event.Ledger
import Courier.Transfer.Attempt
import Courier.Transfer.BufferPool
import Courier.Transfer.Peer

/-!
An attempt on its own: nothing else runs while it exchanges requests with a peer, so its run is a
sequence of requests and answers. The clock moves only while an answer is awaited. Around the
exchange stands what every attempt owes: a reference on the event while it lasts, a buffer that goes
back, and a longer pause after a failure that calls for one.
-/

namespace Courier
namespace Transfer

structure Trial where
  now : Nat := 0
  disk : Disk
  peer : Peer
  ledger : Ledger := {}
  buffers : BufferPool := .ofSize 1 0
  stats : Metrics.TransferStats := {}
  /-- Requests and when they were made, newest first. -/
  requests : List (Nat × Request) := []
  /-- What the status policy was asked, newest first. -/
  judgements : List Judgement := []

namespace Trial

/-- Makes a request and waits for what comes of it. -/
def exchange (t : Trial) (request : Request) (timeoutMs : Nat) :
    Trial × Except ClientError Response :=
  let (x, peer) := Exchange.send t.peer request t.now timeoutMs
  let t := { t with requests := (t.now, request) :: t.requests }
  match x.look peer t.disk x.wakeAt with
  | (peer, disk, .done result) => ({ t with peer, disk, now := x.wakeAt }, result)
  | (peer, disk, .pending x) =>
      ({ t with peer, disk, now := x.deadline }, .error (.timeout (.ofMillis timeoutMs)))

/-- Takes in an answer; what is left to do, if anything. -/
def receive (t : Trial) (a : Attempt) (policy : StatusPolicy) (sentAt : Nat) (sent : Sent)
    (r : Response) : Trial × Except TransferError (Option Stage) :=
  let verdict := a.receive policy t.stats (.ofMillis (t.now - sentAt)) sent r
  ({ t with
      stats := verdict.stats
      judgements := verdict.judgement.toList ++ t.judgements },
    verdict.result)

/-- Makes the request of a stage and takes in its answer. -/
def advance (t : Trial) (a : Attempt) (policy : StatusPolicy) (stage : Stage) :
    Trial × Except TransferError (Option Stage) :=
  match a.next t.disk stage with
  | .error error => (t, .error error)
  | .ok (sent, request) =>
      match t.exchange request a.timeoutMs with
      | (t', .error error) => (t', .error (.client error))
      | (t', .ok r) => t'.receive a policy t.now sent r

/-- Goes on until the transfer is complete, fails, or has made so many requests. -/
def run : Nat → Attempt → StatusPolicy → Stage → Trial → Trial × Option (Except TransferError Unit)
  | 0, _, _, _, t => (t, none)
  | fuel + 1, a, policy, stage, t =>
      match t.advance a policy stage with
      | (t, .error error) => (t, some (.error error))
      | (t, .ok none) => (t, some (.ok ()))
      | (t, .ok (some stage)) => run fuel a policy stage t

/-- The whole attempt, of at most so many requests. -/
def start (fuel : Nat) (a : Attempt) (policy : StatusPolicy) (t : Trial) :
    Trial × Option (Except TransferError Unit) :=
  match a.start t.disk with
  | .error error => (t, some (.error error))
  | .ok stage => run fuel a policy stage t

/-- More requests than an attempt makes on a disk of any size this is used for. -/
def bound : Nat := 1000000000

inductive Ending
  | complete
  /-- It failed; the pause grows if the failure calls for it. -/
  | failed (error : TransferError) (increases : Bool)
  | unfinished

/-- What the end of an exchange means for the event. `buffered` says whether the event is still
where its reference is kept; only then does a complete transfer give the reference back. -/
def conclude (t : Trial) (a : Attempt) (retry : RetryPolicy) (buffered : Bool) :
    Option (Except TransferError Unit) → Trial × Ending
  | none => (t, .unfinished)
  | some (.ok ()) =>
      ({ t with
          ledger := if buffered then (t.ledger.drop a.event.id).1 else t.ledger
          stats := t.stats.recordSeal (.ofMillis (t.now - a.createdAt)) }, .complete)
  | some (.error error) =>
      let increases := retry.increases error
      ({ t with
          ledger := if increases then t.ledger.backOff a.event.id else t.ledger
          stats := t.stats.recordRetry }, .failed error increases)

/-- An attempt from the buffer it takes to the buffer it returns. `hold` says whether it takes a
reference of its own. Nothing happens for an event that cannot be transferred. -/
def attempt (fuel : Nat) (e : EventRef) (settings : Settings) (policy : StatusPolicy)
    (retry : RetryPolicy) (hold buffered : Bool) (t : Trial) :
    Trial × Except TransferError Ending :=
  match Attempt.prepare e settings t.now with
  | .error error => (t, .error error)
  | .ok a =>
      let (buffers, capacity) := t.buffers.get
      let ledger := if hold then (t.ledger.hold e.id).1 else t.ledger
      let (t, result) := start fuel a policy { t with buffers, ledger }
      let (t, ending) := t.conclude a retry buffered result
      ({ t with buffers := t.buffers.put (max capacity a.bufferBytes) }, .ok ending)

end Trial
end Transfer
end Courier
