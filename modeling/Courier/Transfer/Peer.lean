import Courier.Disk
import Courier.Transfer.Receiver

/-!
A peer whose behaviour is written down in advance. For every key it has a list of outcomes, used up
one per request; then those under the common key, then one that never runs out. An outcome may take
its time, may change source files first, and then answers, fails, stays silent or passes the request
on to a receiver, which has a directory of its own or one beside the source files.
-/

namespace Courier
namespace Transfer

inductive Reaction
  | answer (r : Response)
  | failure (e : ClientError)
  | silence
  | pass
  deriving DecidableEq, Repr

structure Outcome where
  reaction : Reaction
  delayMs : Nat := 0
  writes : List (String × Bytes) := []
  removals : List String := []
  deriving DecidableEq, Repr

structure Peer where
  script : List (String × List Outcome) := []
  fallback : Reaction := .answer .success
  receiver : Receiver := {}
  /-- Where the receiver's directory lies, if it is on the disk that holds the source files. -/
  place : Option (List String) := none
  deriving Repr

namespace Peer

/-- The key under which outcomes for any request are listed. -/
def commonKey : String := "*"

/-- A piece is answered under the name of its file, a seal under that of the data file. -/
def keyOf : Request → String
  | .piece p => p.file
  | .seal s => s.data.name
  | .tablets _ => "batch"

/-- Takes the next outcome from the list under a key. -/
def drawFrom? (p : Peer) (key : String) : Option (Outcome × Peer) :=
  match p.script.lookup key with
  | some (outcome :: rest) =>
      some (outcome,
        { p with script := p.script.map fun row => if row.1 = key then (key, rest) else row })
  | _ => none

def draw (p : Peer) (key : String) : Outcome × Peer :=
  match p.drawFrom? key with
  | some drawn => drawn
  | none =>
      match p.drawFrom? commonKey with
      | some drawn => drawn
      | none => ({ reaction := p.fallback }, p)

def pass (p : Peer) (d : Disk) (request : Request) : Peer × Disk × Except ClientError Response :=
  match p.place with
  | none =>
      let (receiver, result) := p.receiver.receive request
      ({ p with receiver }, d, result)
  | some place =>
      let (receiver, result) := (p.receiver.readFrom d place).receive request
      ({ p with receiver }, receiver.writeTo d place, result)

def conclude (p : Peer) (d : Disk) (request : Request) (reaction : Reaction) :
    Peer × Disk × Option (Except ClientError Response) :=
  match reaction with
  | .answer r => (p, d, some (.ok r))
  | .failure e => (p, d, some (.error e))
  | .silence => (p, d, none)
  | .pass =>
      let (p, d, result) := p.pass d request
      (p, d, some result)

end Peer

/-- The changes an outcome makes to the source files. -/
def Outcome.applyTo (o : Outcome) (d : Disk) : Disk :=
  o.removals.foldl Disk.remove (o.writes.foldl (fun d w => d.write w.1 w.2) d)

structure Exchange where
  request : Request
  outcome : Outcome
  sentAt : Nat
  deadline : Nat
  /-- The outcome has come about. -/
  settled : Bool := false
  deriving Repr

namespace Exchange

def dueAt (x : Exchange) : Nat := x.sentAt + x.outcome.delayMs

/-- When something happens to the exchange next. -/
def wakeAt (x : Exchange) : Nat := if x.settled then x.deadline else min x.dueAt x.deadline

/-- Sends a request: the peer decides what will become of it. -/
def send (p : Peer) (request : Request) (now timeoutMs : Nat) : Exchange × Peer :=
  let (outcome, p) := p.draw (Peer.keyOf request)
  ({ request, outcome, sentAt := now, deadline := now + timeoutMs }, p)

inductive Progress
  | pending (x : Exchange)
  | done (result : Except ClientError Response)

/-- Looks at an exchange. An answer that comes at the very moment of the deadline counts. -/
def look (x : Exchange) (p : Peer) (d : Disk) (now : Nat) : Peer × Disk × Progress :=
  let expire (x : Exchange) : Progress :=
    if x.deadline ≤ now then .done (.error (.timeout (.ofMillis (x.deadline - x.sentAt))))
    else .pending x
  if !x.settled && x.dueAt ≤ now && x.dueAt ≤ x.deadline then
    let d := x.outcome.applyTo d
    match p.conclude d x.request x.outcome.reaction with
    | (p, d, some result) => (p, d, .done result)
    | (p, d, none) => (p, d, expire { x with settled := true })
  else (p, d, expire x)

end Exchange
end Transfer
end Courier
