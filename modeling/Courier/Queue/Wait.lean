import Courier.Queue.Operation
import Courier.Queue.Retrieval

/-!
One retrieval that waits while others work on the queue at given moments. Between them the clock
runs on, and the call looks again as soon as it can; what it came back with and when is kept.
-/

namespace Courier
namespace Queue

structure Wait where
  queue : Realtime
  commons : Commons
  retrieval : Retrieval
  endedAt : Nat

namespace Wait

def start (q : Realtime) (commons : Commons) (ms : Nat) : Wait :=
  let (queue, commons', retrieval) := q.look commons (commons.now + ms)
  { queue, commons := commons', retrieval, endedAt := commons.now }

def result (w : Wait) : Option EventRef :=
  match w.retrieval with
  | .done e => e
  | .waiting _ => none

def setClock (w : Wait) (moment : Nat) : Wait :=
  { w with commons := { w.commons with now := max w.commons.now moment } }

/-- The call looks again if it can. -/
def settle (w : Wait) : Wait :=
  match w.retrieval with
  | .done _ => w
  | .waiting x =>
      if w.queue.canResume w.commons x then
        let (queue, commons, retrieval) := w.queue.resume w.commons x
        { queue, commons, retrieval, endedAt := commons.now }
      else w

/-- Lets the clock run to a moment; a deadline that lies before it ends the call on the way. -/
def runTo (w : Wait) (moment : Nat) : Wait :=
  match w.retrieval with
  | .waiting x =>
      if x.deadline < moment then (w.setClock x.deadline).settle.setClock moment
      else w.setClock moment
  | .done _ => w.setClock moment

def finish (w : Wait) : Wait :=
  match w.retrieval with
  | .waiting x => (w.setClock x.deadline).settle
  | .done _ => w

/-- Somebody performs an operation at a moment. -/
def performAt {E : Type} (w : Wait) (moment : Nat) (o : Operation) : Wait × Reply E :=
  let w := w.runTo moment
  let (queue, commons, reply) := w.queue.perform w.commons o
  ({ w with queue, commons }.settle, reply)

/-- Others perform operations, each a time after `start`. -/
def performAll {E : Type} (w : Wait) (start : Nat) : List (Nat × Operation) → Wait × List (Reply E)
  | [] => (w, [])
  | (after, o) :: rest =>
      let (w, reply) := w.performAt (start + after) o
      let (w, replies) := w.performAll start rest
      (w, reply :: replies)

end Wait

/-- A retrieval that waits at most `ms` while others work; it is over when all have finished. -/
def Realtime.waitDuring {E : Type} (q : Realtime) (commons : Commons) (ms : Nat)
    (others : List (Nat × Operation)) : Wait × List (Reply E) :=
  let (w, replies) := (Wait.start q commons ms).performAll commons.now others
  (w.finish, replies)

end Queue
end Courier
