import Courier.Queue.Realtime

/-!
Retrieval that waits. A waiting call remembers how many signals and freed slots it has seen; it
looks again when either number has grown, and gives up at its deadline or once the queue is shut
down. The numbers are read before the queue is polled, so that nothing that happens in between is
missed.
-/

namespace Courier
namespace Queue

structure Waiting where
  deadline : Nat
  signals : Nat
  freed : Nat
  deriving DecidableEq, Repr

inductive Retrieval
  | done (event : Option EventRef)
  | waiting (w : Waiting)
  deriving DecidableEq, Repr

namespace Realtime

/-- Looks for an event, on behalf of a call that waits until `deadline`. -/
def look (q : Realtime) (commons : Commons) (deadline : Nat) : Realtime × Commons × Retrieval :=
  if q.isShutdown then (q, commons, .done none)
  else
    match q.poll commons with
    | (q, commons, some e) => (q, commons, .done (some e))
    | (q, commons, none) =>
        (q, commons, .waiting { deadline, signals := q.signals, freed := commons.slots.freed })

/-- Something happened that may have made an event retrievable. -/
def hasNews (q : Realtime) (commons : Commons) (w : Waiting) : Bool :=
  w.signals != q.signals || w.freed != commons.slots.freed

def canResume (q : Realtime) (commons : Commons) (w : Waiting) : Bool :=
  q.hasNews commons w || w.deadline ≤ commons.now

/-- News are looked at even at the deadline. -/
def resume (q : Realtime) (commons : Commons) (w : Waiting) : Realtime × Commons × Retrieval :=
  if q.hasNews commons w then q.look commons w.deadline
  else if w.deadline ≤ commons.now then (q, commons, .done none)
  else (q, commons, .waiting w)

end Realtime
end Queue
end Courier
