import Courier.Commons.Operation
import Courier.Queue.Realtime

/-!
Operations on the queue of a pipe that do not wait. `perform` does one and answers; a history of
the queue is a list of them, those of its neighbours on the shared state included.
-/

namespace Courier
namespace Queue

inductive Operation
  | offer (e : EventRef)
  | poll
  | drain
  | peek
  | list
  | clear
  | discardAll
  | discard (pipe : String) (region : Int)
  | shutdown
  | shared (o : Commons.Operation)
  deriving DecidableEq, Repr

namespace Realtime

/-- Polls until nothing comes, at most so often. -/
def drainWithin : Nat → Realtime → Commons → Realtime × Commons × List EventRef
  | 0, q, commons => (q, commons, [])
  | fuel + 1, q, commons =>
      match q.poll commons with
      | (q, commons, none) => (q, commons, [])
      | (q, commons, some e) =>
          let (q, commons, rest) := drainWithin fuel q commons
          (q, commons, e :: rest)

/-- Every poll that returns an event leaves one less, and the last returns none. -/
def drain (q : Realtime) (commons : Commons) : Realtime × Commons × List EventRef :=
  drainWithin (q.channels.size + 1) q commons

def perform {E : Type} (q : Realtime) (commons : Commons) :
    Operation → Realtime × Commons × Reply E
  | .offer e =>
      let (q, commons, accepted) := q.offer commons e
      (q, commons, .flag accepted)
  | .poll =>
      let (q, commons, e) := q.poll commons
      (q, commons, .event e)
  | .drain =>
      let (q, commons, events) := q.drain commons
      (q, commons, .events events)
  | .peek => (q, commons, .event q.channels.peek?)
  | .list => (q, commons, .events q.channels.toList)
  | .clear =>
      let (q, commons, events) := q.clear commons
      (q, commons, .events events)
  | .discardAll =>
      let (q, commons) := q.discardAll commons
      (q, commons, .done)
  | .discard pipe region =>
      let (q, commons, n) := q.discardPipe commons pipe region
      (q, commons, .count n)
  | .shutdown => (q.shutdown, commons, .done)
  | .shared o =>
      let (commons, reply) := commons.perform o
      (q, commons, reply)

end Realtime
end Queue
end Courier
