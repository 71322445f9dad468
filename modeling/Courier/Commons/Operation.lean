import Courier.Commons
import Courier.Reply

/-!
Operations on what the stages of a pipe share: what holders of events do to their references and
pauses, what users of slots do, and the passing of time. The last two of those on an event are
questions and change nothing.
-/

namespace Courier
namespace Commons

inductive Operation
  | hold (e : EventRef)
  | drop (e : EventRef)
  | clear (e : EventRef)
  | backOff (e : EventRef)
  | resetRetry (e : EventRef) (ms : Nat)
  | belongs (e : EventRef) (pipe : String) (region : Int)
  | describe (e : EventRef)
  | acquire
  | release
  | pass (ms : Nat)
  deriving DecidableEq, Repr

def perform {E : Type} (c : Commons) : Operation → Commons × Reply E
  | .hold e => ((c.hold e).1, .flag (c.hold e).2)
  | .drop e => ((c.drop e).1, .flag (c.drop e).2)
  | .clear e => ((c.clear e).1, .flag (c.clear e).2)
  | .backOff e => (c.backOff e, .pause ((c.backOff e).ledger.retryMs e.id))
  | .resetRetry e ms => (c.resetRetry e ms, .done)
  | .belongs e pipe region => (c, .flag (e.belongsTo pipe region))
  | .describe e => (c, .text (c.ledger.describe e))
  | .acquire => ({ c with slots := c.slots.acquire }, .done)
  | .release => ({ c with slots := c.slots.release }, .done)
  | .pass ms => ({ c with now := c.now + ms }, .done)

end Commons
end Courier
