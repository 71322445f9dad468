import Courier.Duration
import Courier.Event.Ledger
import Courier.Memory.Context
import Courier.Slots

/-!
What the stages of a pipe share: the clock, the ledger of references, the memory of the process and
the slots for files in flight. Time is virtual, in milliseconds.
-/

namespace Courier

structure Commons where
  now : Nat := 0
  ledger : Ledger := {}
  memory : Memory.Context := .ofSettings {}
  slots : Slots := {}

namespace Commons

def hold (c : Commons) (e : EventRef) : Commons × Bool :=
  let r := c.ledger.hold e.id
  ({ c with ledger := r.1 }, r.2)

def drop (c : Commons) (e : EventRef) : Commons × Bool :=
  let r := c.ledger.drop e.id
  ({ c with ledger := r.1 }, r.2)

def clear (c : Commons) (e : EventRef) : Commons × Bool :=
  let r := c.ledger.clear e.id
  ({ c with ledger := r.1 }, r.2)

def dropAll (c : Commons) (events : List EventRef) : Commons :=
  { c with ledger := c.ledger.dropAll events }

def clearAll (c : Commons) (events : List EventRef) : Commons :=
  { c with ledger := c.ledger.clearAll events }

def backOff (c : Commons) (e : EventRef) : Commons := { c with ledger := c.ledger.backOff e.id }

def resetRetry (c : Commons) (e : EventRef) (ms : Nat) : Commons :=
  { c with ledger := c.ledger.resetRetry e.id ms }

def isReleased (c : Commons) (e : EventRef) : Bool := c.ledger.isReleased e.id

def elapsed (c : Commons) (since : Nat) : Duration := .ofMillis (c.now - since)

end Commons
end Courier
