import Courier.Event

/-!
The two channels of a queue. Tablets and heartbeats are served in the order they came; files from
either end of their own channel, mostly the newest, every `period`-th time the oldest. Files are
served when nothing else waits, and after `threshold` retrievals in a row whatever waits.
-/

namespace Courier
namespace Queue

structure Channels where
  live : List EventRef := []
  bulk : List EventRef := []
  /-- Retrievals since the threshold last turned to the files. -/
  sinceBulk : Nat := 0
  bulkRetrievals : Nat := 0
  deriving DecidableEq, Repr

namespace Channels

def size (c : Channels) : Nat := c.live.length + c.bulk.length

def isEmpty (c : Channels) : Bool := c.live.isEmpty && c.bulk.isEmpty

/-- Everything queued, files last. -/
def toList (c : Channels) : List EventRef := c.live ++ c.bulk

def endsWithHeartbeat (c : Channels) : Bool :=
  match c.live.getLast? with
  | some last => last.event.isHeartbeat
  | none => false

/-- The event, unless it is a heartbeat right behind another one. -/
def push? (c : Channels) (e : EventRef) : Option Channels :=
  if e.event.isBulk then some { c with bulk := c.bulk ++ [e] }
  else if e.event.isHeartbeat && c.endsWithHeartbeat then none
  else some { c with live := c.live ++ [e] }

def popBulk (c : Channels) (period : Nat) : Channels × Option EventRef :=
  if c.bulk.isEmpty then (c, none)
  else
    let c := { c with bulkRetrievals := c.bulkRetrievals + 1 }
    if c.bulkRetrievals % period = 0 then ({ c with bulk := c.bulk.drop 1 }, c.bulk.head?)
    else ({ c with bulk := c.bulk.dropLast }, c.bulk.getLast?)

/-- Serves the live channel first, then the files if that is allowed. -/
def popOrdinary (c : Channels) (period : Nat) (bulkAllowed : Bool) :
    Channels × Option (EventRef × Bool) :=
  match c.live with
  | e :: rest => ({ c with live := rest, sinceBulk := c.sinceBulk + 1 }, some (e, false))
  | [] =>
      if bulkAllowed then
        match c.popBulk period with
        | (c, some e) => ({ c with sinceBulk := c.sinceBulk + 1 }, some (e, true))
        | (c, none) => (c, none)
      else (c, none)

/-- The next event, and whether it came from the files. -/
def pop (c : Channels) (threshold period : Nat) (bulkAllowed : Bool) :
    Channels × Option (EventRef × Bool) :=
  if threshold ≤ c.sinceBulk && bulkAllowed then
    match c.popBulk period with
    | (c, some e) => ({ c with sinceBulk := 0 }, some (e, true))
    | (c, none) => { c with sinceBulk := 0 }.popOrdinary period bulkAllowed
  else c.popOrdinary period bulkAllowed

/-- Takes out the events of one pipe instance. -/
def removePipe (c : Channels) (pipe : String) (region : Int) : Channels × List EventRef :=
  ({ c with
      live := c.live.filter fun e => !e.belongsTo pipe region
      bulk := c.bulk.filter fun e => !e.belongsTo pipe region },
    c.toList.filter fun e => e.belongsTo pipe region)

def peek? (c : Channels) : Option EventRef := c.toList.head?

end Channels
end Queue
end Courier
