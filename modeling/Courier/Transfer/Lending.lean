import Courier.Transfer.ClientPool

/-!
Clients on loan. Borrowers are known by name, and each keeps at most one client: what it had before
goes back when it gets another. Who waits for a client gives up at its deadline; others bring theirs
back at given moments meanwhile.
-/

namespace Courier
namespace Transfer

structure Lending where
  pool : ClientPool
  lent : List (String × ClientId) := []
  now : Nat := 0
  nextTicket : Ticket := 0
  deriving DecidableEq, Repr

namespace Lending

def giveBack (l : Lending) (borrower : String) : Lending × Bool :=
  match l.lent.lookup borrower with
  | none => (l, false)
  | some client =>
      ({ l with
          lent := l.lent.filter fun row => row.1 != borrower
          pool := l.pool.giveBack client }, true)

def keep (l : Lending) (borrower : String) (client : ClientId) : Lending :=
  let l := (l.giveBack borrower).1
  { l with lent := l.lent ++ [(borrower, client)] }

/-- Lends a free client, without waiting for one. -/
def lend? (l : Lending) (borrower : String) : Lending × Option ClientId :=
  match l.pool.take? with
  | (pool, none) => ({ l with pool }, none)
  | (pool, some client) => ({ l with pool }.keep borrower client, some client)

structure Waiting where
  lending : Lending
  borrower : String
  ticket : Ticket
  deadline : Nat
  result : Option (Option ClientId × Nat) := none

namespace Waiting

/-- Asks for a client, and keeps it from that moment on. -/
def ask (w : Waiting) : Waiting :=
  match w.lending.pool.ask w.ticket with
  | (pool, none) => { w with lending := { w.lending with pool } }
  | (pool, some client) =>
      { w with
        lending := { w.lending with pool }.keep w.borrower client
        result := some (some client, w.lending.now) }

def giveUp (w : Waiting) : Waiting :=
  { w with
    lending := { w.lending with pool := w.lending.pool.abandon w.ticket }
    result := some (none, w.deadline) }

/-- Lets the clock run; who still waits when the deadline has passed gives up. -/
def runTo (w : Waiting) (moment : Nat) : Waiting :=
  let w := if w.result.isNone && w.deadline < moment then w.giveUp else w
  { w with lending := { w.lending with now := max w.lending.now moment } }

/-- Somebody brings a client back. -/
def giveBackAt (w : Waiting) (moment : Nat) (borrower : String) : Waiting :=
  let w := w.runTo moment
  let w := { w with lending := (w.lending.giveBack borrower).1 }
  if w.result.isNone && w.lending.pool.isWoken w.ticket then w.ask else w

def finish (w : Waiting) : Waiting :=
  match w.result with
  | some _ => w
  | none => { w.giveUp with lending := { w.giveUp.lending with now := w.deadline } }

end Waiting

/-- Waits at most `ms` for a client while others bring theirs back, each a time from now. The second
answer is how long the wait was. -/
def borrow (l : Lending) (borrower : String) (ms : Nat) (returns : List (Nat × String)) :
    Lending × Option ClientId × Nat :=
  let w : Waiting := {
    lending := { l with nextTicket := l.nextTicket + 1 }
    borrower
    ticket := l.nextTicket
    deadline := l.now + ms }
  let w := returns.foldl (fun w (after, other) => w.giveBackAt (l.now + after) other) w.ask
  let w := w.finish
  match w.result with
  | some (client, moment) => (w.lending, client, moment - l.now)
  | none => (w.lending, none, 0)

end Lending
end Transfer
end Courier
