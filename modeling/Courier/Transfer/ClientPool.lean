/-!
A fixed set of clients. Free clients are lent in the order in which they came back. Who finds none
waits; a client that comes back wakes the one who has waited longest, and when nobody waits it
leaves a permit that the next to come uses up. Those who were woken ask again, and may find that
somebody else was faster.
-/

namespace Courier
namespace Transfer

abbrev ClientId := Nat

/-- Names a waiting borrower. -/
abbrev Ticket := Nat

structure ClientPool where
  size : Nat
  free : List ClientId
  waiting : List Ticket := []
  woken : List Ticket := []
  permit : Bool := false
  deriving DecidableEq, Repr

namespace ClientPool

def ofClients (clients : List ClientId) : ClientPool :=
  { size := clients.length, free := clients }

def available (p : ClientPool) : Nat := p.free.length

/-- A free client, without waiting for one. -/
def take? (p : ClientPool) : ClientPool × Option ClientId :=
  match p.free with
  | c :: rest => ({ p with free := rest }, some c)
  | [] => (p, none)

/-- Asks for a client, for the first time or after having been woken. Without one the borrower
waits behind the others. -/
def ask (p : ClientPool) (t : Ticket) : ClientPool × Option ClientId :=
  let p := { p with permit := false, woken := p.woken.erase t }
  match p.free with
  | c :: rest => ({ p with free := rest }, some c)
  | [] => ({ p with waiting := p.waiting ++ [t] }, none)

/-- Wakes the first who waits, or leaves a permit. -/
def wakeOne (p : ClientPool) : ClientPool :=
  match p.waiting with
  | t :: rest => { p with waiting := rest, woken := p.woken ++ [t] }
  | [] => { p with permit := true }

/-- Puts a client among the free ones. There is room for as many as there are clients, and for one
where there are none. -/
def put? (p : ClientPool) (c : ClientId) : Option ClientPool :=
  if p.free.length < max p.size 1 then some { p with free := p.free ++ [c] } else none

/-- A client comes back, and somebody is told. Without room for it, it is lost. -/
def giveBack (p : ClientPool) (c : ClientId) : ClientPool :=
  match p.put? c with
  | some p => p.wakeOne
  | none => p

/-- A borrower gives up. If it had been woken, the wake-up goes to another. -/
def abandon (p : ClientPool) (t : Ticket) : ClientPool :=
  if p.woken.contains t then { p with woken := p.woken.erase t }.wakeOne
  else { p with waiting := p.waiting.erase t }

def isWoken (p : ClientPool) (t : Ticket) : Bool := p.woken.contains t

end ClientPool
end Transfer
end Courier
