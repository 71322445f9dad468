import Courier.Event
import Courier.Word

/-!
How many events of each kind are queued, and their estimated bytes.
-/

namespace Courier
namespace Queue

structure EventCounter where
  tablets : Nat := 0
  files : Nat := 0
  heartbeats : Nat := 0
  bytes : Nat := 0
  deriving DecidableEq, Repr

namespace EventCounter

def count (c : EventCounter) : Kind → Nat
  | .tablet => c.tablets
  | .file => c.files
  | .heartbeat => c.heartbeats

def onKind (c : EventCounter) (k : Kind) (f : Nat → Nat) : EventCounter :=
  match k with
  | .tablet => { c with tablets := f c.tablets }
  | .file => { c with files := f c.files }
  | .heartbeat => { c with heartbeats := f c.heartbeats }

def increase (c : EventCounter) (e : Event) : EventCounter :=
  { c.onKind e.kind (Word.add · 1) with bytes := Word.add c.bytes e.size }

def decrease (c : EventCounter) (e : Event) : EventCounter :=
  { c.onKind e.kind (· - 1) with bytes := c.bytes - e.size }

end EventCounter
end Queue
end Courier
