import Courier.Word

/-!
A pool of read buffers. A buffer is its capacity: what it held is forgotten when it is handed out
again. The pool keeps at least one buffer and none that is too small.
-/

namespace Courier
namespace Transfer

structure BufferPool where
  limit : Nat
  bufferCapacity : Nat
  free : List Nat := []
  hits : Nat := 0
  misses : Nat := 0
  drops : Nat := 0
  deriving DecidableEq, Repr

namespace BufferPool

def ofSize (size bufferCapacity : Nat) : BufferPool :=
  { limit := max size 1, bufferCapacity := bufferCapacity }

/-- The buffer returned first, or a new one. -/
def get (p : BufferPool) : BufferPool × Nat :=
  match p.free with
  | capacity :: rest => ({ p with free := rest, hits := Word.add p.hits 1 }, capacity)
  | [] => ({ p with misses := Word.add p.misses 1 }, p.bufferCapacity)

def put (p : BufferPool) (capacity : Nat) : BufferPool :=
  if capacity < p.bufferCapacity || p.limit ≤ p.free.length then
    { p with drops := Word.add p.drops 1 }
  else { p with free := p.free ++ [capacity] }

def available (p : BufferPool) : Nat := p.free.length

end BufferPool
end Transfer
end Courier
