import Courier.Word

/-!
The memory budget of the process. Blocks are granted from it for one of two pools; what a block
uses is counted apart from what it was granted and may exceed it. A refused grant returns a cause
and no new state.
-/

namespace Courier
namespace Memory

inductive Pool
  | batch
  | queue
  deriving DecidableEq, Repr

def Pool.name : Pool → String
  | .batch => "batch"
  | .queue => "queue"

inductive MemoryError
  | insufficient (pool : Pool) (requested available : Nat)
  | closed (pool : Pool)
  deriving DecidableEq, Repr

def MemoryError.message : MemoryError → String
  | .insufficient pool requested available =>
      "insufficient memory in " ++ pool.name ++ " pool: requested " ++ toString requested ++
        " bytes, " ++ toString available ++ " available"
  | .closed pool => "memory block in " ++ pool.name ++ " pool is closed"

def MemoryError.pool : MemoryError → Pool
  | .insufficient pool _ _ | .closed pool => pool

/-- Bytes granted to the blocks of a pool, and bytes that they report in use. -/
structure PoolUse where
  allocated : Nat := 0
  used : Nat := 0
  deriving DecidableEq, Repr

structure Manager where
  total : Nat
  allocated : Nat := 0
  batch : PoolUse := {}
  queue : PoolUse := {}
  deriving DecidableEq, Repr

namespace Manager

def available (m : Manager) : Nat := m.total - m.allocated

def pool (m : Manager) : Pool → PoolUse
  | .batch => m.batch
  | .queue => m.queue

def onPool (m : Manager) (p : Pool) (f : PoolUse → PoolUse) : Manager :=
  match p with
  | .batch => { m with batch := f m.batch }
  | .queue => { m with queue := f m.queue }

/-- Grants nothing beyond the total. Nothing is always granted. -/
def reserve (m : Manager) (p : Pool) (bytes : Nat) : Except MemoryError Manager :=
  if bytes = 0 then .ok m
  else if m.allocated + bytes ≤ m.total then
    .ok ({ m with allocated := m.allocated + bytes }.onPool p
      fun u => { u with allocated := u.allocated + bytes })
  else .error (.insufficient p bytes m.available)

def release (m : Manager) (p : Pool) (bytes : Nat) : Manager :=
  { m with allocated := m.allocated - bytes }.onPool p
    fun u => { u with allocated := u.allocated - bytes }

def addUsed (m : Manager) (p : Pool) (bytes : Nat) : Manager :=
  m.onPool p fun u => { u with used := Word.add u.used bytes }

def reduceUsed (m : Manager) (p : Pool) (bytes : Nat) : Manager :=
  m.onPool p fun u => { u with used := u.used - bytes }

end Manager

/-- A grant to one holder. -/
structure Block where
  pool : Pool
  size : Nat
  usage : Nat := 0
  closed : Bool := false
  deriving DecidableEq, Repr

namespace Manager

def allocate (m : Manager) (p : Pool) (bytes : Nat) : Except MemoryError (Manager × Block) :=
  (m.reserve p bytes).map fun m => (m, { pool := p, size := bytes })

end Manager

namespace Block

/-- A block that only counts usage. -/
def empty (p : Pool) : Block := { pool := p, size := 0 }

/-- A closed block counts nothing. -/
def addUsage (m : Manager) (b : Block) (bytes : Nat) : Manager × Block :=
  if b.closed then (m, b)
  else (m.addUsed b.pool bytes, { b with usage := Word.add b.usage bytes })

def reduceUsage (m : Manager) (b : Block) (bytes : Nat) : Manager × Block :=
  (m.reduceUsed b.pool (min b.usage bytes), { b with usage := b.usage - bytes })

def resize (m : Manager) (b : Block) (size : Nat) : Except MemoryError (Manager × Block) :=
  if b.closed then .error (.closed b.pool)
  else if b.size < size then
    (m.reserve b.pool (size - b.size)).map fun m => (m, { b with size := size })
  else .ok (m.release b.pool (b.size - size), { b with size := size })

/-- Gives back the grant and the usage, once. -/
def close (m : Manager) (b : Block) : Manager × Block :=
  if b.closed then (m, b)
  else ((m.release b.pool b.size).reduceUsed b.pool b.usage,
    { b with size := 0, usage := 0, closed := true })

end Block
end Memory
end Courier
