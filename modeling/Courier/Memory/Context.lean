import Courier.Memory.Budget

/-!
The memory of a process: the manager, the blocks granted so far, and the batch budget, which is
allocated the first time it is asked for. Blocks are named by the order in which they were granted.
-/

namespace Courier
namespace Memory

structure Settings where
  totalBytes : Nat := 1073741824
  batchBudgetBytes : Nat := 67108864
  queueBudgetBytes : Nat := 67108864
  deriving DecidableEq, Repr

structure Context where
  manager : Manager
  batchBudgetBytes : Nat
  queueBudgetBytes : Nat
  blocks : List Block := []
  budget : Option Budget := none

namespace Context

def ofSettings (s : Settings) : Context where
  manager := { total := s.totalBytes }
  batchBudgetBytes := s.batchBudgetBytes
  queueBudgetBytes := s.queueBudgetBytes

def block? (c : Context) (id : Nat) : Option Block := c.blocks[id]?

def usageOf (c : Context) (id : Nat) : Nat :=
  match c.block? id with
  | some b => b.usage
  | none => 0

/-- The block's id is the number of blocks before. -/
def allocate (c : Context) (p : Pool) (bytes : Nat) : Except MemoryError Context :=
  (c.manager.allocate p bytes).map fun r => { c with manager := r.1, blocks := c.blocks ++ [r.2] }

def allocateEmpty (c : Context) (p : Pool) : Context :=
  { c with blocks := c.blocks ++ [Block.empty p] }

/-- A block for one queue, empty when the budget is exhausted. -/
def allocateQueue (c : Context) : Context :=
  match c.allocate .queue c.queueBudgetBytes with
  | .ok c => c
  | .error _ => c.allocateEmpty .queue

def onBlock (c : Context) (id : Nat) (f : Manager → Block → Manager × Block) : Context :=
  match c.block? id with
  | none => c
  | some b =>
      let r := f c.manager b
      { c with manager := r.1, blocks := c.blocks.set id r.2 }

def addUsage (c : Context) (id bytes : Nat) : Context := c.onBlock id fun m b => b.addUsage m bytes

def reduceUsage (c : Context) (id bytes : Nat) : Context :=
  c.onBlock id fun m b => b.reduceUsage m bytes

def closeBlock (c : Context) (id : Nat) : Context := c.onBlock id fun m b => b.close m

def resize (c : Context) (id size : Nat) : Except MemoryError Context :=
  match c.block? id with
  | none => .ok c
  | some b =>
      (b.resize c.manager size).map fun r =>
        { c with manager := r.1, blocks := c.blocks.set id r.2 }

/-- The first of `candidate`, its half, its quarter and so on that the manager grants. -/
def allocateHalving (m : Manager) (candidate : Nat) : Manager × Block :=
  if candidate = 0 then (m, Block.empty .batch)
  else
    match m.allocate .batch candidate with
    | .ok granted => granted
    | .error _ => allocateHalving m (candidate / 2)
termination_by candidate
decreasing_by omega

def withBudget (c : Context) : Context :=
  match c.budget with
  | some _ => c
  | none =>
      let r := allocateHalving c.manager c.batchBudgetBytes
      { c with manager := r.1, budget := some { block := r.2 } }

def onBudget (c : Context) (f : Budget → Budget) : Context :=
  { c with budget := c.budget.map f }

/-- Registers a slice; its id is the number of slices before. -/
def registerSlice (c : Context) (requested : Nat) : Context :=
  c.withBudget.onBudget fun b => b.register requested

def sliceCount (c : Context) : Nat :=
  match c.budget with
  | some b => b.slices.length
  | none => 0

def grantOf (c : Context) (slice : Nat) : Nat :=
  match c.budget with
  | some b => b.grantOf slice
  | none => 0

end Context
end Memory
end Courier
