import Courier.Memory.Context
import Courier.Reply

/-!
The memory of a process with the blocks and slices that somebody still holds. Letting go of one
closes it; nothing can be asked of it afterwards. `perform` does one operation and answers, so a
history of the memory is a list of operations.
-/

namespace Courier
namespace Memory

inductive Operation
  | allocate (pool : Pool) (bytes : Nat)
  | allocateEmpty (pool : Pool)
  | allocateQueue
  | addUsage (block bytes : Nat)
  | reduceUsage (block bytes : Nat)
  | resize (block size : Nat)
  | close (block : Nat)
  | letGo (block : Nat)
  | openBudget
  | register (bytes : Nat)
  | rebalance
  | addSliceUsage (slice bytes : Nat)
  | reduceSliceUsage (slice bytes : Nat)
  | resetSliceUsage (slice : Nat)
  | sample (slice : Nat) (ratio : Float)
  | closeSlice (slice : Nat)
  | letGoSlice (slice : Nat)

structure Holdings where
  context : Context
  blocksGone : List Nat := []
  slicesGone : List Nat := []

namespace Holdings

def hasBlock (h : Holdings) (id : Nat) : Bool :=
  id < h.context.blocks.length && !h.blocksGone.contains id

def hasSlice (h : Holdings) (id : Nat) : Bool :=
  id < h.context.sliceCount && !h.slicesGone.contains id

/-- Blocks in the order in which they were granted, without those let go. -/
def blocks (h : Holdings) : List (Option Block) :=
  h.context.blocks.mapIdx fun id b => if h.hasBlock id then some b else none

/-- Slices in the order of registration, without those let go. -/
def slices (h : Holdings) : List (Option Slice) :=
  match h.context.budget with
  | none => []
  | some budget => budget.slices.mapIdx fun id s => if h.hasSlice id then some s else none

/-- Takes over a context that was granted something. -/
def grant (h : Holdings) (reply : Reply MemoryError) :
    Except MemoryError Context → Holdings × Reply MemoryError
  | .ok context => ({ h with context }, reply)
  | .error error => (h, .failure error)

def onBlock (h : Holdings) (id : Nat) (f : Context → Context) : Holdings × Reply MemoryError :=
  if h.hasBlock id then ({ h with context := f h.context }, .done) else (h, .gone)

def onSlice (h : Holdings) (id : Nat) (f : Budget → Budget) : Holdings × Reply MemoryError :=
  if h.hasSlice id then ({ h with context := h.context.onBudget f }, .done) else (h, .gone)

/-- What is asked for is answered with its id, which is the number of those before. -/
def perform (h : Holdings) : Operation → Holdings × Reply MemoryError
  | .allocate pool bytes =>
      h.grant (.count h.context.blocks.length) (h.context.allocate pool bytes)
  | .allocateEmpty pool =>
      h.grant (.count h.context.blocks.length) (.ok (h.context.allocateEmpty pool))
  | .allocateQueue => h.grant (.count h.context.blocks.length) (.ok h.context.allocateQueue)
  | .addUsage id bytes => h.onBlock id fun c => c.addUsage id bytes
  | .reduceUsage id bytes => h.onBlock id fun c => c.reduceUsage id bytes
  | .resize id size =>
      if h.hasBlock id then h.grant .granted (h.context.resize id size) else (h, .gone)
  | .close id => h.onBlock id fun c => c.closeBlock id
  | .letGo id =>
      if h.hasBlock id then
        ({ h with
            context := h.context.closeBlock id
            blocksGone := id :: h.blocksGone }, .flag true)
      else (h, .flag false)
  | .openBudget =>
      let context := h.context.withBudget
      ({ h with context }, .count (match context.budget with
        | some budget => budget.capacity
        | none => 0))
  | .register bytes =>
      ({ h with context := h.context.registerSlice bytes }, .count h.context.sliceCount)
  | .rebalance => ({ h with context := h.context.withBudget.onBudget Budget.rebalance }, .done)
  | .addSliceUsage id bytes => h.onSlice id fun b => b.addUsage id bytes
  | .reduceSliceUsage id bytes => h.onSlice id fun b => b.reduceUsage id bytes
  | .resetSliceUsage id => h.onSlice id fun b => b.resetUsage id
  | .sample id ratio => h.onSlice id fun b => b.sample id ratio
  | .closeSlice id => h.onSlice id fun b => b.close id
  | .letGoSlice id =>
      if h.hasSlice id then
        ({ h with
            context := h.context.onBudget fun b => b.close id
            slicesGone := id :: h.slicesGone }, .flag true)
      else (h, .flag false)

end Holdings
end Memory
end Courier
