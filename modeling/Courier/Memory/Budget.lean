import Courier.Memory.Manager

/-!
The budget that all batches share: one block carved into slices. Slices are served in the order of
registration, each up to its target, as long as bytes are left. A slice whose batch keeps being
emitted because time ran out has a smaller target than it asked for.
-/

namespace Courier
namespace Memory

structure Slice where
  requested : Nat
  granted : Nat := 0
  usage : Nat := 0
  /-- Smoothed share of the maximum delay that emissions took; none before the first. -/
  efficiency : Option Float := none
  closed : Bool := false

namespace Slice

/-- At this share and above the batch is emitted by time rather than by size. -/
def onTimeFrom : Float := 1.0

/-- Weight of the newest sample. -/
def newestWeight : Float := 0.5

def smallestCut : Nat := 64 * 1024

def isOnTime (efficiency : Option Float) : Bool :=
  match efficiency with
  | some x => onTimeFrom ≤ x
  | none => false

/-- What the slice gets when enough is left. -/
def target (s : Slice) : Nat :=
  if isOnTime s.efficiency then min (max (s.requested / 4) smallestCut) s.requested
  else s.requested

def smooth (previous : Option Float) (sample : Float) : Float :=
  match previous with
  | some old => newestWeight * sample + (1.0 - newestWeight) * old
  | none => sample

end Slice

structure Budget where
  block : Block
  slices : List Slice := []

namespace Budget

def capacity (b : Budget) : Nat := b.block.size

/-- Serves the open slices in order from what remains. -/
def serve : Nat → List Slice → List Slice
  | _, [] => []
  | remaining, s :: rest =>
      if s.closed then s :: serve remaining rest
      else
        let grant := min s.target remaining
        { s with granted := grant } :: serve (remaining - grant) rest

def rebalance (b : Budget) : Budget := { b with slices := serve b.capacity b.slices }

def openSlices (b : Budget) : List Slice := b.slices.filter fun s => !s.closed

def assigned (b : Budget) : Nat := b.openSlices.foldl (fun sum s => sum + s.granted) 0

/-- The new slice has the number of slices before as its id. -/
def register (b : Budget) (requested : Nat) : Budget :=
  let slice : Slice := { requested := requested }
  { b with slices := b.slices ++ [slice] }.rebalance

def slice? (b : Budget) (id : Nat) : Option Slice := b.slices[id]?

def update (b : Budget) (id : Nat) (f : Slice → Slice) : Budget :=
  { b with slices := b.slices.modify id f }

def grantOf (b : Budget) (id : Nat) : Nat :=
  match b.slice? id with
  | some s => s.granted
  | none => 0

def addUsage (b : Budget) (id bytes : Nat) : Budget :=
  b.update id fun s => { s with usage := Word.add s.usage bytes }

def reduceUsage (b : Budget) (id bytes : Nat) : Budget :=
  b.update id fun s => { s with usage := s.usage - bytes }

def resetUsage (b : Budget) (id : Nat) : Budget := b.update id fun s => { s with usage := 0 }

/-- Takes a sample into the average; grants change when the slice crosses the line. Samples that
are not finite are ignored, negative ones count as zero. -/
def sample (b : Budget) (id : Nat) (ratio : Float) : Budget :=
  match b.slice? id with
  | none => b
  | some s =>
      if s.closed || !ratio.isFinite then b
      else
        let next := some (Slice.smooth s.efficiency (if 0.0 < ratio then ratio else 0.0))
        let b' := b.update id fun s => { s with efficiency := next }
        if Slice.isOnTime s.efficiency != Slice.isOnTime next then b'.rebalance else b'

def close (b : Budget) (id : Nat) : Budget :=
  match b.slice? id with
  | none => b
  | some s =>
      if s.closed then b
      else (b.update id fun s => { s with granted := 0, usage := 0, closed := true }).rebalance

end Budget
end Memory
end Courier
