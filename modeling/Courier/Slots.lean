/-!
The count of files that were handed out and are not finished. The queue and the connector share it:
the queue serves no file while the count is at its cap. `freed` counts the slots freed so far, which
is what a retrieval blocked by the cap watches.
-/

namespace Courier

structure Slots where
  count : Nat := 0
  freed : Nat := 0
  deriving DecidableEq, Repr

namespace Slots

def acquire (s : Slots) : Slots := { s with count := s.count + 1 }

def release (s : Slots) : Slots :=
  if s.count = 0 then s else { count := s.count - 1, freed := s.freed + 1 }

end Slots
end Courier
