import Courier.Batch.Operation
import Courier.Commons.Operation

/-!
The batches of a process. They are siblings under one budget, so what happens to one changes what
is granted to the others. A history of them is a list of operations, those of others on the shared
state included. A batch that is let go closes, and nothing can be asked of it afterwards.
-/

namespace Courier
namespace Batch

/-- Batches in the order in which they were created; none stands for one that was let go. -/
structure Siblings (P : Type) where
  commons : Commons
  batches : List (Option (Accumulator P)) := []

namespace Siblings

inductive Operation
  | on (batch : Nat) (o : Batch.Operation)
  | letGo (batch : Nat)
  | shared (o : Commons.Operation)
  deriving DecidableEq, Repr

variable {P : Type} [Payload P]

def batch? (s : Siblings P) (i : Nat) : Option (Accumulator P) := s.batches.getD i none

def create (s : Siblings P) (id : String) (settings : Settings) (payload : P) : Siblings P :=
  let (b, commons) := Accumulator.create id settings payload s.commons
  { commons, batches := s.batches ++ [some b] }

def perform (s : Siblings P) : Operation → Siblings P × Reply BatchError
  | .on i o =>
      match s.batch? i with
      | none => (s, .gone)
      | some b =>
          let (b, commons, reply) := b.perform s.commons o
          ({ commons, batches := s.batches.set i (some b) }, reply)
  | .letGo i =>
      match s.batch? i with
      | none => (s, .flag false)
      | some b =>
          let (_, commons) := b.close s.commons
          ({ commons, batches := s.batches.set i none }, .flag true)
  | .shared o =>
      let (commons, reply) := s.commons.perform o
      ({ s with commons }, reply)

/-- What the recorder of a batch was told since an earlier state, the oldest first. -/
def samplesSince (s earlier : Siblings P) (i : Nat) : List Sample :=
  match s.batch? i, earlier.batch? i with
  | some b, some old => b.samples.drop old.samples.length
  | _, _ => []

end Siblings
end Batch
end Courier
