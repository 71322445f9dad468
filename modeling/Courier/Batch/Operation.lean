import Courier.Batch.Accumulator
import Courier.Reply

/-!
Operations on a batch. `perform` does one and answers; a history of the batch is a list of them.
-/

namespace Courier
namespace Batch

inductive Operation
  | onEvent (e : EventRef)
  | checkDue
  | take
  | onSuccess
  | close
  | discard (pipe : String) (region : Int)
  | dropReferences
  deriving DecidableEq, Repr

def Accumulator.perform {P : Type} [Payload P] (b : Accumulator P) (commons : Commons) :
    Operation → Accumulator P × Commons × Reply BatchError
  | .onEvent e =>
      let (b, commons, due) := b.onEvent commons e
      (b, commons, .ofExcept .flag due)
  | .checkDue =>
      let (b, commons, due) := b.checkDue commons
      (b, commons, .flag due)
  | .take =>
      let (b, commons, emitted) := b.take commons
      (b, commons, .parcel emitted.events emitted.payload)
  | .onSuccess =>
      let (b, commons) := b.onSuccess commons
      (b, commons, .done)
  | .close =>
      let (b, commons) := b.close commons
      (b, commons, .done)
  | .discard pipe region =>
      let (b, commons, n) := b.discardPipe commons pipe region
      (b, commons, .count n)
  | .dropReferences => (b, b.dropReferences commons, .done)

end Batch
end Courier
