import Courier.Pipe.Schedule

/-!
A pipe put together from its settings, with nothing in it and nothing under way. The clients all
reach the same peer.
-/

namespace Courier
namespace Pipe

structure Names where
  queue : String
  batch : String
  connector : String
  deriving DecidableEq, Repr

structure Settings where
  queue : Queue.Settings := {}
  batch : Batch.Settings := {}
  transfer : Transfer.Settings := {}
  memory : Memory.Settings := {}
  clients : Nat := 1
  deriving DecidableEq, Repr

/-- The queue takes its memory first, then the batch. -/
def assemble {P : Type} [Batch.Payload P] (names : Names) (settings : Settings) (payload : P)
    (disk : Disk) (peer : Transfer.Peer) : Pipe P :=
  let commons : Commons := { memory := .ofSettings settings.memory }
  let (queue, commons) := Queue.Realtime.create names.queue settings.queue commons
  let (batch, commons) := Batch.Accumulator.create names.batch settings.batch payload commons
  { commons, queue, batch, disk, peer
    connector := Connector.create names.connector settings.transfer
    clients := .ofClients (List.replicate settings.clients 0) }

end Pipe
end Courier
