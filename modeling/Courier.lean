import Courier.Batch.Siblings
import Courier.Main
import Courier.Pipe.Operation
import Courier.Proofs.Batch.Contents
import Courier.Proofs.Batch.Decoding
import Courier.Proofs.Event.Lifetime
import Courier.Proofs.Memory.Accounting
import Courier.Proofs.Memory.Budget
import Courier.Proofs.Memory.Halving
import Courier.Proofs.Metrics.RateLog
import Courier.Proofs.Pipe.Cap
import Courier.Proofs.Pipe.Closing
import Courier.Proofs.Pipe.Delay
import Courier.Proofs.Pipe.Fitness
import Courier.Proofs.Pipe.Idleness
import Courier.Proofs.Pipe.Isolation
import Courier.Proofs.Pipe.Order
import Courier.Proofs.Pipe.Owners
import Courier.Proofs.Pipe.Pauses
import Courier.Proofs.Pipe.Pieces
import Courier.Proofs.Pipe.Release
import Courier.Proofs.Pipe.Retries
import Courier.Proofs.Pipe.Scope
import Courier.Proofs.Pipe.Setbacks
import Courier.Proofs.Pipe.Tally
import Courier.Proofs.Pipe.Teardown
import Courier.Proofs.Queue.Cadence
import Courier.Proofs.Queue.Conservation
import Courier.Proofs.Queue.Fairness
import Courier.Proofs.Queue.Heartbeats
import Courier.Proofs.Queue.Mirrors
import Courier.Proofs.Queue.References
import Courier.Proofs.Queue.Totals
import Courier.Proofs.Queue.Waking
import Courier.Proofs.Transfer.Delivery
import Courier.Proofs.Transfer.Protocol
import Courier.Proofs.Transfer.Resume
import Courier.Queue.Wait
import Courier.Transfer.Description
import Courier.Transfer.Lending
import Courier.Transfer.Trial
