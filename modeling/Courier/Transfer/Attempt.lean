import Courier.Disk
import Courier.Metrics.Counters
import Courier.Transfer.Failure

/-!
One attempt to transfer a file event. The file of modifications goes first if there is one, then the
data file, each in pieces of at most the buffer's size, then one seal. The next request is made only
when the last one was answered. An offset reset moves the reader to where the receiver's file ends;
any other answer that is neither an acceptance nor tolerated ends the attempt.
-/

namespace Courier
namespace Transfer

structure Settings where
  readBufferBytes : Nat := 8388608
  initialRetryMs : Nat := 1000
  maxClients : Nat := 16
  requestTimeoutMs : Nat := 60000
  node : Int := 0
  deriving DecidableEq, Repr

inductive Part
  | mods
  | data
  deriving DecidableEq, Repr

/-- An open file and the place up to which it was read. -/
structure Reader where
  node : Node
  position : Nat
  deriving DecidableEq, Repr

structure Attempt where
  event : EventRef
  file : SealedFile
  dataName : String
  modsName : Option String
  bufferBytes : Nat
  timeoutMs : Nat
  node : Int
  createdAt : Nat
  deriving DecidableEq, Repr

inductive Stage
  | sending (part : Part) (reader : Reader) (offset : Nat)
  | sealing
  deriving DecidableEq, Repr

/-- What was asked for. A piece began at `offset` and took `count` bytes; the reader is past
them. -/
inductive Sent
  | piece (part : Part) (reader : Reader) (offset count : Nat)
  | seal
  deriving DecidableEq, Repr

/-- A status that was put before the status policy. -/
structure Judgement where
  request : String
  status : Status
  tolerated : Bool
  deriving DecidableEq, Repr

/-- What an answer leads to: the next stage, or none when the transfer is complete. -/
structure Verdict where
  stats : Metrics.TransferStats
  judgement : Option Judgement := none
  result : Except TransferError (Option Stage)

/-- A reader cannot be moved beyond this. -/
def maxSeek : Nat := 0x7fffffffffffffff

/-- Puts a response before the policy unless it is an acceptance. -/
def judge (policy : StatusPolicy) (request : String) (r : Response) :
    Option Judgement × Except TransferError Unit :=
  if r.isAccepted then (none, .ok ())
  else
    match policy.handle r.status request with
    | .ok () => (some { request, status := r.status, tolerated := true }, .ok ())
    | .error error => (some { request, status := r.status, tolerated := false }, .error error)

namespace Attempt

/-- Only a file event whose files have names can be transferred. -/
def prepare (e : EventRef) (settings : Settings) (now : Nat) : Except TransferError Attempt :=
  match e.event.content with
  | .file f =>
      match f.dataName, f.modsName with
      | .ok dataName, .ok modsName =>
          .ok { event := e, file := f, dataName, modsName
                bufferBytes := max settings.readBufferBytes 1
                timeoutMs := settings.requestTimeoutMs
                node := settings.node
                createdAt := now }
      | .error error, _ | .ok _, .error error => .error (.event error)
  | _ => .error (.event (.notAFile e.event.kind))

def path (a : Attempt) : Part → String
  | .mods => a.file.mods.getD a.file.data
  | .data => a.file.data

def fileName (a : Attempt) : Part → String
  | .mods => a.modsName.getD a.dataName
  | .data => a.dataName

def failed (a : Attempt) (part : Part) (kind : IoKind) : TransferError :=
  .file (a.path part) { kind }

def openPart (a : Attempt) (d : Disk) (part : Part) : Except TransferError Stage :=
  match d.open? (a.path part) with
  | .ok node => .ok (.sending part { node, position := 0 } 0)
  | .error kind => .error (a.failed part kind)

def start (a : Attempt) (d : Disk) : Except TransferError Stage :=
  a.openPart d (if a.file.mods.isSome then .mods else .data)

def lengthOf (a : Attempt) (d : Disk) (part : Part) : Except TransferError Nat :=
  match d.length (a.path part) with
  | .ok length => .ok length
  | .error kind => .error (a.failed part kind)

/-- The seal, with the lengths that the files have now. -/
def sealRequest (a : Attempt) (d : Disk) : Except TransferError Request := do
  let mods ← match a.modsName with
    | some name => (a.lengthOf d .mods).map fun length => some { name, length }
    | none => .ok none
  let length ← a.lengthOf d .data
  return .seal {
    mods := mods
    data := { name := a.dataName, length }
    flushPoints := a.file.flushPoints
    commit := a.event.event.commit
    region := a.event.event.region
    progress := a.event.event.progress
    node := a.node }

def pieceRequest (a : Attempt) (part : Part) (offset : Nat) (payload : Bytes) : Request :=
  .piece {
    file := a.fileName part
    offset := offset
    payload := payload
    withMods := a.file.mods.isSome
    commit := a.event.event.commit
    region := a.event.event.region
    node := a.node }

/-- The next piece of an open file, or none at its end. -/
def nextPiece (a : Attempt) (d : Disk) (part : Part) (reader : Reader) (offset : Nat) :
    Except TransferError (Option (Sent × Request)) :=
  match d.read reader.node reader.position a.bufferBytes with
  | .error kind => .error (a.failed part kind)
  | .ok [] => .ok none
  | .ok payload =>
      .ok (some (.piece part { reader with position := reader.position + payload.length } offset
        payload.length, a.pieceRequest part offset payload))

def nextSeal (a : Attempt) (d : Disk) : Except TransferError (Sent × Request) :=
  (a.sealRequest d).map fun request => (.seal, request)

/-- The request that follows while the data file is sent. -/
def nextData (a : Attempt) (d : Disk) (reader : Reader) (offset : Nat) :
    Except TransferError (Sent × Request) :=
  match a.nextPiece d .data reader offset with
  | .error error => .error error
  | .ok (some next) => .ok next
  | .ok none => a.nextSeal d

/-- The request to make at a stage. The end of a file leads to the next file or to the seal. -/
def next (a : Attempt) (d : Disk) : Stage → Except TransferError (Sent × Request)
  | .sealing => a.nextSeal d
  | .sending .data reader offset => a.nextData d reader offset
  | .sending .mods reader offset =>
      match a.nextPiece d .mods reader offset with
      | .error error => .error error
      | .ok (some next) => .ok next
      | .ok none =>
          match a.openPart d .data with
          | .ok (.sending _ reader offset) => a.nextData d reader offset
          | .ok .sealing => a.nextSeal d
          | .error error => .error error

/-- Takes in the answer to what was sent, `elapsed` after it was sent. -/
def receive (a : Attempt) (policy : StatusPolicy) (stats : Metrics.TransferStats)
    (elapsed : Duration) (sent : Sent) (r : Response) : Verdict :=
  match sent with
  | .seal =>
      match judge policy ("seal " ++ a.dataName) r with
      | (judgement, .ok ()) => { stats, judgement, result := .ok none }
      | (judgement, .error error) => { stats, judgement, result := .error error }
  | .piece part reader offset count =>
      match r.resetOffset with
      | some target =>
          if maxSeek < target then
            { stats, result := .error (a.failed part .invalidInput) }
          else
            { stats := stats.recordOffsetReset.recordPiece count elapsed
              result := .ok (some (.sending part { reader with position := target } target)) }
      | none =>
          match judge policy (a.fileName part) r with
          | (judgement, .ok ()) =>
              { stats := stats.recordPiece count elapsed
                judgement
                result := .ok (some (.sending part reader (offset + count))) }
          | (judgement, .error error) => { stats, judgement, result := .error error }

end Attempt
end Transfer
end Courier
