import Courier.Event

/-!
Requests to a receiver and its responses. A file travels as pieces and is completed by a seal;
tablets travel in batches. Only success and a recommendation of another node count as accepted.
-/

namespace Courier
namespace Transfer

structure FileMeta where
  name : String
  length : Nat
  deriving DecidableEq, Repr

/-- A slice of a file, to be written at `offset`. -/
structure FilePiece where
  file : String
  offset : Nat
  payload : Bytes
  withMods : Bool
  commit : CommitId
  region : Int
  node : Int
  deriving DecidableEq, Repr

/-- The last request of a file's transfer. -/
structure FileSeal where
  mods : Option FileMeta
  data : FileMeta
  flushPoints : Nat
  commit : CommitId
  region : Int
  progress : Nat
  node : Int
  deriving DecidableEq, Repr

structure TabletBatch where
  payload : Bytes
  count : Nat
  region : Int
  node : Int
  deriving DecidableEq, Repr

inductive Request
  | piece (p : FilePiece)
  | seal (s : FileSeal)
  | tablets (b : TabletBatch)
  deriving DecidableEq, Repr

def Request.name : Request → String
  | .piece _ => "file_piece"
  | .seal _ => "file_seal"
  | .tablets _ => "tablet_batch"

inductive StatusCode
  | success
  | redirectionRecommend
  | fileOffsetReset
  | idempotentConflict
  | temporaryUnavailable
  | internalError
  deriving DecidableEq, Repr

namespace StatusCode

def isAccepted : StatusCode → Bool
  | .success | .redirectionRecommend => true
  | _ => false

def name : StatusCode → String
  | .success => "success"
  | .redirectionRecommend => "redirection_recommend"
  | .fileOffsetReset => "file_offset_reset"
  | .idempotentConflict => "idempotent_conflict"
  | .temporaryUnavailable => "temporary_unavailable"
  | .internalError => "internal_error"

def all : List StatusCode :=
  [.success, .redirectionRecommend, .fileOffsetReset, .idempotentConflict, .temporaryUnavailable,
   .internalError]

def ofName? (s : String) : Option StatusCode := all.find? fun code => code.name = s

end StatusCode

structure Status where
  code : StatusCode
  message : String := ""
  deriving DecidableEq, Repr

def Status.text (s : Status) : String :=
  if s.message = "" then s.code.name else s.code.name ++ ": " ++ s.message

structure Response where
  status : Status
  /-- How far the receiver's file reaches, when it says so. -/
  endOffset : Option Nat := none
  deriving DecidableEq, Repr

namespace Response

def success : Response := { status := { code := .success } }

def ofStatus (code : StatusCode) (message : String) : Response := { status := { code, message } }

def offsetReset (offset : Nat) : Response where
  status := { code := .fileOffsetReset, message := "resume at offset " ++ toString offset }
  endOffset := some offset

def isAccepted (r : Response) : Bool := r.status.code.isAccepted

/-- Where the sender has to go on, if the receiver asks for it. -/
def resetOffset (r : Response) : Option Nat :=
  match r.status.code with
  | .fileOffsetReset => r.endOffset
  | _ => none

theorem resetOffset_offsetReset (n : Nat) : (offsetReset n).resetOffset = some n := rfl

end Response
end Transfer
end Courier
