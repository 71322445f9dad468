import Courier.Duration
import Courier.Transfer.Message

/-!
Why a request or a transfer fails, what to do with a status that is not an acceptance, and which
failures make the next pause longer.
-/

namespace Courier
namespace Transfer

inductive IoKind
  | notFound
  | permissionDenied
  | connectionRefused
  | connectionReset
  | hostUnreachable
  | networkUnreachable
  | connectionAborted
  | notConnected
  | addrInUse
  | addrNotAvailable
  | networkDown
  | brokenPipe
  | alreadyExists
  | wouldBlock
  | notADirectory
  | isADirectory
  | directoryNotEmpty
  | readOnlyFilesystem
  | staleNetworkFileHandle
  | invalidInput
  | invalidData
  | timedOut
  | writeZero
  | storageFull
  | notSeekable
  | quotaExceeded
  | fileTooLarge
  | resourceBusy
  | executableFileBusy
  | deadlock
  | crossesDevices
  | tooManyLinks
  | invalidFilename
  | argumentListTooLong
  | interrupted
  | unsupported
  | unexpectedEof
  | outOfMemory
  | other
  deriving DecidableEq, Repr

namespace IoKind

def table : List (IoKind × String) :=
  [(.notFound, "NotFound"), (.permissionDenied, "PermissionDenied"),
   (.connectionRefused, "ConnectionRefused"), (.connectionReset, "ConnectionReset"),
   (.hostUnreachable, "HostUnreachable"), (.networkUnreachable, "NetworkUnreachable"),
   (.connectionAborted, "ConnectionAborted"), (.notConnected, "NotConnected"),
   (.addrInUse, "AddrInUse"), (.addrNotAvailable, "AddrNotAvailable"),
   (.networkDown, "NetworkDown"), (.brokenPipe, "BrokenPipe"),
   (.alreadyExists, "AlreadyExists"), (.wouldBlock, "WouldBlock"),
   (.notADirectory, "NotADirectory"), (.isADirectory, "IsADirectory"),
   (.directoryNotEmpty, "DirectoryNotEmpty"), (.readOnlyFilesystem, "ReadOnlyFilesystem"),
   (.staleNetworkFileHandle, "StaleNetworkFileHandle"), (.invalidInput, "InvalidInput"),
   (.invalidData, "InvalidData"), (.timedOut, "TimedOut"), (.writeZero, "WriteZero"),
   (.storageFull, "StorageFull"), (.notSeekable, "NotSeekable"),
   (.quotaExceeded, "QuotaExceeded"), (.fileTooLarge, "FileTooLarge"),
   (.resourceBusy, "ResourceBusy"), (.executableFileBusy, "ExecutableFileBusy"),
   (.deadlock, "Deadlock"), (.crossesDevices, "CrossesDevices"),
   (.tooManyLinks, "TooManyLinks"), (.invalidFilename, "InvalidFilename"),
   (.argumentListTooLong, "ArgumentListTooLong"), (.interrupted, "Interrupted"),
   (.unsupported, "Unsupported"), (.unexpectedEof, "UnexpectedEof"),
   (.outOfMemory, "OutOfMemory"), (.other, "Other")]

def name (k : IoKind) : String :=
  match table.find? fun row => row.1 = k with
  | some row => row.2
  | none => "Other"

def ofName? (s : String) : Option IoKind := (table.find? fun row => row.2 = s).map (·.1)

/-- The network may work again in a moment. -/
def isTransient : IoKind → Bool
  | .connectionRefused | .connectionReset | .connectionAborted | .notConnected | .brokenPipe
  | .timedOut | .unexpectedEof => true
  | _ => false

end IoKind

structure IoError where
  kind : IoKind
  /-- The text of the failure, unless it is the operating system's. -/
  message : Option String := none
  deriving DecidableEq, Repr

def IoError.text (e : IoError) : String := e.message.getD e.kind.name

inductive ClientError
  | io (error : IoError)
  | timeout (after : Duration)
  | disconnected
  | invalidRequest (message : String)
  deriving DecidableEq, Repr

def ClientError.message : ClientError → String
  | .io error => "I/O error: " ++ error.text
  | .timeout after => "request timed out after " ++ after.text
  | .disconnected => "connection closed by peer"
  | .invalidRequest message => "invalid request: " ++ message

inductive TransferError
  | client (error : ClientError)
  /-- A local file could not be opened, read or measured. -/
  | file (path : String) (error : IoError)
  | event (error : EventError)
  /-- The receiver answered with a status that is not tolerated. -/
  | status (request : String) (status : Status)
  deriving DecidableEq, Repr

def TransferError.message : TransferError → String
  | .client error => error.message
  | .file path error => "I/O error on '" ++ path ++ "': " ++ error.text
  | .event error => error.message
  | .status request answer => request ++ " rejected: " ++ answer.text

/-- What a status that is neither an acceptance nor an offset reset does to a transfer. -/
inductive StatusPolicy
  /-- A conflict means that the request was applied before; all else is refused. -/
  | tolerateConflicts
  | acceptAll
  | rejectAll
  deriving DecidableEq, Repr

def StatusPolicy.handle (p : StatusPolicy) (status : Status) (request : String) :
    Except TransferError Unit :=
  let tolerated : Bool :=
    match p with
    | .tolerateConflicts => status.code = .idempotentConflict
    | .acceptAll => true
    | .rejectAll => false
  if tolerated then .ok () else .error (.status request status)

/-- Which failures make the pause before the next try longer. -/
inductive RetryPolicy
  | transientFailures
  | always
  | never
  deriving DecidableEq, Repr

def TransferError.isTransient : TransferError → Bool
  | .client (.io error) => error.kind.isTransient
  | .client (.timeout _) | .client .disconnected => true
  | .status _ answer => answer.code = .temporaryUnavailable
  | _ => false

def RetryPolicy.increases (p : RetryPolicy) (error : TransferError) : Bool :=
  match p with
  | .transientFailures => error.isTransient
  | .always => true
  | .never => false

end Transfer
end Courier
