import Courier.Disk
import Courier.Word

/-!
A receiver that writes what it is sent into one directory. A piece is appended when it begins where
the file ends, and is otherwise answered with the place to go on from. A seal is accepted when every
file it announces has the announced length. Tablets are appended to a log of their own, whose name
no file may take.
-/

namespace Courier
namespace Transfer

def tabletLog : String := "tablets.log"

/-- The name denotes an entry of the directory itself, other than the log. -/
def isBareName (name : String) : Bool :=
  name != "" && name != "." && name != ".." && !name.toList.contains '/' &&
    !name.toList.contains '\\' && name != tabletLog

structure Receiver where
  /-- Without its directory the receiver has no files and can write none. -/
  present : Bool := true
  directories : List String := []
  files : List (String × Bytes) := []
  /-- Bytes that stand in front of a name in the path of a file. -/
  pathBytes : Nat := 0
  pieces : Nat := 0
  tabletEvents : Nat := 0
  seals : List FileSeal := []
  deriving DecidableEq, Repr

namespace Receiver

def contents (r : Receiver) (name : String) : Bytes := (r.files.lookup name).getD []

/-- Appends to a file, which is created when it is not there. -/
def appendTo (r : Receiver) (name : String) (bytes : Bytes) : Receiver :=
  if (r.files.lookup name).isSome then
    { r with files := r.files.map fun f => if f.1 = name then (f.1, f.2 ++ bytes) else f }
  else { r with files := r.files ++ [(name, bytes)] }

def ioError (kind : IoKind) : ClientError := .io { kind }

def checkName (name : String) : Except ClientError Unit :=
  if isBareName name then .ok ()
  else .error (.invalidRequest ("invalid file name '" ++ name ++ "'"))

def isTooLong (r : Receiver) (name : String) : Bool :=
  Disk.maxPathBytes ≤ r.pathBytes + name.utf8ByteSize ||
    (r.present && Disk.maxNameBytes < name.utf8ByteSize)

/-- Length of a file, zero when there is none. -/
def lengthOf (r : Receiver) (name : String) : Except ClientError Nat :=
  if name.toList.contains '\x00' then .error (ioError .invalidInput)
  else if r.isTooLong name then .error (ioError .invalidFilename)
  else if !r.present then .ok 0
  else if r.directories.contains name then .ok Disk.directoryLength
  else .ok (r.contents name).length

def appendFailure? (r : Receiver) (name : String) : Option IoKind :=
  if r.isTooLong name then some .invalidFilename
  else if !r.present then some .notFound
  else if r.directories.contains name then some .isADirectory
  else none

def receivePiece (r : Receiver) (p : FilePiece) : Receiver × Except ClientError Response :=
  match checkName p.file >>= fun _ => r.lengthOf p.file with
  | .error error => (r, .error error)
  | .ok length =>
      if p.offset ≠ length then (r, .ok (.offsetReset length))
      else
        match r.appendFailure? p.file with
        | some kind => (r, .error (ioError kind))
        | none =>
            ({ r.appendTo p.file p.payload with pieces := Word.add r.pieces 1 }, .ok .success)

def problem? (r : Receiver) (announced : FileMeta) : Except ClientError (Option String) :=
  (checkName announced.name >>= fun _ => r.lengthOf announced.name).map fun length =>
    if length = announced.length then none
    else some (announced.name ++ " has " ++ toString length ++ " of " ++
      toString announced.length ++ " bytes")

def firstProblem? (r : Receiver) : List FileMeta → Except ClientError (Option String)
  | [] => .ok none
  | announced :: rest =>
      match r.problem? announced with
      | .error error => .error error
      | .ok (some problem) => .ok (some problem)
      | .ok none => firstProblem? r rest

def receiveSeal (r : Receiver) (s : FileSeal) : Receiver × Except ClientError Response :=
  match r.firstProblem? (s.mods.toList ++ [s.data]) with
  | .error error => (r, .error error)
  | .ok (some problem) => (r, .ok (.ofStatus .internalError problem))
  | .ok none => ({ r with seals := r.seals ++ [s] }, .ok .success)

def receiveTablets (r : Receiver) (b : TabletBatch) : Receiver × Except ClientError Response :=
  match r.appendFailure? tabletLog with
  | some kind => (r, .error (ioError kind))
  | none =>
      ({ r.appendTo tabletLog b.payload with tabletEvents := Word.add r.tabletEvents b.count },
        .ok .success)

def receive (r : Receiver) : Request → Receiver × Except ClientError Response
  | .piece p => r.receivePiece p
  | .seal s => r.receiveSeal s
  | .tablets b => r.receiveTablets b

/-- The receiver with the files that a directory of a disk holds now. -/
def readFrom (r : Receiver) (d : Disk) (place : List String) : Receiver :=
  { r with directories := d.directoriesIn place, files := d.filesIn place }

/-- Writes the receiver's files into a directory of a disk. -/
def writeTo (r : Receiver) (d : Disk) (place : List String) : Disk :=
  r.files.foldl (fun d f => d.writeIn place f.1 f.2) d

end Receiver
end Transfer
end Courier
