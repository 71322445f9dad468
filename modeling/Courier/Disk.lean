import Courier.Bytes
import Courier.Path
import Courier.Transfer.Failure

/-!
A small file system. Names lead to files, and a file that was opened stays readable when its name
goes away or is given to another file. A path begins at the root, or in the home directory when no
slash stands in front.
-/

namespace Courier

open Transfer (IoKind)

/-- Names a file whatever it is called. -/
abbrev FileId := Nat

inductive Node
  | directory
  | file (id : FileId)
  deriving DecidableEq, Repr

structure Disk where
  home : List String := []
  directories : List (List String) := []
  names : List (List String × FileId) := []
  contents : Array Bytes := #[]
  deriving DecidableEq, Repr

namespace Disk

/-- Longest name of a directory entry, in bytes. -/
def maxNameBytes : Nat := 255

/-- A path has fewer bytes than this. -/
def maxPathBytes : Nat := 4096

/-- Length reported for a directory. -/
def directoryLength : Nat := 4096

def node? (d : Disk) (place : List String) : Option Node :=
  if place.isEmpty || d.directories.contains place then some .directory
  else (d.names.lookup place).map .file

/-- Walks from a directory along the parts that are left. Nothing lies above the root. -/
def walk (d : Disk) : List String → List String → Except IoKind (List String × Node)
  | place, [] => .ok (place, .directory)
  | place, part :: rest =>
      if part = "." then walk d place rest
      else if part = ".." then walk d place.dropLast rest
      else if maxNameBytes < part.utf8ByteSize then .error .invalidFilename
      else
        match d.node? (place ++ [part]) with
        | none => .error .notFound
        | some .directory => walk d (place ++ [part]) rest
        | some (.file id) =>
            if rest.isEmpty then .ok (place ++ [part], .file id) else .error .notADirectory

/-- The parts of a path, single points among them. -/
def steps (path : String) : List String := (Path.split path).filter (· != "")

def origin (d : Disk) (path : String) : List String :=
  if path.startsWith "/" then [] else d.home

def refusal? (path : String) : Option IoKind :=
  if path.toList.contains '\x00' then some .invalidInput
  else if path = "" then some .notFound
  else if maxPathBytes ≤ path.utf8ByteSize then some .invalidFilename
  else none

/-- The place that a path leads to, and what is there. A slash at the end asks for a directory. -/
def resolve (d : Disk) (path : String) : Except IoKind (List String × Node) :=
  match refusal? path with
  | some kind => .error kind
  | none => d.walk (d.origin path) (steps path ++ if path.endsWith "/" then ["."] else [])

def open? (d : Disk) (path : String) : Except IoKind Node := (d.resolve path).map (·.2)

def bytesOf (d : Disk) (id : FileId) : Bytes := d.contents.getD id []

/-- At most `count` bytes of an open file, from `offset` on. -/
def read (d : Disk) (node : Node) (offset count : Nat) : Except IoKind Bytes :=
  match node with
  | .directory => .error .isADirectory
  | .file id => .ok (Bytes.slice (d.bytesOf id) offset count)

def length (d : Disk) (path : String) : Except IoKind Nat :=
  (d.resolve path).map fun found =>
    match found.2 with
    | .directory => directoryLength
    | .file id => (d.bytesOf id).length

def isFile (d : Disk) (path : String) : Bool :=
  match d.resolve path with
  | .ok (_, .file _) => true
  | _ => false

def isDirectory (d : Disk) (path : String) : Bool :=
  match d.resolve path with
  | .ok (_, .directory) => true
  | _ => false

def contentsOf? (d : Disk) (path : String) : Option Bytes :=
  match d.resolve path with
  | .ok (_, .file id) => some (d.bytesOf id)
  | _ => none

/-- Gives a file new contents, under the name it has or under a new one. -/
def write (d : Disk) (path : String) (bytes : Bytes) : Disk :=
  match d.resolve path with
  | .ok (_, .file id) => { d with contents := d.contents.setIfInBounds id bytes }
  | .ok (_, .directory) => d
  | .error _ =>
      { d with
        names := d.names ++ [(d.origin path ++ Path.parts path, d.contents.size)]
        contents := d.contents.push bytes }

/-- Takes the name away; the file stays with those who opened it. -/
def remove (d : Disk) (path : String) : Disk :=
  match d.resolve path with
  | .ok (place, .file _) => { d with names := d.names.filter fun entry => entry.1 != place }
  | _ => d

/-- All places that lead to one, from the top. -/
def ancestry (place : List String) : List (List String) :=
  (List.range place.length).map fun n => place.take (n + 1)

/-- The directory and all that lead to it. -/
def addDirectory (d : Disk) (place : List String) : Disk :=
  { d with
    directories := d.directories ++ (ancestry place).filter fun p => !d.directories.contains p }

/-- Creates the directories along a path that are missing, and answers with the last one. Single
points at the end only say that it has to be there. -/
def makeAlong (d : Disk) : List String → List String → Disk × Option (List String)
  | place, [] => (d, some place)
  | place, part :: rest =>
      if part = "." then makeAlong d place rest
      else if part = ".." then makeAlong d place.dropLast rest
      else if maxNameBytes < part.utf8ByteSize then (d, none)
      else
        match d.node? (place ++ [part]) with
        | some (.file _) => (d, none)
        | some .directory => makeAlong d (place ++ [part]) rest
        | none =>
            if !rest.isEmpty && rest.all (· = ".") then (d, none)
            else makeAlong (d.addDirectory (place ++ [part])) (place ++ [part]) rest

/-- The disk with a directory at a path, and its place. Without a place the directory cannot be;
those on the way to it are created as far as they can. -/
def makeDirectory (d : Disk) (path : String) : Disk × Option (List String) :=
  if (refusal? path).isSome then (d, none) else d.makeAlong (d.origin path) (steps path)

def directoriesIn (d : Disk) (place : List String) : List String :=
  d.directories.filterMap fun p => if p.dropLast = place then p.getLast? else none

/-- Entries of a directory that are files, with their contents. -/
def filesIn (d : Disk) (place : List String) : List (String × Bytes) :=
  d.names.filterMap fun (p, id) =>
    if p.dropLast = place then p.getLast?.map fun name => (name, d.bytesOf id) else none

def writeIn (d : Disk) (place : List String) (name : String) (bytes : Bytes) : Disk :=
  match d.names.lookup (place ++ [name]) with
  | some id => { d with contents := d.contents.setIfInBounds id bytes }
  | none =>
      { d with
        names := d.names ++ [(place ++ [name], d.contents.size)]
        contents := d.contents.push bytes }

/-- Puts a file at a place, with the directories that lead there. -/
def place (d : Disk) (place : List String) (bytes : Bytes) : Disk :=
  (d.addDirectory place.dropLast).writeIn place.dropLast (place.getLast?.getD "") bytes

end Disk
end Courier
