import Courier.CommandLine.Program

/-!
The program on a real disk: the files that a command line speaks of are read in, and what comes of
the run is written and printed.
-/

namespace Courier

open CommandLine

/-- The places that a path leads through, the last one at the end. -/
def placesAlong : List String → List String → List (List String)
  | place, [] => [place]
  | place, part :: rest =>
      place :: placesAlong (if part = ".." then place.dropLast else place ++ [part]) rest

/-- Puts a directory on the disk, or a file that can be read. -/
def readIn (d : Disk) (path : String) : IO Disk := do
  let places := placesAlong (d.origin path) (Path.parts path)
  if ← ((← IO.currentDir) / path).isDir then return places.foldl Disk.addDirectory d
  try
    let bytes ← IO.FS.readBinFile path
    let d := places.dropLast.foldl Disk.addDirectory d
    return d.place (places.getLast?.getD []) bytes.toList
  catch _ => return d

/-- Files of the receiver's directory that an order can touch. -/
def targets (o : SendOrder) : List String :=
  (o.sources.filterMap Path.fileName?).map (Path.join o.out)

/-- The files that a command line speaks of. -/
def mentioned (i : Invocation) : List String :=
  i.config.toList ++
    match i.command with
    | .check => []
    | .send o => o.sources ++ [o.out] ++ targets o

/-- Writes out what an order left in the receiver's directory. -/
def writeOut (before after : Disk) (o : SendOrder) : IO Unit := do
  IO.FS.createDirAll o.out
  for path in targets o do
    match after.contentsOf? path with
    | some bytes =>
        if before.contentsOf? path ≠ some bytes then
          IO.FS.writeBinFile path (ByteArray.mk bytes.toArray)
    | none => pure ()

def readDisk (args : List String) : IO Disk := do
  let home := Path.parts (← IO.currentDir).toString
  let d : Disk := ({ home } : Disk).addDirectory home
  match parse args with
  | .ok i => (mentioned i).foldlM readIn d
  | .error _ => return d

def writeDisk (args : List String) (before : Disk) (r : Outcome) : IO Unit :=
  match parse args with
  | .ok { command := .send o, .. } =>
      if o.sources.all before.isFile && r.disk.isDirectory o.out then writeOut before r.disk o
      else pure ()
  | _ => pure ()

end Courier

def main (args : List String) : IO UInt32 := do
  let before ← Courier.readDisk args
  let outcome := Courier.CommandLine.run args before
  Courier.writeDisk args before outcome
  for line in outcome.output do
    IO.println line
  for line in outcome.complaint.toList do
    IO.eprintln line
  return outcome.exitCode.toUInt32
