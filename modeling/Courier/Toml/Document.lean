import Courier.Toml.Number

/-!
Documents. A document is read line by line: a header says which table is current, and every other
line adds a value to it under a key. Values nest at most 79 deep, and a key has at most 79 parts.
-/

namespace Courier
namespace Toml

/-- Nesting from here on is refused. -/
def depthLimit : Nat := 80

def isKeyChar (c : Char) : Bool := c.isAlphanum || c = '-' || c = '_'

def keyPart? : Step String
  | '"' :: rest => Text.basic [] rest
  | '\'' :: rest => Text.literal [] rest
  | s =>
      let bare := s.takeWhile isKeyChar
      if bare.isEmpty then none else some (String.ofList bare, s.dropWhile isKeyChar)

/-- The parts of a key, at most so many, with blanks around them. -/
def keyParts? : Nat → Step (List String)
  | 0, _ => none
  | n + 1, s => do
      let (part, s) ← keyPart? (skipBlanks s)
      match skipBlanks s with
      | '.' :: rest =>
          let (parts, rest) ← keyParts? n rest
          return (part :: parts, rest)
      | rest => return ([part], rest)

def key? : Step (List String) := keyParts? (depthLimit - 1)

/-- The front parts of a key and its last part. -/
def splitLast (parts : List String) : List String × String :=
  (parts.dropLast, parts.getLast?.getD "")

/-- The items of an array, after its bracket or a comma. -/
def items? (value : Step Value) : Nat → List Value → Step Value
  | 0, _, _ => none
  | fuel + 1, read, s =>
      match skipSpace false s with
      | ']' :: rest => some (.array read.reverse, rest)
      | s => do
          let (v, s) ← value s
          match skipSpace false s with
          | ',' :: rest => items? value fuel (v :: read) rest
          | ']' :: rest => some (.array (v :: read).reverse, rest)
          | _ => none

/-- A key, its value, and blanks after it. -/
def pair? (value : Step Value) : Step (List String × Value) := fun s => do
  let (parts, s) ← key? s
  let s ← skip? '=' s
  let (v, s) ← value (skipBlanks s)
  return ((parts, v), skipBlanks s)

def addPair? (t : Entries) (origin : Origin) (parts : List String) (v : Value) : Option Entries :=
  let (front, last) := splitLast parts
  t.addDotted? front last v origin

/-- The entries of a table in braces, after its brace or a comma. -/
def entries? (value : Step Value) : Nat → Entries → Step Value
  | 0, _, _ => none
  | fuel + 1, t, s => do
      let ((parts, v), s) ← pair? value s
      let t ← addPair? t .inline parts v
      match s with
      | ',' :: rest => entries? value fuel t rest
      | '\x7d' :: rest => some (.table .inline t, rest)
      | _ => none

def braces? (value : Step Value) : Step Value := fun s =>
  match skipBlanks s with
  | '\x7d' :: rest => some (.table .inline [], rest)
  | _ => entries? value (s.length + 1) [] s

def scalar? (s : List Char) : Option (Value × List Char) :=
  match s with
  | [] => none
  | c :: _ =>
      if c = '"' || c = '\'' then (Text.read s).map fun (text, rest) => (.text text, rest)
      else if c = 't' then
        (Number.word? ['t', 'r', 'u', 'e'] s).map fun (_, rest) => (.boolean true, rest)
      else if c = 'f' then
        (Number.word? ['f', 'a', 'l', 's', 'e'] s).map fun (_, rest) => (.boolean false, rest)
      else Number.read s

/-- A value that nests at most so deep. -/
def value? : Nat → Step Value
  | 0, s => scalar? s
  | depth + 1, s =>
      match s with
      | '[' :: rest => items? (value? depth) (rest.length + 1) [] rest
      | '\x7b' :: rest => braces? (value? depth) rest
      | s => scalar? s

/-- What was read so far, and the path of the current table. -/
structure Draft where
  entries : Entries := []
  current : List String := []

namespace Draft

def openTable? (d : Draft) (parts : List String) : Option Draft :=
  let (front, last) := splitLast parts
  (Entries.descend false (fun _ t => t.openTable last) front .headed d.entries).map
    fun entries => { entries, current := parts }

def openAnother? (d : Draft) (parts : List String) : Option Draft :=
  let (front, last) := splitLast parts
  (Entries.descend false (fun _ t => t.openAnother last) front .headed d.entries).map
    fun entries => { entries, current := parts }

def add? (d : Draft) (parts : List String) (v : Value) : Option Draft :=
  (Entries.descend false (fun origin t => addPair? t origin parts v) d.current .headed
    d.entries).map fun entries => { d with entries }

end Draft

/-- One line that is not empty, with its end. -/
def line? (d : Draft) (s : List Char) : Option (Draft × List Char) :=
  match s with
  | '[' :: '[' :: rest => do
      let (parts, s) ← key? rest
      let s ← skip? ']' s >>= skip? ']' >>= restOfLine?
      let d ← d.openAnother? parts
      return (d, s)
  | '[' :: rest => do
      let (parts, s) ← key? rest
      let s ← skip? ']' s >>= restOfLine?
      let d ← d.openTable? parts
      return (d, s)
  | s => do
      let ((parts, v), s) ← pair? (value? (depthLimit - 1)) s
      let s ← restOfLine? s
      let d ← d.add? parts v
      return (d, s)

def lines? : Nat → Draft → List Char → Option Draft
  | 0, _, _ => none
  | fuel + 1, d, s =>
      match skipSpace false s with
      | [] => some d
      | s => line? d s >>= fun (d, rest) => lines? fuel d rest

/-- A mark of the byte order at the beginning says nothing. -/
def skipMark : List Char → List Char
  | '\ufeff' :: rest => rest
  | s => s

/-- The table that a document describes. -/
def parse? (document : String) : Option Value :=
  let s := skipMark document.toList
  (lines? (s.length + 1) {} s).map fun d => .table .headed d.entries

end Toml
end Courier
