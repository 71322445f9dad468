/-!
Values of a TOML document, and the tables that its lines build up. A table knows how it came about,
because that decides who may still add to it.
-/

namespace Courier
namespace Toml

/-- How a table came about. -/
inductive Origin
  /-- Written in braces, and complete. -/
  | inline
  /-- Named by the front parts of a dotted key. -/
  | dotted
  /-- Named by the front parts of a header only. -/
  | passed
  /-- Opened by a header of its own, or the document itself. -/
  | headed
  deriving DecidableEq, Repr

inductive Value
  | text (s : String)
  | integer (n : Int)
  | float
  | boolean (b : Bool)
  | moment
  | array (items : List Value)
  | table (origin : Origin) (entries : List (String × Value))
  /-- Tables opened by repeated headers; lines go to the last one. -/
  | tables (items : List Value)
  deriving Inhabited, Repr

abbrev Entries := List (String × Value)

namespace Entries

def replace (t : Entries) (key : String) (v : Value) : Entries :=
  t.map fun entry => if entry.1 = key then (key, v) else entry

/-- Adds what is not there yet. -/
def add? (t : Entries) (key : String) (v : Value) : Option Entries :=
  match t.lookup key with
  | some _ => none
  | none => some (t ++ [(key, v)])

/-- Changes the table at the end of a path and creates those on the way that are missing. A dotted
key passes no table that has a header of its own; nothing passes a complete table. -/
def descend (byKey : Bool) (change : Origin → Entries → Option Entries) :
    List String → Origin → Entries → Option Entries
  | [], origin, t => change origin t
  | key :: rest, _, t =>
      match t.lookup key with
      | none =>
          let origin : Origin := if byKey then .dotted else .passed
          (descend byKey change rest origin []).map fun below => t ++ [(key, .table origin below)]
      | some (.table origin below) =>
          if origin = .inline || (byKey && origin = .headed) then none
          else (descend byKey change rest origin below).map fun below =>
            replace t key (.table origin below)
      | some (.tables items) =>
          match items.getLast? with
          | some (.table origin below) =>
              (descend byKey change rest origin below).map fun below =>
                replace t key (.tables (items.dropLast ++ [.table origin below]))
          | _ => none
      | some _ => none

/-- Adds under a key with front parts, which may only add to tables that such keys made. -/
def addDotted? (front : List String) (last : String) (v : Value) (origin : Origin) (t : Entries) :
    Option Entries :=
  descend true (fun found below =>
    if (found == .dotted) == front.isEmpty then none else below.add? last v) front origin t

/-- Opens the table that a header names. It may exist only if headers passed it. -/
def openTable (last : String) (t : Entries) : Option Entries :=
  match t.lookup last with
  | none => some (t ++ [(last, .table .headed [])])
  | some (.table .passed below) => some (replace t last (.table .headed below))
  | some _ => none

/-- Opens one more of the tables that a repeated header names. -/
def openAnother (last : String) (t : Entries) : Option Entries :=
  match t.lookup last with
  | none => some (t ++ [(last, .tables [.table .headed []])])
  | some (.tables items) => some (replace t last (.tables (items ++ [.table .headed []])))
  | some _ => none

end Entries
end Toml
end Courier
