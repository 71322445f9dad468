import Courier.Config.Field
import Courier.Toml.Document

/-!
Configurations from TOML documents. A section is a table, or an array that gives its fields in
order; what is missing keeps its default, and names that mean nothing are skipped.
-/

namespace Courier
namespace Config

open Toml (Value)

/-- Stores the entries of a table under their names. -/
def storeEntries {S : Type} (fields : List (Field S)) (s : S) : List (String × Value) → Option S
  | [] => some s
  | (name, v) :: rest =>
      match fields.find? fun f => f.name = name with
      | some f => f.store s v >>= fun s => storeEntries fields s rest
      | none => storeEntries fields s rest

/-- Stores the items of an array in the order of the fields. -/
def storeItems {S : Type} (s : S) : List (Field S) → List Value → Option S
  | f :: fields, v :: items => f.store s v >>= fun s => storeItems s fields items
  | _, _ => some s

/-- A section. A date has no names that mean anything here. -/
def readSection {S : Type} (fields : List (Field S)) (s : S) : Value → Option S
  | .table _ entries => storeEntries fields s entries
  | .array items | .tables items => storeItems s fields items
  | .moment => some s
  | _ => none

/-- A configuration whose sections are among the entries of a table. -/
def ofEntries? (entries : Toml.Entries) : Option Config := do
  let part {S : Type} (name : String) (fields : List (Field S)) (standard : S) : Option S :=
    match entries.lookup name with
    | some v => readSection fields standard v
    | none => some standard
  return {
    queue := ← part "queue" queueFields {}
    batch := ← part "batch" batchFields {}
    transfer := ← part "transfer" transferFields {}
    memory := ← part "memory" memoryFields {}
    log := ← part "log" logFields {}
    metrics := ← part "metrics" metricsFields {} }

def ofValue? : Value → Option Config
  | .table _ entries => ofEntries? entries
  | _ => none

inductive LoadError
  /-- The file is not there or is not text. -/
  | unreadable
  | malformed
  | invalid (problem : ConfigProblem)
  deriving DecidableEq, Repr

def ofText (document : String) : Except LoadError Config :=
  match Toml.parse? document >>= ofValue? with
  | none => .error .malformed
  | some c =>
      match c.validate with
      | .ok () => .ok c
      | .error problem => .error (.invalid problem)

def ofFile (bytes : Option Bytes) : Except LoadError Config :=
  match bytes >>= fun bytes => String.fromUTF8? (ByteArray.mk bytes.toArray) with
  | none => .error .unreadable
  | some document => ofText document

end Config
end Courier
