import Courier.Event

/-!
Payloads of tablet batches. A payload takes tablets one by one and hands out what it encoded. The
plain payload writes each tablet as its target with a length in front, its row count, and its rows
with a length in front. The scripted payload is the plain one with chosen outcomes for its first
constructions.
-/

namespace Courier
namespace Batch

inductive BatchError
  | unsupportedEvent (kind : Kind)
  | tooLarge (field : String) (length : Nat)
  | construct (message : String)
  deriving DecidableEq, Repr

def BatchError.message : BatchError → String
  | .unsupportedEvent kind => kind.name ++ " events cannot be batched"
  | .tooLarge field length =>
      field ++ " of " ++ toString length ++ " bytes exceeds the encodable length"
  | .construct message => "failed to construct batch: " ++ message

/-- Offering the same event again can never succeed. -/
def BatchError.isPermanent : BatchError → Bool
  | .unsupportedEvent _ | .tooLarge _ _ => true
  | .construct _ => false

class Payload (P : Type) where
  /-- Appends the event; false when it carries nothing to send. -/
  construct : P → Event → P × Except BatchError Bool
  size : P → Nat
  reset : P → P
  /-- Hands out the encoded bytes and starts over. -/
  take : P → P × Bytes

/-- Lengths from here on have no encoding. -/
def lengthBound : Nat := Nat.pow 2 32

def encodeTablet (t : Tablet) : Bytes :=
  let target := Bytes.ofText t.target
  Bytes.bigEndian32 target.length ++ target ++ Bytes.bigEndian32 t.rows ++
    Bytes.bigEndian32 t.payload.length ++ t.payload

theorem length_encodeTablet (t : Tablet) :
    (encodeTablet t).length = 12 + (Bytes.ofText t.target).length + t.payload.length := by
  simp only [encodeTablet, List.length_append, Bytes.length_bigEndian32]; omega

structure PlainPayload where
  bytes : Bytes := []
  deriving DecidableEq, Repr

namespace PlainPayload

def construct (p : PlainPayload) (e : Event) : PlainPayload × Except BatchError Bool :=
  match e.content with
  | .tablet t =>
      if lengthBound ≤ t.target.utf8ByteSize then
        (p, .error (.tooLarge "target" t.target.utf8ByteSize))
      else if lengthBound ≤ t.payload.length then
        (p, .error (.tooLarge "payload" t.payload.length))
      else (⟨p.bytes ++ encodeTablet t⟩, .ok true)
  | .heartbeat _ => (p, .ok false)
  | .file _ => (p, .error (.unsupportedEvent e.kind))

instance : Payload PlainPayload where
  construct := construct
  size p := p.bytes.length
  reset _ := {}
  take p := ({}, p.bytes)

end PlainPayload

/-- A chosen outcome of a construction. -/
inductive Outcome
  | plain
  | skip
  | busy
  | tooLarge
  deriving DecidableEq, Repr

structure ScriptedPayload where
  plain : PlainPayload := {}
  script : List Outcome := []
  deriving DecidableEq, Repr

namespace ScriptedPayload

def constructPlain (p : ScriptedPayload) (e : Event) : ScriptedPayload × Except BatchError Bool :=
  let r := p.plain.construct e
  ({ p with plain := r.1 }, r.2)

def construct (p : ScriptedPayload) (e : Event) : ScriptedPayload × Except BatchError Bool :=
  match p.script with
  | [] => p.constructPlain e
  | outcome :: rest =>
      let p := { p with script := rest }
      match outcome with
      | .plain => p.constructPlain e
      | .skip => (p, .ok false)
      | .busy => (p, .error (.construct "encoder busy"))
      | .tooLarge => (p, .error (.tooLarge "payload" (Nat.pow 2 64 - 1)))

instance : Payload ScriptedPayload where
  construct := construct
  size p := p.plain.bytes.length
  reset p := { p with plain := {} }
  take p := ({ p with plain := {} }, p.plain.bytes)

end ScriptedPayload
end Batch
end Courier
