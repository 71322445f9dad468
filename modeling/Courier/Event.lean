import Courier.Bytes
import Courier.Path

/-!
The events that a pipe carries: row batches, sealed files and heartbeats, each with the pipe
instance that captured it and its place in the order of commits. How many stages hold an event is
kept apart from it, in the ledger.
-/

namespace Courier

/-- Place of a write in the order of commits: reboots, then restarts, then replication index. -/
structure CommitId where
  reboot : Nat
  restart : Nat
  index : Nat
  deriving DecidableEq, Repr, Inhabited

namespace CommitId

def zero : CommitId := ⟨0, 0, 0⟩

def le (a b : CommitId) : Bool :=
  a.reboot < b.reboot || (a.reboot == b.reboot &&
    (a.restart < b.restart || (a.restart == b.restart && a.index ≤ b.index)))

def text (c : CommitId) : String :=
  toString c.reboot ++ "-" ++ toString c.restart ++ "-" ++ toString c.index

theorem le_refl (a : CommitId) : le a a = true := by
  simp [le]

theorem le_total (a b : CommitId) : (le a b || le b a) = true := by
  simp only [le, Bool.or_eq_true, Bool.and_eq_true, decide_eq_true_eq, beq_iff_eq]
  omega

theorem le_trans (a b c : CommitId) : le a b = true → le b c = true → le a c = true := by
  simp only [le, Bool.or_eq_true, Bool.and_eq_true, decide_eq_true_eq, beq_iff_eq]
  omega

end CommitId

/-- Text of the consensus group that a region's writes belong to. -/
def groupText (region : Int) : String := "group:" ++ toString region

/-- Rows for one target, serialized by the capturer. -/
structure Tablet where
  target : String
  rows : Nat
  payload : Bytes
  deriving DecidableEq, Repr

/-- A sealed data file, with the file of later modifications if there is one. -/
structure SealedFile where
  data : String
  mods : Option String
  flushPoints : Nat
  deriving DecidableEq, Repr

inductive Content
  | tablet (t : Tablet)
  | file (f : SealedFile)
  | heartbeat (created : Nat)
  deriving DecidableEq, Repr

inductive Kind
  | tablet
  | file
  | heartbeat
  deriving DecidableEq, Repr

def Kind.name : Kind → String
  | .tablet => "tablet"
  | .file => "file"
  | .heartbeat => "heartbeat"

def Kind.title : Kind → String
  | .tablet => "Tablet"
  | .file => "File"
  | .heartbeat => "Heartbeat"

namespace Content

def kind : Content → Kind
  | .tablet _ => .tablet
  | .file _ => .file
  | .heartbeat _ => .heartbeat

def isBulk : Content → Bool
  | .file _ => true
  | _ => false

def isHeartbeat : Content → Bool
  | .heartbeat _ => true
  | _ => false

/-- Bytes counted for an event beside its payload. -/
def headerSize : Nat := 64

/-- Bytes an event takes while it is queued. The data of a file stays on disk. -/
def estimatedSize : Content → Nat
  | .tablet t => headerSize + t.payload.length + t.target.utf8ByteSize
  | .file _ | .heartbeat _ => headerSize

end Content

inductive EventError
  | invalidFileName (path : String)
  | notAFile (kind : Kind)
  deriving DecidableEq, Repr

def EventError.message : EventError → String
  | .invalidFileName path => "invalid file name: " ++ path
  | .notAFile kind => "expected a file event, got " ++ kind.name

namespace SealedFile

def nameOf (path : String) : Except EventError String :=
  match Path.fileName? path with
  | some name => .ok name
  | none => .error (.invalidFileName path)

def dataName (f : SealedFile) : Except EventError String := nameOf f.data

def modsName (f : SealedFile) : Except EventError (Option String) :=
  match f.mods with
  | none => .ok none
  | some path => (nameOf path).map some

end SealedFile

structure Event where
  content : Content
  pipe : String
  region : Int
  commit : CommitId
  progress : Nat
  deriving DecidableEq, Repr

namespace Event

def kind (e : Event) : Kind := e.content.kind

def isBulk (e : Event) : Bool := e.content.isBulk

def isHeartbeat (e : Event) : Bool := e.content.isHeartbeat

def size (e : Event) : Nat := e.content.estimatedSize

def belongsTo (e : Event) (pipe : String) (region : Int) : Bool :=
  e.region == region && e.pipe == pipe

theorem isBulk_of_file {e : Event} {f : SealedFile} (h : e.content = .file f) :
    e.isBulk = true := by
  rw [isBulk, h]
  rfl

theorem isBulk_of_tablet {e : Event} {t : Tablet} (h : e.content = .tablet t) :
    e.isBulk = false := by
  rw [isBulk, h]
  rfl

theorem isBulk_of_heartbeat {e : Event} {created : Nat} (h : e.content = .heartbeat created) :
    e.isBulk = false := by
  rw [isBulk, h]
  rfl

theorem isHeartbeat_of_heartbeat {e : Event} {created : Nat}
    (h : e.content = .heartbeat created) : e.isHeartbeat = true := by
  rw [isHeartbeat, h]
  rfl

/-- Only files are bulk. -/
theorem content_of_isBulk {e : Event} (h : e.isBulk = true) : ∃ f, e.content = .file f := by
  cases hcontent : e.content with
  | file f => exact ⟨f, rfl⟩
  | tablet t =>
      rw [isBulk_of_tablet hcontent] at h
      cases h
  | heartbeat created =>
      rw [isBulk_of_heartbeat hcontent] at h
      cases h

end Event

abbrev EventId := Nat

/-- A handle on an event. Two handles are on the same event when their ids agree. -/
structure EventRef where
  id : EventId
  event : Event
  deriving DecidableEq, Repr

namespace EventRef

def belongsTo (e : EventRef) (pipe : String) (region : Int) : Bool := e.event.belongsTo pipe region

end EventRef
end Courier
