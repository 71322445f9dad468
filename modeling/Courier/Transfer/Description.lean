import Courier.Disk
import Courier.Transfer.Message

/-!
What can be announced of the file at a path: its name, and the length it has now. The file is looked
up before its name is taken from the path.
-/

namespace Courier
namespace Transfer

inductive DescriptionError
  | metadata (path : String) (kind : IoKind)
  | event (error : EventError)
  deriving DecidableEq, Repr

def FileMeta.ofPath (d : Disk) (path : String) : Except DescriptionError FileMeta :=
  match d.length path with
  | .error kind => .error (.metadata path kind)
  | .ok length =>
      match SealedFile.nameOf path with
      | .error error => .error (.event error)
      | .ok name => .ok { name, length }

end Transfer
end Courier
