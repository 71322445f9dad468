import Courier.Event

/-!
What an operation answers to whoever asked for it; `E` is what can go wrong there. The stages of a
pipe answer in one vocabulary, so that a history of operations on any of them reads alike.
-/

namespace Courier

inductive Reply (E : Type)
  | done
  /-- It was done, and could have been refused. -/
  | granted
  | flag (b : Bool)
  | count (n : Nat)
  | pause (ms : Nat)
  | text (s : String)
  | event (e : Option EventRef)
  | events (es : List EventRef)
  /-- Events that go to a sender, with their encoding. -/
  | parcel (events : List EventRef) (payload : Bytes)
  /-- Whether what was waited for came about, and how long that took. -/
  | waited (b : Bool) (ms : Nat)
  | failure (error : E)
  /-- What it was asked of is not there any more. -/
  | gone

namespace Reply

variable {E α : Type}

/-- The answer to something that could have failed. -/
def ofExcept (answer : α → Reply E) : Except E α → Reply E
  | .ok a => answer a
  | .error error => .failure error

end Reply
end Courier
