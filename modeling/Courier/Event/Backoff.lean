import Courier.Word

/-!
The pause before a failed event is tried again, in milliseconds. It doubles up to a ceiling; an
interval that cannot be doubled becomes the ceiling at once.
-/

namespace Courier
namespace Backoff

def ceiling : Nat := 20000

/-- The pause of an event that nobody has set one for. -/
def standard : Nat := 1000

def clamp (ms : Nat) : Nat := min ms ceiling

def next (ms : Nat) : Nat :=
  if ms = 0 || Word.size ≤ 2 * ms then ceiling else min (2 * ms) ceiling

theorem next_of_pos {ms : Nat} (h : 0 < ms) : next ms = min (2 * ms) ceiling := by
  have hsize : Word.size = 18446744073709551616 := rfl
  simp only [next, Bool.or_eq_true, decide_eq_true_eq, ceiling, hsize]
  split <;> omega

end Backoff
end Courier
