/-!
Unsigned 64-bit counters as natural numbers below `Word.size`: a sum wraps, and a difference stops
at zero as subtraction of natural numbers does.
-/

namespace Courier
namespace Word

def size : Nat := 0x10000000000000000

def max : Nat := size - 1

/-- The sum of two words, taken modulo the word size. -/
def add (a b : Nat) : Nat := (a + b) % size

def clamp (n : Nat) : Nat := min n max

theorem add_of_lt {a b : Nat} (h : a + b < size) : add a b = a + b :=
  Nat.mod_eq_of_lt h

theorem add_lt (a b : Nat) : add a b < size :=
  Nat.mod_lt _ (by simp [size])

/-- A counter moves on, also where it wraps. -/
theorem add_one_ne (n : Nat) : add n 1 ≠ n := by
  intro hsame
  have hlt := add_lt n 1
  rw [hsame] at hlt
  simp only [add, size] at hsame hlt
  omega

/-- A counter that goes on twice goes on by the sum. -/
theorem moves_trans {a b c m n : Nat} (h : a < size → b = (a + m) % size)
    (h' : b < size → c = (b + n) % size) (word : a < size) : c = (a + (m + n)) % size := by
  have hword : b < size := by
    rw [h word]
    exact add_lt a m
  rw [h' hword, h word, Nat.mod_add_mod, Nat.add_assoc]

end Word
end Courier
