/-!
Byte strings as lists, with the two encodings that requests are built from: the UTF-8 bytes of a
text and the four bytes of a number, most significant first.
-/

namespace Courier

abbrev Bytes := List UInt8

namespace Bytes

def ofText (s : String) : Bytes := s.toUTF8.toList

def bigEndian32 (n : Nat) : Bytes :=
  [(n / Nat.pow 2 24).toUInt8, (n / Nat.pow 2 16).toUInt8, (n / Nat.pow 2 8).toUInt8, n.toUInt8]

/-- The bytes from `offset` on, at most `count` of them. -/
def slice (bs : Bytes) (offset count : Nat) : Bytes := (bs.drop offset).take count

@[simp] theorem length_bigEndian32 (n : Nat) : (bigEndian32 n).length = 4 := rfl

theorem length_slice (bs : Bytes) (offset count : Nat) :
    (slice bs offset count).length = min count (bs.length - offset) := by
  simp [slice]

end Bytes
end Courier
