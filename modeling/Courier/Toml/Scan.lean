/-!
The smallest parts of a TOML document: blanks, line ends and comments. A reading step takes the
characters that are left and returns what it read with what is left after it.
-/

namespace Courier
namespace Toml

abbrev Step (α : Type) := List Char → Option (α × List Char)

def isBlank (c : Char) : Bool := c = ' ' || c = '\t'

/-- Control characters other than the tab stand nowhere in a document. -/
def isPlain (c : Char) : Bool := c = '\t' || (0x20 ≤ c.toNat && c.toNat ≠ 0x7f)

def skipBlanks (s : List Char) : List Char := s.dropWhile isBlank

def newline? : List Char → Option (List Char)
  | '\n' :: rest => some rest
  | '\x0d' :: '\n' :: rest => some rest
  | _ => none

/-- What is left after the end of a line or of the document. -/
def lineEnd? (s : List Char) : Option (List Char) := if s.isEmpty then some [] else newline? s

def skipComment : List Char → List Char
  | '#' :: rest => rest.dropWhile isPlain
  | s => s

/-- What is left after the rest of a line that says no more. -/
def restOfLine? (s : List Char) : Option (List Char) := lineEnd? (skipComment (skipBlanks s))

def skipSpace : Bool → List Char → List Char
  | _, [] => []
  | true, c :: rest => if isPlain c then skipSpace true rest else
      match c, rest with
      | '\n', rest => skipSpace false rest
      | '\x0d', '\n' :: rest => skipSpace false rest
      | c, rest => c :: rest
  | false, c :: rest =>
      if isBlank c then skipSpace false rest
      else
        match c, rest with
        | '#', rest => skipSpace true rest
        | '\n', rest => skipSpace false rest
        | '\x0d', '\n' :: rest => skipSpace false rest
        | c, rest => c :: rest

def skip? (c : Char) : List Char → Option (List Char)
  | d :: rest => if d = c then some rest else none
  | [] => none

end Toml
end Courier
