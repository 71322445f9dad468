import Courier.Toml.Scan

/-!
Texts in a TOML document. Between double quotes a backslash begins an escape; between single quotes
everything stands for itself. Three quotes begin a text of several lines, in which a line end right
after the quotes does not count and up to two quotes may stand together.
-/

namespace Courier
namespace Toml
namespace Text

def hexValue? (c : Char) : Option Nat :=
  if '0' ≤ c && c ≤ '9' then some (c.toNat - '0'.toNat)
  else if 'a' ≤ c && c ≤ 'f' then some (c.toNat - 'a'.toNat + 10)
  else if 'A' ≤ c && c ≤ 'F' then some (c.toNat - 'A'.toNat + 10)
  else none

/-- The character with a number written in hexadecimal digits, if there is one. -/
def codePoint? (digits : List Char) : Option Char := do
  let n ← digits.foldlM (fun n c => (hexValue? c).map fun d => 16 * n + d) 0
  if h : n.isValidChar then some (Char.ofNatAux n h) else none

/-- The character that a short escape stands for. -/
def escape? : Char → Option Char
  | 'b' => some '\x08'
  | 'f' => some '\x0c'
  | 'n' => some '\n'
  | 'r' => some '\x0d'
  | 't' => some '\t'
  | '\\' => some '\\'
  | '"' => some '"'
  | _ => none

def close (read rest : List Char) : Option (String × List Char) :=
  some (String.ofList read.reverse, rest)

/-- A text of one line in double quotes, after the first quote. `read` is reversed. -/
def basic (read : List Char) : Step String
  | '"' :: rest => close read rest
  | '\\' :: 'u' :: a :: b :: c :: d :: rest =>
      match codePoint? [a, b, c, d] with
      | some x => basic (x :: read) rest
      | none => none
  | '\\' :: 'U' :: a :: b :: c :: d :: e :: f :: g :: h :: rest =>
      match codePoint? [a, b, c, d, e, f, g, h] with
      | some x => basic (x :: read) rest
      | none => none
  | '\\' :: c :: rest =>
      match escape? c with
      | some x => basic (x :: read) rest
      | none => none
  | c :: rest => if isPlain c && c ≠ '\\' then basic (c :: read) rest else none
  | [] => none

/-- A text of one line in single quotes, after the first quote. -/
def literal (read : List Char) : Step String
  | '\'' :: rest => close read rest
  | c :: rest => if isPlain c then literal (c :: read) rest else none
  | [] => none

/-- Only blanks stand between here and the end of the line. -/
def endsLine (s : List Char) : Bool := (newline? (skipBlanks s)).isSome

/-- A text of several lines in double quotes. After a backslash at the end of a line, `joining`, all
blanks and line ends are left out. -/
def basicLines (joining : Bool) (read : List Char) : Step String
  | '"' :: '"' :: '"' :: '"' :: '"' :: rest => close ('"' :: '"' :: read) rest
  | '"' :: '"' :: '"' :: '"' :: rest => close ('"' :: read) rest
  | '"' :: '"' :: '"' :: rest => close read rest
  | '\\' :: 'u' :: a :: b :: c :: d :: rest =>
      match codePoint? [a, b, c, d] with
      | some x => basicLines false (x :: read) rest
      | none => none
  | '\\' :: 'U' :: a :: b :: c :: d :: e :: f :: g :: h :: rest =>
      match codePoint? [a, b, c, d, e, f, g, h] with
      | some x => basicLines false (x :: read) rest
      | none => none
  | '\\' :: c :: rest =>
      if endsLine (c :: rest) then
        match c, rest with
        | '\x0d', '\n' :: rest => basicLines true read rest
        | _, rest => basicLines true read rest
      else
        match escape? c with
        | some x => basicLines false (x :: read) rest
        | none => none
  | '\x0d' :: '\n' :: rest => basicLines joining (if joining then read else '\n' :: read) rest
  | c :: rest =>
      if joining && (isBlank c || c = '\n') then basicLines true read rest
      else if c = '\n' || (isPlain c && c ≠ '\\') then basicLines false (c :: read) rest
      else none
  | [] => none

/-- A text of several lines in single quotes. -/
def literalLines (read : List Char) : Step String
  | '\'' :: '\'' :: '\'' :: '\'' :: '\'' :: rest => close ('\'' :: '\'' :: read) rest
  | '\'' :: '\'' :: '\'' :: '\'' :: rest => close ('\'' :: read) rest
  | '\'' :: '\'' :: '\'' :: rest => close read rest
  | '\x0d' :: '\n' :: rest => literalLines ('\n' :: read) rest
  | c :: rest => if c = '\n' || isPlain c then literalLines (c :: read) rest else none
  | [] => none

def read : Step String
  | '"' :: '"' :: '"' :: rest => basicLines false [] ((newline? rest).getD rest)
  | '"' :: rest => basic [] rest
  | '\'' :: '\'' :: '\'' :: rest => literalLines [] ((newline? rest).getD rest)
  | '\'' :: rest => literal [] rest
  | _ => none

end Text
end Toml
end Courier
