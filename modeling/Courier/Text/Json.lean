import Courier.Text.Quoted

/-!
Values of a machine-readable report and their text, which has no blanks and keeps the order of the
fields.
-/

namespace Courier
namespace Text

inductive Json
  | number (n : Nat)
  | text (s : String)
  | list (items : List Json)
  | object (fields : List (String × Json))

namespace Json

mutual

def render : Json → String
  | .number n => toString n
  | .text s => json s
  | .list items => "[" ++ String.intercalate "," (renderItems items) ++ "]"
  | .object fields => "\x7b" ++ String.intercalate "," (renderFields fields) ++ "\x7d"

def renderItems : List Json → List String
  | [] => []
  | item :: rest => render item :: renderItems rest

def renderFields : List (String × Json) → List String
  | [] => []
  | (name, value) :: rest => (json name ++ ":" ++ render value) :: renderFields rest

end

end Json
end Text
end Courier
