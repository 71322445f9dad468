import Courier.Config.Field

/-!
A configuration written out for reading, a field to a line. Sections and words are capitalised.
-/

namespace Courier
namespace Config

def Setting.listed : Setting → String
  | .number n => toString n
  | .flag b => toString b
  | .word s => s.capitalize
  | .duration d => d.text

/-- A section of the listing, with its fields indented. -/
def listedSection (name : String) (fields : List (String × Setting)) : List String :=
  ["    " ++ name ++ ": " ++ name.capitalize ++ "Config \x7b"] ++
    fields.map (fun (name, value) => "        " ++ name ++ ": " ++ value.listed ++ ",") ++
    ["    \x7d,"]

def listing (c : Config) : List String :=
  ["Config \x7b"] ++ c.settings.flatMap (fun (name, fields) => listedSection name fields) ++
    ["\x7d"]

end Config
end Courier
