/-!
Paths written with slashes. Empty parts and parts that are a single point say nothing, so a path
is the list of its other parts, from the root or from where it is used.
-/

namespace Courier
namespace Path

/-- What stands between the slashes. -/
def split (path : String) : List String := (path.toList.splitOn '/').map String.ofList

def parts (path : String) : List String :=
  (split path).filter fun part => part != "" && part != "."

/-- The last part, unless it steps up. -/
def fileName? (path : String) : Option String :=
  match (parts path).getLast? with
  | some name => if name = ".." then none else some name
  | none => none

/-- A path that begins in a directory, unless it begins at the root. -/
def join (directory path : String) : String :=
  if directory = "" || path.startsWith '/' then path
  else if directory.endsWith '/' then directory ++ path
  else directory ++ "/" ++ path

/-- The name is a part of its own, and neither stands for its directory nor steps up from it. -/
structure IsEntry (name : String) : Prop where
  single : '/' ∉ name.toList
  nonempty : name ≠ ""
  stays : name ≠ "."
  descends : name ≠ ".."

/-- What stands in front of a slash is read on its own. -/
theorem parts_slash (directory path : List Char) :
    parts (String.ofList (directory ++ '/' :: path)) =
      parts (String.ofList directory) ++ parts (String.ofList path) := by
  simp [parts, split, List.splitOn_append_cons_self]

theorem parts_eq_singleton {name : String} (h : IsEntry name) : parts name = [name] := by
  simp [parts, split, List.splitOn_eq_singleton h.single, h.nonempty, h.stays]

/-- An entry's path is that of the directory with the entry's name behind it. -/
theorem parts_join (directory : String) {name : String} (h : IsEntry name) :
    parts (join directory name) = parts directory ++ [name] := by
  have hstart : name.startsWith '/' = false := by
    rw [String.startsWith_char_eq_head?]
    cases hname : name.toList with
    | nil => rfl
    | cons first rest =>
        have hslash : first ≠ '/' := fun hfirst => h.single (by simp [hname, hfirst])
        simpa using hslash
  unfold join
  rw [hstart, Bool.or_false]
  split
  · rename_i hempty
    rw [of_decide_eq_true hempty, parts_eq_singleton h]
    rfl
  · split
    · rename_i hend
      rw [String.endsWith_char_eq_getLast?] at hend
      obtain ⟨above, habove⟩ := List.getLast?_eq_some_iff.mp (beq_iff_eq.mp hend)
      have hdirectory : parts directory = parts (String.ofList above) := by
        have hsplit := parts_slash above []
        rw [← habove, String.ofList_toList] at hsplit
        exact hsplit.trans (List.append_nil _)
      have hjoined : directory ++ name = String.ofList (above ++ '/' :: name.toList) :=
        String.toList_injective (by simp [habove])
      rw [hjoined, parts_slash, String.ofList_toList, parts_eq_singleton h, ← hdirectory]
    · have hjoined : directory ++ "/" ++ name =
          String.ofList (directory.toList ++ '/' :: name.toList) :=
        String.toList_injective (by simp)
      rw [hjoined, parts_slash, String.ofList_toList, String.ofList_toList, parts_eq_singleton h]

end Path
end Courier
