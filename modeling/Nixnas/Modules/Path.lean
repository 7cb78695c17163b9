import Nixnas.Logic.AttrSet

/-!
# Paths as strings

`lib.splitString` with a separator of one character, and the components of a
path: what is left of its pieces between the slashes when the empty ones are
dropped.
-/

set_option autoImplicit false

namespace Nixnas.Modules

/-- `lib.splitString`. -/
def splitString (sep : Char) (s : String) : List String :=
  (s.toList.splitOn sep).map String.ofList

/-- `lib.filter (p: p != "") (lib.splitString "/" path)`. -/
def components (path : String) : List String := (splitString '/' path).filter (· ≠ "")

/-- `"/" + lib.concatStringsSep "/" parts`. -/
def absolute (parts : List String) : String := "/" ++ String.intercalate "/" parts

theorem not_mem_of_mem_splitOn {α : Type} [BEq α] [LawfulBEq α] (sep : α) (xs : List α) :
    ∀ piece ∈ xs.splitOn sep, sep ∉ piece := by
  induction xs with
  | nil => simp
  | cons x xs ih =>
      rw [List.splitOn_cons_eq_if_modifyHead]
      split
      · simpa using ih
      · rename_i differs
        cases pieces : xs.splitOn sep with
        | nil => exact absurd pieces (List.splitOn_ne_nil sep xs)
        | cons first rest =>
            rw [pieces] at ih
            intro piece member
            rcases List.mem_cons.mp member with rfl | later
            · intro inside
              rcases List.mem_cons.mp inside with same | inside
              · subst same
                simp at differs
              · exact ih first List.mem_cons_self inside
            · exact ih piece (List.mem_cons_of_mem first later)

/-- No component holds a slash. -/
theorem not_mem_of_mem_components {path part : String} (member : part ∈ components path) :
    '/' ∉ part.toList := by
  have inside := List.mem_of_mem_filter member
  obtain ⟨piece, isPiece, rfl⟩ := List.mem_map.mp inside
  rw [String.toList_ofList]
  exact not_mem_of_mem_splitOn '/' _ piece isPiece

/-- Components are read back from the path they make. -/
theorem components_absolute {parts : List String} (apart : ∀ part ∈ parts, '/' ∉ part.toList)
    (nonempty : ∀ part ∈ parts, part ≠ "") : components (absolute parts) = parts := by
  have slash : ("/" : String).toList = ['/'] := rfl
  have split : (absolute parts).toList.splitOn '/' =
      [] :: ((['/'] : List Char).intercalate (parts.map String.toList)).splitOn '/' := by
    rw [absolute, String.toList_append, String.toList_intercalate, slash]
    exact List.splitOn_append_cons_self_of_not_mem (List.not_mem_nil) _
  rw [components, splitString, split]
  cases parts with
  | nil => rfl
  | cons first rest =>
      rw [List.splitOn_intercalate]
      · rw [List.map_cons, List.map_map, List.filter_cons_of_neg (by simp)]
        have same : (String.ofList ∘ String.toList) = id := by
          funext s
          exact String.ofList_toList
        rw [same, List.map_id]
        exact List.filter_eq_self.mpr fun part member => by simpa using nonempty part member
      · intro piece member
        obtain ⟨part, isPart, rfl⟩ := List.mem_map.mp member
        exact apart part isPart
      · simp

/-- The components of a path below another follow those of the other. -/
theorem components_below (front rest : String) :
    components (front ++ "/" ++ rest) = components front ++ components rest := by
  have slash : ("/" : String).toList = ['/'] := rfl
  rw [components, splitString, String.toList_append, String.toList_append, slash, List.append_assoc,
    List.singleton_append, List.splitOn_append_cons_self, List.map_append, List.filter_append]
  rfl

end Nixnas.Modules
