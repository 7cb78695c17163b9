import Nixnas.Modules.Path
import Nixnas.Systemd.Cryptsetup

/-!
# Mount units and the start of units

The name of the unit that mounts something at a path, and the orders in which
units with ordering dependencies may be started.
-/

set_option autoImplicit false

namespace Nixnas.Systemd

open Nixnas.Modules (components absolute)

/-! ## Names of mount units -/

/-- The components of a simplified path. -/
def pathParts (path : String) : List String := (components path).filter (· ≠ ".")

/-- `unit_name_path_escape`; a path that leads upwards has none. -/
def escapePath (path : String) : Option String :=
  let parts := pathParts path
  if parts = [] then some "-"
  else if ".." ∈ parts then none
  else some (escape (String.intercalate "/" parts))

def mountUnit (path : String) : Option String := (escapePath path).map (· ++ ".mount")

/-- The escape of what does not stand first in a path. -/
def escapeInside (name : String) : String := String.ofList (name.toList.flatMap escapeChar)

/-- What a directory may be called. -/
structure DirName (name : String) : Prop where
  some : name ≠ ""
  notHere : name ≠ "."
  notUp : name ≠ ".."
  noSlash : '/' ∉ name.toList
  noNul : '\x00' ∉ name.toList

/-- The characters of the name are all kept by an escape. -/
def Plain (name : String) : Prop := ∀ c ∈ name.toList, isPlain c = true

theorem plain_iff_all {name : String} : Plain name ↔ name.toList.all isPlain = true :=
  List.all_eq_true.symm

theorem escapeChar_of_plain {c : Char} (plain : isPlain c = true) : escapeChar c = [c] := by
  have notSlash : c ≠ '/' := by
    rintro rfl
    revert plain
    decide
  rw [escapeChar, if_neg notSlash, if_pos plain]

theorem escapeInside_of_plain {name : String} (plain : Plain name) : escapeInside name = name := by
  have kept : ∀ chars : List Char, (∀ c ∈ chars, isPlain c = true) →
      chars.flatMap escapeChar = chars := by
    intro chars
    induction chars with
    | nil => exact fun _ => rfl
    | cons c rest ih =>
        intro each
        rw [List.flatMap_cons, escapeChar_of_plain (each c List.mem_cons_self),
          ih fun d member => each d (List.mem_cons_of_mem c member)]
        rfl
  rw [escapeInside, kept _ plain, String.ofList_toList]

theorem escapeInside_cases (name : String) :
    escapeInside name = name ∨ ∃ c ∈ (escapeInside name).toList, Special c := by
  rw [escapeInside, String.toList_ofList]
  rcases flatMap_escapeChar_cases name.toList with same | special
  · left
    rw [same, String.ofList_toList]
  · exact Or.inr special

theorem escapeInside_grows {name : String} (special : ∃ c ∈ name.toList, Special c) :
    name.toList.length < (escapeInside name).toList.length ∧
      ∃ c ∈ (escapeInside name).toList, Special c := by
  rw [escapeInside, String.toList_ofList]
  have grows := flatMap_escapeChar_grows special
  refine ⟨grows, ?_⟩
  rcases flatMap_escapeChar_cases name.toList with same | stillSpecial
  · rw [same] at grows
    exact absurd grows (Nat.lt_irrefl _)
  · exact stillSpecial

/-- An escape that changes nothing met plain characters only. -/
theorem plain_of_escapeInside_fixed {name : String} (fixed : escapeInside name = name) :
    Plain name := by
  intro c member
  by_contra notPlain
  rw [Bool.not_eq_true] at notPlain
  obtain ⟨d, inEscape, special⟩ := escapeChar_of_not_plain notPlain
  have inName : d ∈ name.toList := by
    rw [← fixed, escapeInside, String.toList_ofList]
    exact List.mem_flatMap.mpr ⟨c, member, inEscape⟩
  have grows := (escapeInside_grows ⟨d, inName, special⟩).1
  rw [fixed] at grows
  exact absurd grows (Nat.lt_irrefl _)

/-- Names whose escapes are all among them are plain. -/
theorem plain_of_closed {names : List String} (closed : ∀ name ∈ names, escapeInside name ∈ names)
    (name : String) (member : name ∈ names) : Plain name := by
  apply plain_of_escapeInside_fixed
  exact fixed_of_closed escapeInside (fun name => name.toList.length)
    (fun name => ∃ c ∈ name.toList, Special c) escapeInside_cases (fun _ => escapeInside_grows) closed
    name member

/-- What follows another part of a path is escaped by itself. -/
theorem escape_append {parent : String} (some : parent ≠ "") (name : String) :
    escape (parent ++ name) = escape parent ++ escapeInside name := by
  rw [← String.toList_inj]
  simp only [escape, escapeInside, String.toList_append, String.toList_ofList]
  cases chars : parent.toList with
  | nil => exact absurd (String.toList_eq_nil_iff.mp chars) some
  | cons c rest => simp only [escapeChars, List.cons_append, List.flatMap_append, List.append_assoc]

theorem mountUnit_of_parts {path : String} {parts : List String} (isParts : pathParts path = parts)
    (some : parts ≠ []) (down : ".." ∉ parts) :
    mountUnit path = .some (escape (String.intercalate "/" parts) ++ ".mount") := by
  rw [mountUnit, escapePath, isParts]
  simp [some, down]

/-! ## Start orders -/

/-- The edges that a unit's `Before=` and `After=` put into the ordering. -/
def Edge (unit : String) (before after : List String) (first second : String) : Prop :=
  (first = unit ∧ second ∈ before) ∨ (second = unit ∧ first ∈ after)

/-- The units in the order in which they start: one that is ordered before another
comes first. -/
def Respects (edge : String → String → Prop) (order : List String) : Prop :=
  ∀ first second, edge first second → ∀ i j : Nat, order[i]? = some first → order[j]? = some second → i < j

end Nixnas.Systemd
