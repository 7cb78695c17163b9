import Nixnas.Logic.Words

/-!
# Words of a shell command

How a shell splits a simple command without quotes and expansions into its
words: a backslash before a line break joins two lines, and blanks separate.
A command with a character that means more than itself has no words here.
-/

set_option autoImplicit false

namespace Nixnas.Logic.Shell

def isBlank (c : Char) : Bool := c = ' ' || c = '\t'

def metacharacters : List Char := "|&;()<>$'\"\\*?[]#~=%!^\n\r\x60\x7b\x7d".toList

/-- A character that stands for itself. -/
def isLiteral (c : Char) : Bool := !isBlank c && !metacharacters.contains c

def joinLines : List Char → List Char
  | [] => []
  | [c] => [c]
  | c :: d :: rest =>
      if c = '\\' ∧ d = '\n' then joinLines rest else c :: joinLines (d :: rest)

def fields (line : List Char) : List (List Char) := fieldsBy isBlank line

/-- The line without the break at its end. -/
def dropBreak (line : List Char) : List Char :=
  if line.getLast? = some '\n' then line.dropLast else line

/-- The words of a simple command. -/
def words (text : String) : Option (List String) :=
  let line := dropBreak (joinLines text.toList)
  if line.all fun c => isBlank c || isLiteral c then some ((fields line).map String.ofList) else none

/-! ## Joined lines -/

theorem joinLines_cons {c : Char} (other : c ≠ '\\') (rest : List Char) :
    joinLines (c :: rest) = c :: joinLines rest := by
  cases rest with
  | nil => rfl
  | cons d rest =>
      rw [joinLines, if_neg]
      rintro ⟨same, _⟩
      exact other same

/-- A text without a backslash stays as it is. -/
theorem joinLines_of_noBackslash {chars : List Char} (none : '\\' ∉ chars) :
    joinLines chars = chars := by
  induction chars with
  | nil => rfl
  | cons c rest ih =>
      rw [List.mem_cons, not_or] at none
      rw [joinLines_cons (Ne.symm none.1), ih none.2]

theorem joinLines_append {chars : List Char} (ended : chars.getLast? ≠ some '\\')
    (rest : List Char) : joinLines (chars ++ rest) = joinLines chars ++ joinLines rest := by
  induction chars using joinLines.induct with
  | case1 => rfl
  | case2 c =>
      have other : c ≠ '\\' := by simpa using ended
      rw [List.singleton_append, joinLines_cons other]
      rfl
  | case3 c d more broken ih =>
      rw [List.cons_append, List.cons_append, joinLines, if_pos broken, joinLines, if_pos broken]
      apply ih
      obtain ⟨rfl, rfl⟩ := broken
      cases more with
      | nil => simp
      | cons e more => simpa using ended
  | case4 c d more whole ih =>
      rw [List.cons_append, List.cons_append, joinLines, if_neg whole, joinLines, if_neg whole,
        ← List.cons_append, ih, List.cons_append]
      simpa using ended

/-! ## Words -/

theorem fields_append (line rest : List Char) :
    fields (line ++ ' ' :: rest) = fields line ++ fields rest :=
  fieldsBy_append rfl line rest

theorem words_of_line {text : String} {line : List Char}
    (joined : joinLines text.toList = line ++ ['\n'])
    (plain : ∀ c ∈ line, (isBlank c || isLiteral c) = true) :
    words text = some ((fields line).map String.ofList) := by
  have isLine : dropBreak (line ++ ['\n']) = line := by
    rw [dropBreak, List.getLast?_concat, if_pos rfl, List.dropLast_concat]
  have allPlain : (line.all fun c => isBlank c || isLiteral c) = true := List.all_eq_true.mpr plain
  rw [words, joined, isLine, if_pos allPlain]

end Nixnas.Logic.Shell
