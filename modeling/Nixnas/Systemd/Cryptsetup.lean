import Mathlib.Algebra.Order.BigOperators.Group.List
import Mathlib.Logic.Relation
import Nixnas.Logic.Words

/-!
# Unit names, crypttab and chains of units

Unit-name escaping as systemd does it, the crypttab format of crypttab(5) and
the units its generator creates from a file, and the ordering of a list of
units in which each one is after the one before it.
-/

set_option autoImplicit false

namespace Nixnas.Systemd

open Nixnas.Logic

universe u

/-! ## Escaping -/

/-- The characters a unit name keeps. -/
def isPlain (c : Char) : Bool := c.isAlphanum || c = ':' || c = '_' || c = '.'

def hexDigit (n : Nat) : Char :=
  ['0', '1', '2', '3', '4', '5', '6', '7', '8', '9', 'a', 'b', 'c', 'd', 'e', 'f'].getD n '0'

def escapeByte (b : UInt8) : List Char :=
  ['\\', 'x', hexDigit (b.toNat / 16), hexDigit (b.toNat % 16)]

def escapeSpecial (c : Char) : List Char := (String.utf8EncodeChar c).flatMap escapeByte

def escapeChar (c : Char) : List Char :=
  if c = '/' then ['-'] else if isPlain c then [c] else escapeSpecial c

/-- A leading dot is escaped too. -/
def escapeChars : List Char → List Char
  | [] => []
  | c :: rest => (if c = '.' then escapeSpecial c else escapeChar c) ++ rest.flatMap escapeChar

def escape (name : String) : String := String.ofList (escapeChars name.toList)

/-- A character that is written as `\xNN` wherever it stands. -/
def Special (c : Char) : Prop := c ≠ '/' ∧ isPlain c = false

theorem escapeChar_of_special {c : Char} (special : Special c) :
    escapeChar c = escapeSpecial c := by
  rw [escapeChar, if_neg special.1, special.2]
  rfl

theorem escapeSpecial_head (c : Char) : ∃ rest, escapeSpecial c = '\\' :: 'x' :: rest := by
  rw [escapeSpecial]
  cases bytes : String.utf8EncodeChar c with
  | nil => exact absurd bytes String.utf8EncodeChar_ne_nil
  | cons b rest => exact ⟨_, rfl⟩

theorem escapeSpecial_length (c : Char) : 1 < (escapeSpecial c).length := by
  obtain ⟨rest, equation⟩ := escapeSpecial_head c
  simp [equation]

theorem escapeChar_length (c : Char) : 1 ≤ (escapeChar c).length := by
  unfold escapeChar
  split
  · simp
  · split
    · simp
    · exact (escapeSpecial_length c).le

theorem flatMap_escapeChar_length (chars : List Char) :
    chars.length ≤ (chars.flatMap escapeChar).length := by
  induction chars with
  | nil => simp
  | cons c rest ih =>
      have atHead := escapeChar_length c
      simp only [List.flatMap_cons, List.length_append, List.length_cons]
      omega

theorem flatMap_escapeChar_grows {chars : List Char} (special : ∃ c ∈ chars, Special c) :
    chars.length < (chars.flatMap escapeChar).length := by
  induction chars with
  | nil => simp at special
  | cons c rest ih =>
      simp only [List.flatMap_cons, List.length_append, List.length_cons]
      obtain ⟨d, member, isSpecial⟩ := special
      rcases List.mem_cons.mp member with rfl | later
      · have atHead := escapeSpecial_length d
        have atTail := flatMap_escapeChar_length rest
        rw [escapeChar_of_special isSpecial]
        omega
      · have atHead := escapeChar_length c
        have atTail := ih ⟨d, later, isSpecial⟩
        omega

theorem special_backslash : Special '\\' := ⟨by decide, by decide⟩

theorem special_dash : Special '-' := ⟨by decide, by decide⟩

theorem escapeSpecial_special (c : Char) : ∃ d ∈ escapeSpecial c, Special d := by
  obtain ⟨rest, equation⟩ := escapeSpecial_head c
  exact ⟨'\\', by simp [equation], special_backslash⟩

/-- A name with a special character grows and keeps one. -/
theorem escapeChars_grows {chars : List Char} (special : ∃ c ∈ chars, Special c) :
    chars.length < (escapeChars chars).length ∧ ∃ c ∈ escapeChars chars, Special c := by
  cases chars with
  | nil => simp at special
  | cons c rest =>
      obtain ⟨d, member, isSpecial⟩ := special
      simp only [escapeChars, List.length_append, List.length_cons, List.mem_append]
      by_cases dot : c = '.'
      · have atHead := escapeSpecial_length c
        have atTail := flatMap_escapeChar_length rest
        obtain ⟨e, inHead, headSpecial⟩ := escapeSpecial_special c
        rw [if_pos dot]
        exact ⟨by omega, e, .inl inHead, headSpecial⟩
      · rw [if_neg dot]
        have whole := flatMap_escapeChar_grows ⟨d, member, isSpecial⟩
        simp only [List.flatMap_cons, List.length_append, List.length_cons] at whole
        obtain ⟨e, inEscape, escapedSpecial⟩ := escapeSpecial_special d
        rw [← escapeChar_of_special isSpecial] at inEscape
        refine ⟨by omega, e, ?_, escapedSpecial⟩
        rcases List.mem_cons.mp member with rfl | later
        · exact .inl inEscape
        · exact .inr (List.mem_flatMap.mpr ⟨d, later, inEscape⟩)

theorem escapeChar_cases (c : Char) :
    escapeChar c = [c] ∨ ∃ d ∈ escapeChar c, Special d := by
  unfold escapeChar
  split
  · exact .inr ⟨'-', by simp, special_dash⟩
  · split
    · exact .inl rfl
    · exact .inr (escapeSpecial_special c)

theorem flatMap_escapeChar_cases (chars : List Char) :
    chars.flatMap escapeChar = chars ∨ ∃ c ∈ chars.flatMap escapeChar, Special c := by
  induction chars with
  | nil => exact .inl rfl
  | cons c rest ih =>
      rw [List.flatMap_cons]
      rcases escapeChar_cases c with kept | ⟨d, member, special⟩
      · rcases ih with same | ⟨d, member, special⟩
        · exact .inl (by rw [kept, same]; rfl)
        · exact .inr ⟨d, List.mem_append_right _ member, special⟩
      · exact .inr ⟨d, List.mem_append_left _ member, special⟩

/-- Escaping changes a name only by writing a special character into it. -/
theorem escapeChars_cases (chars : List Char) :
    escapeChars chars = chars ∨ ∃ c ∈ escapeChars chars, Special c := by
  cases chars with
  | nil => exact .inl rfl
  | cons c rest =>
      simp only [escapeChars, List.mem_append]
      by_cases dot : c = '.'
      · obtain ⟨d, member, special⟩ := escapeSpecial_special c
        exact .inr ⟨d, .inl (by rwa [if_pos dot]), special⟩
      · rw [if_neg dot]
        rcases escapeChar_cases c with kept | ⟨d, member, special⟩
        · rcases flatMap_escapeChar_cases rest with same | ⟨d, member, special⟩
          · exact .inl (by rw [kept, same]; rfl)
          · exact .inr ⟨d, .inr member, special⟩
        · exact .inr ⟨d, .inl member, special⟩

theorem escapeChar_of_not_plain {c : Char} (notPlain : isPlain c = false) :
    ∃ d ∈ escapeChar c, Special d := by
  rcases escapeChar_cases c with kept | special
  · by_cases slash : c = '/'
    · exact ⟨'-', by simp [escapeChar, slash], special_dash⟩
    · exact ⟨c, by simp [kept], slash, notPlain⟩
  · exact special

/-- A name that escaping leaves alone has plain characters only. -/
theorem plain_of_escape_fixed {name : String} (fixed : escape name = name) :
    ∀ c ∈ name.toList, isPlain c = true := by
  have fixedChars : escapeChars name.toList = name.toList := by
    rw [escape] at fixed
    rw [← String.toList_ofList (l := escapeChars name.toList), fixed]
  intro c member
  by_contra notPlain
  rw [Bool.not_eq_true] at notPlain
  have special : ∃ d ∈ escapeChars name.toList, Special d := by
    obtain ⟨d, inEscape, special⟩ := escapeChar_of_not_plain notPlain
    refine ⟨d, ?_, special⟩
    cases chars : name.toList with
    | nil => simp [chars] at member
    | cons head rest =>
        rw [chars] at member
        simp only [escapeChars, List.mem_append]
        rcases List.mem_cons.mp member with rfl | later
        · have noDot : c ≠ '.' := by
            rintro rfl
            revert notPlain
            decide
          rw [if_neg noDot]
          exact .inl inEscape
        · exact .inr (List.mem_flatMap.mpr ⟨c, later, inEscape⟩)
  rw [fixedChars] at special
  have grows := (escapeChars_grows special).1
  rw [fixedChars] at grows
  omega

/-- A function that changes a value only by marking it, and makes a marked one
longer, changes no value of a finite set that it maps into itself: there would be
ever longer ones in the set. -/
theorem fixed_of_closed {α : Type u} (f : α → α) (size : α → Nat) (marked : α → Prop)
    (moves : ∀ x, f x = x ∨ marked (f x))
    (grows : ∀ x, marked x → size x < size (f x) ∧ marked (f x)) {xs : List α}
    (closed : ∀ x ∈ xs, f x ∈ xs) (x : α) (member : x ∈ xs) : f x = x := by
  by_contra moved
  have isMarked : marked (f x) := (moves x).resolve_left moved
  have longer : ∀ k : Nat, ∃ found ∈ xs, k ≤ size found ∧ marked found := by
    intro k
    induction k with
    | zero => exact ⟨f x, closed x member, Nat.zero_le _, isMarked⟩
    | succ k ih =>
        obtain ⟨found, inXs, atLeast, foundMarked⟩ := ih
        obtain ⟨further, stillMarked⟩ := grows found foundMarked
        exact ⟨f found, closed found inXs, by omega, stillMarked⟩
  obtain ⟨found, inXs, tooLong, _⟩ := longer ((xs.map size).sum + 1)
  have bounded : size found ≤ (xs.map size).sum :=
    List.single_le_sum (by simp) _ (List.mem_map_of_mem inXs)
  omega

/-- A finite set of names that escaping maps into itself has only names that
escaping leaves alone. -/
theorem escape_fixed_of_closed {names : List String}
    (closed : ∀ name ∈ names, escape name ∈ names) (name : String) (member : name ∈ names) :
    escape name = name := by
  refine fixed_of_closed escape (fun name => name.toList.length)
    (fun name => ∃ c ∈ name.toList, Special c) ?_ ?_ closed name member
  · intro name
    rcases escapeChars_cases name.toList with same | special
    · left
      rw [escape, same, String.ofList_toList]
    · right
      rwa [escape, String.toList_ofList]
  · intro name special
    rw [escape, String.toList_ofList]
    exact escapeChars_grows special

/-! ## crypttab -/

def isSpace (c : Char) : Bool :=
  c = ' ' || c = '\t' || c = '\n' || c = '\x0b' || c = '\x0c' || c = '\r'

structure CrypttabEntry where
  volume : String
  source : String
  deriving DecidableEq, Repr

def fields (line : List Char) : List (List Char) :=
  (line.splitOnP isSpace).filter fun field => !field.isEmpty

theorem fields_eq (line : List Char) : fields line = fieldsBy isSpace line := rfl

/-- Two to four fields; a line that starts with `#` is a comment. -/
def crypttabLine (line : List Char) : Option CrypttabEntry :=
  match fields line with
  | volume :: source :: rest =>
      if volume.head? = some '#' ∨ 2 < rest.length then none
      else some ⟨String.ofList volume, String.ofList source⟩
  | _ => none

def crypttabEntries (text : String) : List CrypttabEntry :=
  (text.toList.splitOn '\n').filterMap crypttabLine

/-- The unit the generator creates for a volume. -/
def cryptsetupUnit (volume : String) : String :=
  "systemd-cryptsetup@" ++ escape volume ++ ".service"

def generatedUnits (text : String) : List String :=
  (crypttabEntries text).map fun entry => cryptsetupUnit entry.volume

/-- What a crypttab line names is not empty and holds no white space. -/
theorem crypttabEntries_spec {text : String} {entry : CrypttabEntry}
    (member : entry ∈ crypttabEntries text) :
    entry.volume ≠ "" ∧ ∀ c ∈ entry.source.toList, isSpace c = false := by
  obtain ⟨line, _, parsed⟩ := List.mem_filterMap.mp member
  have field : ∀ part ∈ fields line, part ≠ [] ∧ ∀ c ∈ part, isSpace c = false := by
    intro part inFields
    obtain ⟨inSplit, notEmpty⟩ := List.mem_filter.mp inFields
    exact ⟨by simpa using notEmpty, splitOnP_part isSpace line part inSplit⟩
  simp only [crypttabLine] at parsed
  split at parsed
  · rename_i volume source rest split
    split at parsed
    · contradiction
    · cases parsed
      rw [split] at field
      refine ⟨?_, ?_⟩
      · intro empty
        exact (field volume (by simp)).1 (String.ofList_eq_empty_iff.mp empty)
      · rw [String.toList_ofList]
        exact (field source (by simp)).2
  · contradiction

/-- A line of four words is read back. -/
theorem crypttabLine_words {volume source keyFile options : List Char}
    (words : ∀ word ∈ [volume, source, keyFile, options],
      word ≠ [] ∧ ∀ c ∈ word, isSpace c = false)
    (noComment : volume.head? ≠ some '#') :
    crypttabLine (volume ++ ' ' :: (source ++ ' ' :: (keyFile ++ ' ' :: options))) =
      some ⟨String.ofList volume, String.ofList source⟩ := by
  simp only [List.mem_cons, List.not_mem_nil, or_false, forall_eq_or_imp, forall_eq] at words
  obtain ⟨⟨volumeWord, volumeSpace⟩, ⟨sourceWord, sourceSpace⟩, ⟨keyWord, keySpace⟩,
    optionsWord, optionsSpace⟩ := words
  have blank : isSpace ' ' = true := rfl
  rw [crypttabLine, fields_eq, fieldsBy_cons blank _ volumeWord volumeSpace,
    fieldsBy_cons blank _ sourceWord sourceSpace, fieldsBy_cons blank _ keyWord keySpace,
    fieldsBy_word optionsWord optionsSpace]
  simp [noComment]

/-- The entries of a file of lines are the entries of its lines. -/
theorem mem_crypttabEntries_lines {lines : List String} (some : lines ≠ [])
    (noBreak : ∀ line ∈ lines, '\n' ∉ line.toList) (entry : CrypttabEntry) :
    entry ∈ crypttabEntries (String.intercalate "\n" lines ++ "\n") ↔
      ∃ line ∈ lines, crypttabLine line.toList = .some entry := by
  have chars : (String.intercalate "\n" lines ++ "\n").toList.splitOn '\n' =
      lines.map String.toList ++ [[]] := by
    rw [String.toList_append, String.toList_intercalate]
    apply splitOn_lines
    · simpa using some
    · simpa using noBreak
  have blank : crypttabLine [] = none := rfl
  rw [crypttabEntries, chars, List.filterMap_append, List.mem_append, List.mem_filterMap]
  simp [blank]

theorem isPlain_not_space {c : Char} (plain : isPlain c = true) : isSpace c = false := by
  by_contra space
  simp only [isSpace, Bool.or_eq_true, decide_eq_true_eq, Bool.not_eq_false] at space
  revert plain
  rcases space with ((((rfl | rfl) | rfl) | rfl) | rfl) | rfl <;> decide

/-! ## Chains -/

section Chain

variable {Unit : Type u} {units : List Unit}

/-- Each unit of the list is after the one before it. -/
def ChainEdge (units : List Unit) (later earlier : Unit) : Prop :=
  ∃ i, units[i + 1]? = some later ∧ units[i]? = some earlier

theorem position_unique (distinct : units.Nodup) {i j : Nat} {unit : Unit}
    (atFirst : units[i]? = some unit) (atSecond : units[j]? = some unit) : i = j := by
  obtain ⟨inBounds, _⟩ := List.getElem?_eq_some_iff.mp atFirst
  exact (List.getElem?_inj inBounds distinct).mp (atFirst.trans atSecond.symm)

theorem chain_descends (distinct : units.Nodup) {later earlier : Unit}
    (path : Relation.TransGen (ChainEdge units) later earlier) :
    ∃ i j : Nat, j < i ∧ units[i]? = some later ∧ units[j]? = some earlier := by
  induction path with
  | single edge =>
      obtain ⟨i, atLater, atEarlier⟩ := edge
      exact ⟨i + 1, i, Nat.lt_succ_self i, atLater, atEarlier⟩
  | tail _ edge ih =>
      obtain ⟨i, j, less, atLater, atMiddle⟩ := ih
      obtain ⟨k, atMiddleAgain, atEarlier⟩ := edge
      have same : j = k + 1 := position_unique distinct atMiddle atMiddleAgain
      exact ⟨i, k, by omega, atLater, atEarlier⟩

theorem chain_acyclic (distinct : units.Nodup) (unit : Unit) :
    ¬ Relation.TransGen (ChainEdge units) unit unit := by
  intro path
  obtain ⟨i, j, less, atFirst, atSecond⟩ := chain_descends distinct path
  have same : i = j := position_unique distinct atFirst atSecond
  omega

theorem chain_ordered {i j : Nat} (less : j < i) {later earlier : Unit}
    (atLater : units[i]? = some later) (atEarlier : units[j]? = some earlier) :
    Relation.TransGen (ChainEdge units) later earlier := by
  induction i generalizing later with
  | zero => omega
  | succ i ih =>
      by_cases adjacent : j = i
      · subst j
        exact .single ⟨i, atLater, atEarlier⟩
      · obtain ⟨inBounds, _⟩ := List.getElem?_eq_some_iff.mp atLater
        have atMiddle : units[i]? = some units[i] := List.getElem?_eq_getElem _
        exact .head ⟨i, atLater, atMiddle⟩ (ih (by omega) atMiddle)

/-- Any two units of a chain are ordered one way or the other. -/
theorem chain_total {first second : Unit} (inFirst : first ∈ units) (inSecond : second ∈ units)
    (different : first ≠ second) :
    Relation.TransGen (ChainEdge units) first second ∨
      Relation.TransGen (ChainEdge units) second first := by
  obtain ⟨i, atFirst⟩ := List.mem_iff_getElem?.mp inFirst
  obtain ⟨j, atSecond⟩ := List.mem_iff_getElem?.mp inSecond
  rcases Nat.lt_trichotomy i j with less | same | greater
  · exact .inr (chain_ordered less atSecond atFirst)
  · subst j
    exact absurd (Option.some.inj (atFirst.symm.trans atSecond)) different
  · exact .inl (chain_ordered greater atFirst atSecond)

end Chain

end Nixnas.Systemd
