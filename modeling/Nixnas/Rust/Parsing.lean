import Nixnas.Logic.Words
import Nixnas.Rust.Text

/-!
# Reading text back

What the string operations find in a text that is put together from known parts:
a word at its start, a line of it, what stands behind a prefix, a number.
-/

set_option autoImplicit false

namespace Nixnas.Rust

open Nixnas.Logic

/-! ## Trimming -/

theorem trim_of_ends {s : String} (head : ∀ c ∈ s.toList.head?, isWhitespace c = false)
    (last : ∀ c ∈ s.toList.getLast?, isWhitespace c = false) : trim s = s := by
  have same := (trimEnds_eq_self_iff s.toList).mpr ⟨head, last⟩
  change String.ofList (trimEnds isWhitespace s.toList) = s
  rw [same, String.ofList_toList]

theorem trim_trim (s : String) : trim (trim s) = trim s := by
  change String.ofList (trimEnds isWhitespace (String.ofList (trimEnds isWhitespace s.toList)).toList) = _
  rw [String.toList_ofList, trimEnds_trimEnds]
  rfl

theorem trim_blank (s : String) : trim (" " ++ s) = trim s := by
  have blank : (" " ++ s).toList.dropWhile isWhitespace = s.toList.dropWhile isWhitespace := by
    rw [String.toList_append]
    exact List.dropWhile_cons_of_pos (by decide)
  rw [trim, trim, blank]

/-- What is between two characters comes back without them exactly when it has none
of them at its own ends. -/
theorem trimMatches_quoted (quote : Char) (s : String) :
    trimMatches (String.singleton quote ++ s ++ String.singleton quote) quote = s ↔
      s.toList.head? ≠ some quote ∧ s.toList.getLast? ≠ some quote := by
  have quoted : (String.singleton quote ++ s ++ String.singleton quote).toList =
      quote :: (s.toList ++ [quote]) := by
    simp [String.toList_append]
  change String.ofList (trimEnds (fun c => decide (c = quote)) _) = s ↔ _
  rw [quoted, trimEnds_surround (by simp)]
  have back : String.ofList (trimEnds (fun c => decide (c = quote)) s.toList) = s ↔
      trimEnds (fun c => decide (c = quote)) s.toList = s.toList := by
    rw [← String.toList_inj, String.toList_ofList]
  rw [back, trimEnds_eq_self_iff]
  constructor
  · rintro ⟨head, last⟩
    refine ⟨fun isQuote => ?_, fun isQuote => ?_⟩
    · simpa using head quote isQuote
    · simpa using last quote isQuote
  · rintro ⟨head, last⟩
    refine ⟨fun c isHead => ?_, fun c isLast => ?_⟩
    · simpa using fun same : c = quote => head (same ▸ isHead)
    · simpa using fun same : c = quote => last (same ▸ isLast)

/-! ## Prefixes -/

theorem stripPrefix_append (label rest : String) : stripPrefix (label ++ rest) label = some rest := by
  have starts : startsWith (label ++ rest) label = true := by
    rw [startsWith, String.toList_append, List.isPrefixOf_iff_prefix]
    exact List.prefix_append _ _
  rw [stripPrefix, if_pos starts, String.toList_append, List.drop_left, String.ofList_toList]

/-- Two texts that differ at some place. -/
def differ (xs ys : List Char) : Bool := (xs.zip ys).any fun pair => pair.1 ≠ pair.2

theorem not_prefix_of_differ {xs ys : List Char} (differs : differ xs ys = true) (rest : List Char) :
    ¬ ys <+: xs ++ rest := by
  induction xs generalizing ys with
  | nil => cases differs
  | cons x xs ih =>
      cases ys with
      | nil => cases differs
      | cons y ys =>
          intro isPrefix
          obtain ⟨same, isPrefix⟩ := List.cons_prefix_cons.mp isPrefix
          apply ih _ isPrefix
          simpa [differ, same] using differs

theorem stripPrefix_of_differ {start label : String} (differs : differ start.toList label.toList = true)
    (rest : String) : stripPrefix (start ++ rest) label = none := by
  have notStart : startsWith (start ++ rest) label = false := by
    rw [startsWith, String.toList_append, ← Bool.not_eq_true, List.isPrefixOf_iff_prefix]
    exact not_prefix_of_differ differs rest.toList
  rw [stripPrefix, notStart]
  rfl

/-! ## Words -/

theorem splitWhitespace_head {word : String} (some : word ≠ "")
    (noSpace : ∀ c ∈ word.toList, isWhitespace c = false) (rest : String) :
    (splitWhitespace (word ++ " " ++ rest)).head? = .some word := by
  have chars : (word ++ " " ++ rest).toList = word.toList ++ ' ' :: rest.toList := by
    rw [String.toList_append, String.toList_append, List.append_assoc]
    rfl
  have nonempty : word.toList ≠ [] := fun empty => some (String.toList_eq_nil_iff.mp empty)
  rw [splitWhitespace, chars, List.splitOnP_append_cons_of_forall_mem noSpace ' ' (by decide)]
  simp [nonempty]

/-! ## Numbers -/

theorem le_ofDigitChars (digits : List Char) (n : Nat) : n ≤ Nat.ofDigitChars 10 digits n := by
  rw [Nat.ofDigitChars_eq_ofDigitChars_zero]
  have atLeast : 1 * n ≤ 10 ^ digits.length * n := Nat.mul_le_mul_right n (Nat.one_le_pow _ _ (by decide))
  omega

/-- Digits of a number that fits are read to the end. -/
theorem parseDigits_eq (bound : Nat) (digits : List Char) (n : Nat)
    (isDigit : ∀ c ∈ digits, c.isDigit = true) (small : Nat.ofDigitChars 10 digits n < bound) :
    parseDigits bound n digits = .ok (Nat.ofDigitChars 10 digits n) := by
  induction digits generalizing n with
  | nil => rfl
  | cons c rest ih =>
      rw [Nat.ofDigitChars_cons] at small ⊢
      have sofar := le_ofDigitChars rest (10 * n + (c.toNat - '0'.toNat))
      have next : 10 * n + (c.toNat - '0'.toNat) < bound := by omega
      rw [parseDigits, isDigit c List.mem_cons_self, Bool.not_true, if_neg Bool.false_ne_true]
      dsimp only
      rw [if_pos next]
      exact ih _ (fun d member => isDigit d (List.mem_cons_of_mem c member)) small

theorem parseUnsigned_toString {bound n : Nat} (small : n < bound) :
    parseUnsigned bound (toString n) = .ok n := by
  have digits : (toString n).toList = Nat.toDigits 10 n := Nat.toList_repr
  have isDigit : ∀ c ∈ Nat.toDigits 10 n, c.isDigit = true :=
    fun c member => Nat.isDigit_of_mem_toDigits (by decide) (by decide) member
  have value : Nat.ofDigitChars 10 (Nat.toDigits 10 n) 0 = n := Nat.ofDigitChars_ten_toDigits
  have parsed := parseDigits_eq bound (Nat.toDigits 10 n) 0 isDigit (by rw [value]; exact small)
  rw [value] at parsed
  rw [parseUnsigned, digits]
  cases chars : Nat.toDigits 10 n with
  | nil => exact absurd chars Nat.toDigits_ne_nil
  | cons c rest =>
      rw [chars] at parsed isDigit
      split
      · contradiction
      · rename_i plus
        cases plus
        exact absurd (isDigit '+' List.mem_cons_self) (by decide)
      · rename_i plus
        cases plus
        exact absurd (isDigit '+' List.mem_cons_self) (by decide)
      · exact parsed

theorem parseU64_toString {n : Nat} (small : n < u64Bound) : parseU64 (toString n) = some n := by
  rw [parseU64, parseUnsigned_toString small]
  rfl

theorem toString_noSpace (n : Nat) : ∀ c ∈ (toString n).toList, isWhitespace c = false := by
  intro c member
  have digits : (toString n).toList = Nat.toDigits 10 n := Nat.toList_repr
  rw [digits] at member
  have isDigit := Nat.isDigit_of_mem_toDigits (by decide) (by decide) member
  simp only [Char.isDigit, Bool.and_eq_true, decide_eq_true_eq, UInt32.le_iff_toNat_le] at isDigit
  obtain ⟨low, high⟩ := isDigit
  change 48 ≤ c.toNat at low
  change c.toNat ≤ 57 at high
  simp only [isWhitespace, Bool.or_eq_false_iff, Bool.and_eq_false_iff, decide_eq_false_iff_not]
  omega

/-! ## Lines -/

/-- Lines that a text is made of are the ones it has. -/
theorem lines_of_pieces {texts : List String} {chars : List Char}
    (pieces : chars.splitOn '\n' = texts.map String.toList ++ [[]])
    (noReturn : ∀ text ∈ texts, text.toList.getLast? ≠ .some '\r') :
    lines (String.ofList chars) = texts := by
  have stripped : ∀ text ∈ texts, String.ofList (stripReturn text.toList) = text := by
    intro text member
    rw [stripReturn, if_neg (noReturn text member), String.ofList_toList]
  rw [lines, String.toList_ofList, pieces, List.getLast?_concat, if_pos rfl, List.dropLast_concat,
    List.map_map]
  exact (List.map_congr_left stripped).trans (List.map_id texts)

theorem lines_of_lines {texts : List String} (some : texts ≠ [])
    (noBreak : ∀ text ∈ texts, '\n' ∉ text.toList)
    (noReturn : ∀ text ∈ texts, text.toList.getLast? ≠ .some '\r') :
    lines (String.intercalate "\n" texts ++ "\n") = texts := by
  rw [← @String.ofList_toList (String.intercalate "\n" texts ++ "\n")]
  apply lines_of_pieces _ noReturn
  rw [String.toList_append, String.toList_intercalate]
  apply splitOn_lines
  · simpa using some
  · simpa using noBreak

theorem lines_flatMap {texts : List String} (noBreak : ∀ text ∈ texts, '\n' ∉ text.toList)
    (noReturn : ∀ text ∈ texts, text.toList.getLast? ≠ .some '\r') :
    lines (String.ofList (texts.flatMap fun text => text.toList ++ ['\n'])) = texts := by
  apply lines_of_pieces _ noReturn
  rw [← splitOn_flatMap (by simpa using noBreak), List.flatMap_map]

/-- What follows a label at the start of a line, both without the blanks around them. -/
def labelled (label line : List Char) : Option (List Char) :=
  let line := trimEnds isWhitespace line
  if label.isPrefixOf line then some (trimEnds isWhitespace (line.drop label.length)) else none

theorem stripPrefix_trim (line label : String) :
    (stripPrefix (trim line) label).map trim = (labelled label.toList line.toList).map String.ofList := by
  have isTrim : ∀ s, trim s = String.ofList (trimEnds isWhitespace s.toList) := fun _ => rfl
  simp only [stripPrefix, startsWith, labelled, isTrim, String.toList_ofList]
  split <;> simp [isTrim, String.toList_ofList]

end Nixnas.Rust
