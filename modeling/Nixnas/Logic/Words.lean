import Mathlib.Data.List.TakeWhile
import Mathlib.Data.String.Basic

/-!
# Fields, lines and ends of a list

Splitting a list at the elements that separate its fields, and what comes back
when the list was put together from fields; taking a list without what matches
at its two ends.
-/

set_option autoImplicit false

namespace Nixnas.Logic

universe u

variable {α : Type u} {p : α → Bool}

/-! ## Fields -/

/-- The parts between the elements that separate, without the empty ones. -/
def fieldsBy (p : α → Bool) (xs : List α) : List (List α) :=
  (xs.splitOnP p).filter fun field => !field.isEmpty

theorem splitOnP_part (p : α → Bool) (xs : List α) :
    ∀ part ∈ xs.splitOnP p, ∀ x ∈ part, p x = false := by
  induction xs with
  | nil => simp [List.splitOnP_nil]
  | cons head rest ih =>
      rw [List.splitOnP_cons_eq_if_modifyHead]
      intro part member x inPart
      by_cases separates : p head = true
      · rw [if_pos separates, List.mem_cons] at member
        rcases member with rfl | later
        · simp at inPart
        · exact ih part later x inPart
      · rw [if_neg separates] at member
        cases parts : rest.splitOnP p with
        | nil => exact absurd parts (List.splitOnP_ne_nil p rest)
        | cons first others =>
            rw [parts] at member ih
            rcases List.mem_cons.mp member with rfl | later
            · rcases List.mem_cons.mp inPart with rfl | inFirst
              · simpa using separates
              · exact ih first List.mem_cons_self x inFirst
            · exact ih part (List.mem_cons_of_mem _ later) x inPart

theorem fieldsBy_word {word : List α} (some : word ≠ []) (whole : ∀ x ∈ word, p x = false) :
    fieldsBy p word = [word] := by
  rw [fieldsBy, List.splitOnP_eq_singleton whole]
  simp [some]

theorem fieldsBy_append {sep : α} (separates : p sep = true) (xs ys : List α) :
    fieldsBy p (xs ++ sep :: ys) = fieldsBy p xs ++ fieldsBy p ys := by
  rw [fieldsBy, List.splitOnP_append_cons _ _ separates]
  simp [fieldsBy]

theorem fieldsBy_cons {sep : α} (separates : p sep = true) {word : List α} (rest : List α)
    (some : word ≠ []) (whole : ∀ x ∈ word, p x = false) :
    fieldsBy p (word ++ sep :: rest) = word :: fieldsBy p rest := by
  rw [fieldsBy_append separates, fieldsBy_word some whole, List.singleton_append]

/-- Words with a separator between any two are read back. -/
theorem fieldsBy_intercalate {sep : α} (separates : p sep = true) {words : List (List α)}
    (isWord : ∀ word ∈ words, word ≠ [] ∧ ∀ x ∈ word, p x = false) :
    fieldsBy p ([sep].intercalate words) = words := by
  induction words with
  | nil => rfl
  | cons word rest ih =>
      obtain ⟨some, whole⟩ := isWord word List.mem_cons_self
      have tail := ih fun other member => isWord other (List.mem_cons_of_mem _ member)
      cases rest with
      | nil =>
          have single : [sep].intercalate [word] = word := by simp [List.intercalate]
          rw [single, fieldsBy_word some whole]
      | cons next rest =>
          rw [List.intercalate_cons_cons, List.append_assoc, List.singleton_append,
            fieldsBy_cons separates _ some whole, tail]

/-- The words are what stands between the elements that separate, each a longest
stretch without one. -/
inductive Fields (p : α → Bool) : List α → List (List α) → Prop where
  | blank {xs : List α} (separates : ∀ x ∈ xs, p x = true) : Fields p xs []
  | word {blanks word rest : List α} {words : List (List α)}
      (separates : ∀ x ∈ blanks, p x = true) (some : word ≠ []) (whole : ∀ x ∈ word, p x = false)
      (ended : ∀ x ∈ rest.head?, p x = true) (later : Fields p rest words) :
      Fields p (blanks ++ word ++ rest) (word :: words)

theorem fieldsBy_blanks {blanks : List α} (separates : ∀ x ∈ blanks, p x = true) (rest : List α) :
    fieldsBy p (blanks ++ rest) = fieldsBy p rest := by
  induction blanks with
  | nil => rfl
  | cons sep blanks ih =>
      have first := fieldsBy_append (separates sep List.mem_cons_self) [] (blanks ++ rest)
      have none : fieldsBy p ([] : List α) = [] := rfl
      rw [List.nil_append, none, List.nil_append] at first
      rw [List.cons_append, first]
      exact ih fun x member => separates x (List.mem_cons_of_mem sep member)

theorem fieldsBy_first {blanks word rest : List α} (separates : ∀ x ∈ blanks, p x = true)
    (some : word ≠ []) (whole : ∀ x ∈ word, p x = false) (ended : ∀ x ∈ rest.head?, p x = true) :
    fieldsBy p (blanks ++ word ++ rest) = word :: fieldsBy p rest := by
  rw [List.append_assoc, fieldsBy_blanks separates]
  cases rest with
  | nil =>
      rw [List.append_nil, fieldsBy_word some whole]
      rfl
  | cons sep rest =>
      have isSep : p sep = true := ended sep rfl
      rw [fieldsBy_cons isSep rest some whole]
      exact congrArg (word :: ·) (fieldsBy_append isSep [] rest).symm

/-- Every list has its words, by induction on its length. -/
theorem fields_fieldsBy (xs : List α) : Fields p xs (fieldsBy p xs) := by
  induction size : xs.length using Nat.strong_induction_on generalizing xs with
  | _ n ih =>
      have separates : ∀ x ∈ xs.takeWhile p, p x = true := fun x => List.mem_takeWhile_imp
      cases left : xs.dropWhile p with
      | nil =>
          have all : xs.takeWhile p = xs := by
            have parts := List.takeWhile_append_dropWhile (p := p) (l := xs)
            rwa [left, List.append_nil] at parts
          rw [all] at separates
          have none := fieldsBy_blanks separates []
          rw [List.append_nil] at none
          rw [none]
          exact Fields.blank separates
      | cons first tail =>
          have starts : p first = false := by
            have found := List.head?_dropWhile_not p xs
            rw [left] at found
            simpa using found
          have whole : ∀ x ∈ (first :: tail).takeWhile (fun x => !p x), p x = false := by
            intro x member
            simpa using List.mem_takeWhile_imp member
          have some : (first :: tail).takeWhile (fun x => !p x) ≠ [] := by
            simp [starts]
          have ended : ∀ x ∈ ((first :: tail).dropWhile fun x => !p x).head?, p x = true := by
            intro x isHead
            have found := List.head?_dropWhile_not (fun x => !p x) (first :: tail)
            rw [Option.mem_def.mp isHead] at found
            simpa using found
          have parts : xs = xs.takeWhile p ++ (first :: tail).takeWhile (fun x => !p x) ++
              (first :: tail).dropWhile (fun x => !p x) := by
            rw [List.append_assoc, List.takeWhile_append_dropWhile, ← left,
              List.takeWhile_append_dropWhile]
          have shorter : ((first :: tail).dropWhile fun x => !p x).length < n := by
            have taken := List.length_pos_iff.mpr some
            have length := congrArg List.length parts
            rw [List.length_append, List.length_append] at length
            omega
          rw [parts, fieldsBy_first separates some whole ended]
          exact Fields.word separates some whole ended (ih _ shorter _ rfl)

theorem fields_iff {xs : List α} {words : List (List α)} :
    Fields p xs words ↔ words = fieldsBy p xs := by
  constructor
  · intro fields
    induction fields with
    | blank separates =>
        have none := fieldsBy_blanks separates []
        rw [List.append_nil] at none
        exact none.symm
    | word separates some whole ended _ ih =>
        rw [ih, fieldsBy_first separates some whole ended]
  · intro same
    subst same
    exact fields_fieldsBy xs

/-- What stands in such a list is a separator or in one of the words. -/
theorem mem_intercalate {sep x : α} {words : List (List α)} (member : x ∈ [sep].intercalate words) :
    x = sep ∨ ∃ word ∈ words, x ∈ word := by
  induction words with
  | nil => exact absurd member List.not_mem_nil
  | cons word rest ih =>
      cases rest with
      | nil => exact Or.inr ⟨word, List.mem_cons_self, by simpa [List.intercalate] using member⟩
      | cons next rest =>
          rw [List.intercalate_cons_cons, List.append_assoc, List.mem_append] at member
          rcases member with inWord | later
          · exact Or.inr ⟨word, List.mem_cons_self, inWord⟩
          · rcases List.mem_append.mp later with isSep | later
            · exact Or.inl (List.mem_singleton.mp isSep)
            · rcases ih later with isSep | ⟨other, isWord, inOther⟩
              · exact Or.inl isSep
              · exact Or.inr ⟨other, List.mem_cons_of_mem word isWord, inOther⟩

/-- A search goes by what the function finds in the elements of the list. -/
theorem findSome?_congr {β : Type u} {f g : α → Option β} {xs : List α}
    (same : ∀ x ∈ xs, f x = g x) : xs.findSome? f = xs.findSome? g := by
  induction xs with
  | nil => rfl
  | cons x rest ih =>
      rw [List.findSome?_cons, List.findSome?_cons, same x List.mem_cons_self,
        ih fun other member => same other (List.mem_cons_of_mem x member)]

/-! ## Lines -/

theorem splitOn_flatMap {lines : List (List Char)} (noBreak : ∀ line ∈ lines, '\n' ∉ line) :
    (lines.flatMap fun line => line ++ ['\n']).splitOn '\n' = lines ++ [[]] := by
  induction lines with
  | nil => rfl
  | cons line rest ih =>
      have tail := ih fun other member => noBreak other (List.mem_cons_of_mem _ member)
      rw [List.flatMap_cons, List.append_assoc, List.singleton_append, List.splitOn_append_cons_self,
        List.splitOn_eq_singleton (noBreak line List.mem_cons_self), tail]
      rfl

theorem intercalate_break {lines : List (List Char)} (some : lines ≠ []) :
    ['\n'].intercalate lines ++ ['\n'] = lines.flatMap fun line => line ++ ['\n'] := by
  induction lines with
  | nil => exact absurd rfl some
  | cons line rest ih =>
      cases rest with
      | nil => simp [List.intercalate]
      | cons next rest =>
          rw [List.intercalate_cons_cons, List.append_assoc, List.append_assoc,
            ih (List.cons_ne_nil _ _)]
          simp

theorem splitOn_lines {lines : List (List Char)} (some : lines ≠ [])
    (noBreak : ∀ line ∈ lines, '\n' ∉ line) :
    (['\n'].intercalate lines ++ ['\n']).splitOn '\n' = lines ++ [[]] := by
  rw [intercalate_break some, splitOn_flatMap noBreak]

/-! ## Ends -/

/-- Both ends of a list, without what matches. -/
def trimEnds (p : α → Bool) (xs : List α) : List α :=
  ((xs.dropWhile p).reverse.dropWhile p).reverse

theorem dropWhile_eq_self_iff (xs : List α) :
    xs.dropWhile p = xs ↔ ∀ x ∈ xs.head?, p x = false := by
  cases xs with
  | nil => simp
  | cons x rest =>
      cases matches_ : p x with
      | false => simp [matches_]
      | true =>
          have shorter := (List.dropWhile_suffix (l := rest) p).length_le
          constructor
          · intro same
            rw [List.dropWhile_cons, if_pos matches_] at same
            rw [same, List.length_cons] at shorter
            omega
          · intro kept
            have differs := kept x rfl
            rw [matches_] at differs
            cases differs

theorem dropWhile_eq_self_of_length {xs : List α} (long : xs.length ≤ (xs.dropWhile p).length) :
    xs.dropWhile p = xs :=
  (List.dropWhile_suffix p).eq_of_length_le long

theorem trimEnds_eq_self_iff (xs : List α) :
    trimEnds p xs = xs ↔ (∀ x ∈ xs.head?, p x = false) ∧ ∀ x ∈ xs.getLast?, p x = false := by
  rw [← dropWhile_eq_self_iff, ← List.head?_reverse, ← dropWhile_eq_self_iff]
  constructor
  · intro same
    have length := congrArg List.length same
    have inner := (List.dropWhile_suffix (l := xs) p).length_le
    have outer := (List.dropWhile_suffix (l := (xs.dropWhile p).reverse) p).length_le
    rw [trimEnds, List.length_reverse] at length
    rw [List.length_reverse] at outer
    have front : xs.dropWhile p = xs := dropWhile_eq_self_of_length (by omega)
    refine ⟨front, ?_⟩
    rw [trimEnds, front] at same
    rw [← List.reverse_inj, List.reverse_reverse]
    exact same
  · rintro ⟨front, back⟩
    rw [trimEnds, front, back, List.reverse_reverse]

theorem trimEnds_trimEnds (xs : List α) : trimEnds p (trimEnds p xs) = trimEnds p xs := by
  rw [trimEnds_eq_self_iff]
  constructor
  · intro x isHead
    have inFront : trimEnds p xs <+: xs.dropWhile p := by
      rw [trimEnds, ← List.reverse_suffix, List.reverse_reverse]
      exact List.dropWhile_suffix _
    obtain ⟨back, whole⟩ := inFront
    cases front : trimEnds p xs with
    | nil => simp [front] at isHead
    | cons y rest =>
        rw [front] at isHead whole
        cases isHead
        have first := List.head?_dropWhile_not p xs
        rw [← whole] at first
        simpa using first
  · intro x isLast
    rw [trimEnds, List.getLast?_reverse] at isLast
    have first := List.head?_dropWhile_not p (xs.dropWhile p).reverse
    rw [isLast] at first
    simpa using first

/-- What matches around a list goes first. -/
theorem trimEnds_surround {x : α} (isMatch : p x = true) (xs : List α) :
    trimEnds p (x :: (xs ++ [x])) = trimEnds p xs := by
  rw [trimEnds, List.dropWhile_cons, if_pos isMatch, List.dropWhile_append]
  cases empty : (xs.dropWhile p).isEmpty with
  | true =>
      rw [List.isEmpty_iff] at empty
      simp [trimEnds, empty, isMatch]
  | false =>
      simp [trimEnds, List.reverse_append, isMatch]

end Nixnas.Logic
