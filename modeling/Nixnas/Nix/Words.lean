import Mathlib.Tactic.Tauto
import Nixnas.Nix.Lexer

/-!
# Texts of plain words

A word ends where a character follows that belongs to no word.  Up to there no
path and no address can be found, when no slash and no colon stands in it, so the
words between the dots are tokens of their own.
-/

set_option autoImplicit false

namespace Nixnas.Nix

/-! ## Where nothing else is found -/

/-- Of a name, a path or an address. -/
def isWordChar (c : Char) : Bool := isNameChar c || isPathChar c || c = '/' || c = ':'

/-- A word in front of this text ends with it. -/
def Stops (after : Text) : Prop := ∀ c ∈ after.head?, isWordChar c = false

/-- Without the characters that make a path or an address of a word. -/
def Quiet (text : Text) : Prop := '/' ∉ text ∧ ':' ∉ text

theorem Quiet.append {text text' : Text} (quiet : Quiet text) (quiet' : Quiet text') :
    Quiet (text ++ text') := by
  constructor
  · simpa using ⟨quiet.1, quiet'.1⟩
  · simpa using ⟨quiet.2, quiet'.2⟩

theorem Quiet.point {text : Text} (quiet : Quiet text) : Quiet ('.' :: text) := by
  have point : Quiet ['.'] := ⟨by decide, by decide⟩
  exact point.append quiet

theorem Stops.class {after : Text} (stops : Stops after) {p : Char → Bool}
    (inside : ∀ c, p c = true → isWordChar c = true) : ∀ c ∈ after.head?, p c = false := by
  intro c head
  by_contra holds
  rw [Bool.not_eq_false] at holds
  have word := inside c holds
  rw [stops c head] at word
  cases word

theorem takeWhile_stops {p : Char → Bool} {found after : Text} (all : ∀ c ∈ found, p c = true)
    (stops : ∀ c ∈ after.head?, p c = false) : (found ++ after).takeWhile p = found := by
  rw [List.takeWhile_append_of_pos all]
  cases after with
  | nil => simp
  | cons c rest => simp [stops c rfl]

theorem dropWhile_stops {p : Char → Bool} {found after : Text} (all : ∀ c ∈ found, p c = true)
    (stops : ∀ c ∈ after.head?, p c = false) : (found ++ after).dropWhile p = after := by
  rw [List.dropWhile_append_of_pos all]
  cases after with
  | nil => rfl
  | cons c rest => simp [stops c rfl]

theorem Stops.noMark {after : Text} (stops : Stops after) : ∀ c ∈ after.head?, c ≠ '/' ∧ c ≠ ':' := by
  intro c head
  have word := stops c head
  constructor
  · rintro rfl
    cases word
  · rintro rfl
    cases word

/-- What follows a run in quiet words is no slash and no colon. -/
theorem dropWhile_quiet {p : Char → Bool} (inside : ∀ c, p c = true → isWordChar c = true)
    {words after : Text} (quiet : Quiet words) (stops : Stops after) :
    ∀ c ∈ ((words ++ after).dropWhile p).head?, c ≠ '/' ∧ c ≠ ':' := by
  induction words with
  | nil =>
      have whole : ([] ++ after).dropWhile p = after :=
        dropWhile_stops (fun _ member => absurd member List.not_mem_nil) (stops.class inside)
      rw [whole]
      exact stops.noMark
  | cons d words ih =>
      obtain ⟨noSlash, noColon⟩ := quiet
      rw [List.mem_cons, not_or] at noSlash noColon
      rw [List.cons_append, List.dropWhile_cons]
      split
      · exact ih ⟨noSlash.2, noColon.2⟩
      · rintro c ⟨⟩
        exact ⟨Ne.symm noSlash.1, Ne.symm noColon.1⟩

theorem isNameChar_word (c : Char) (name : isNameChar c = true) : isWordChar c = true := by
  simp [isWordChar, name]

theorem isPathChar_word (c : Char) (path : isPathChar c = true) : isWordChar c = true := by
  simp [isWordChar, path]

theorem isSchemeChar_word (c : Char) (scheme : isSchemeChar c = true) : isWordChar c = true := by
  have path : isPathChar c = true := by
    simp only [isSchemeChar, Bool.or_eq_true] at scheme
    simp only [isPathChar, Bool.or_eq_true]
    tauto
  exact isPathChar_word c path

theorem segmentLength_quiet {words after : Text} (quiet : Quiet words) (stops : Stops after) :
    segmentLength (words ++ after) = 0 := by
  have next := dropWhile_quiet isPathChar_word quiet stops
  rw [segmentLength]
  split
  · rename_i slash
    rw [slash] at next
    exact absurd rfl (next '/' rfl).1
  · rfl

theorem isAlpha_word (c : Char) (alpha : c.isAlpha = true) : isWordChar c = true := by
  have name : isNameChar c = true := by simp [isNameChar, Char.isAlphanum, alpha]
  exact isNameChar_word c name

theorem uriLength_quiet {words after : Text} (quiet : Quiet words) (stops : Stops after) :
    uriLength (words ++ after) = 0 := by
  cases words with
  | nil =>
      cases after with
      | nil => rfl
      | cons c rest =>
          have noAlpha := stops.class isAlpha_word c rfl
          rw [List.nil_append, uriLength, noAlpha, if_neg Bool.false_ne_true]
  | cons d words =>
      obtain ⟨noSlash, noColon⟩ := quiet
      have next := dropWhile_quiet isSchemeChar_word
        ⟨List.not_mem_of_not_mem_cons noSlash, List.not_mem_of_not_mem_cons noColon⟩ stops
      rw [List.cons_append, uriLength]
      split
      · split
        · rename_i colon
          rw [colon] at next
          exact absurd rfl (next ':' rfl).2
        · rfl
      · rfl

theorem pathRun_quiet {words after : Text} (stops : Stops after) (afterSlash : Bool) :
    ∀ c ∈ pathRun afterSlash (words ++ after), c ∈ words := by
  induction words generalizing afterSlash with
  | nil =>
      cases after with
      | nil => simp [pathRun]
      | cons c rest =>
          have noPath := stops.class isPathChar_word c rfl
          have noSlash := (stops.noMark c rfl).1
          simp [pathRun, noPath, noSlash]
  | cons d words ih =>
      have kept (slash : Bool) :
          ∀ c ∈ d :: pathRun slash (words ++ after), c ∈ d :: words := by
        intro c member
        exact (List.mem_cons.mp member).elim (fun is => is ▸ List.mem_cons_self)
          fun member => List.mem_cons_of_mem d (ih slash c member)
      rw [List.cons_append, pathRun]
      split
      · exact kept false
      · split
        · exact kept true
        · exact fun _ member => nomatch member

theorem pathLength_quiet {words after : Text} (quiet : Quiet words) (stops : Stops after) :
    pathLength (words ++ after) = 0 := by
  rw [pathLength, if_neg]
  intro slash
  exact quiet.1 (pathRun_quiet stops false _ (List.dropLast_subset _ slash))

/-! ## The rules in their order -/

/-- Quotes, homes, search paths, comments and blanks start with these. -/
def specials : Text := "'~<#/ \t\r\n".toList

theorem candidates_ordinary {c : Char} {rest : Text} (ordinary : c ∉ specials) :
    candidates (c :: rest) =
      [(.operator, operatorLength (c :: rest)), (.name, nameLength (c :: rest)),
        (.int, run Char.isDigit (c :: rest)), (.float, floatLength (c :: rest)), (.indOpen, 0),
        (.segment, segmentLength (c :: rest)), (.homeSegment, 0), (.path, pathLength (c :: rest)),
        (.homePath, 0), (.searchPath, 0), (.uri, uriLength (c :: rest)), (.blank, 0)] := by
  have ne (d : Char) (special : d ∈ specials) : c ≠ d := by
    rintro rfl
    exact ordinary special
  have quote := ne '\'' (by decide)
  have home := ne '~' (by decide)
  have search := ne '<' (by decide)
  have hash := ne '#' (by decide)
  have slash := ne '/' (by decide)
  have noBlank : isBlank c = false := by
    simp [isBlank, ne ' ' (by decide), ne '\t' (by decide), ne '\r' (by decide),
      ne '\n' (by decide)]
  simp [candidates, indOpenLength, homeSegmentLength, homePathLength, searchPathLength,
    blankLength, run, noBlank, quote, home, search, hash, slash]

/-- A class without the special characters is ordinary. -/
theorem class_ordinary {p : Char → Bool} (others : specials.any p = false) {c : Char}
    (inside : p c = true) : c ∉ specials := by
  intro special
  rw [List.any_eq_false] at others
  exact others c special inside

theorem operatorLength_eq_zero {c : Char} {rest : Text}
    (starts : ∀ operator ∈ operators, operator.head? ≠ some c) : operatorLength (c :: rest) = 0 := by
  have none : operators.find? (fun operator => operator.isPrefixOf (c :: rest)) = none := by
    rw [List.find?_eq_none]
    intro operator member isPrefix
    cases operator with
    | nil => exact absurd member (by decide)
    | cons d tail =>
        rw [List.isPrefixOf_cons_cons, Bool.and_eq_true, beq_iff_eq] at isPrefix
        exact starts _ member (congrArg some isPrefix.1)
  rw [operatorLength, none]
  rfl

/-- No operator starts with a character of the class. -/
theorem class_noOperator {p : Char → Bool}
    (others : (operators.filterMap List.head?).any p = false) {c : Char}
    (inside : p c = true) (rest : Text) : operatorLength (c :: rest) = 0 := by
  apply operatorLength_eq_zero
  intro operator member head
  rw [List.any_eq_false] at others
  exact others c (List.mem_filterMap.mpr ⟨operator, member, head⟩) inside

theorem floatLength_eq_zero {text : Text} (noPoint : mantissaLength text = 0) :
    floatLength text = 0 := by
  simp [floatLength, noPoint]

/-! ## Tokens -/

/-- The step of a rule that matches a known text. -/
theorem lexStep_of_longest {modes : List Mode} (top : modes.headD .default = .default)
    {rule : Rule} {found rest : Text} (some : found ≠ [])
    (taken : longest (candidates (found ++ rest)) = (rule, found.length)) :
    lexStep modes (found ++ rest) = applyRule modes (found ++ rest) rule found.length := by
  have text : found ++ rest ≠ [] := by simp [some]
  rw [lexStep, top]
  simp only
  rw [lexDefault, if_neg text, taken]

theorem isNameStart_ne {c d : Char} (start : isNameStart c = true) (other : isNameStart d = false) :
    c ≠ d := by
  rintro rfl
  rw [start] at other
  cases other

theorem isAlpha_bound {c : Char} (alpha : c.isAlpha = true) : 65 ≤ c.toNat := by
  rcases Bool.or_eq_true_iff.mp alpha with upper | lower
  · have bounds := of_decide_eq_true upper
    exact UInt32.le_iff_toNat_le.mp bounds.1
  · have bound := of_decide_eq_true (Bool.and_eq_true_iff.mp lower).1
    exact Nat.le_trans (by decide : 65 ≤ 97) (UInt32.le_iff_toNat_le.mp bound)

theorem isNameStart_noDigit {c : Char} (start : isNameStart c = true) : c.isDigit = false := by
  by_contra digit
  rw [Bool.not_eq_false, Char.isDigit_iff_toNat] at digit
  have nine : '9'.toNat = 57 := rfl
  rcases Bool.or_eq_true_iff.mp start with alpha | isLine
  · have bound := isAlpha_bound alpha
    omega
  · rw [of_decide_eq_true isLine] at digit
    exact absurd digit.2 (by decide)

theorem mantissaLength_noDigit {c : Char} (rest : Text) (noDigit : c.isDigit = false)
    (noPoint : c ≠ '.') : mantissaLength (c :: rest) = 0 := by
  rw [mantissaLength, List.dropWhile_cons, noDigit]
  simp [noPoint]

theorem longest_name {name between after : Text} (identifier : isIdentifier name = true)
    (quiet : Quiet (name ++ between)) (stops : Stops after)
    (ends : ∀ c ∈ (between ++ after).head?, isNameChar c = false) :
    longest (candidates (name ++ (between ++ after))) = (.name, name.length) := by
  have noSegment := segmentLength_quiet quiet stops
  have noPath := pathLength_quiet quiet stops
  have noUri := uriLength_quiet quiet stops
  rw [List.append_assoc] at noSegment noPath noUri
  cases name with
  | nil => cases identifier
  | cons c tail =>
      rw [isIdentifier, Bool.and_eq_true, List.all_eq_true] at identifier
      obtain ⟨start, inside⟩ := identifier
      have length : nameLength (c :: (tail ++ (between ++ after))) = tail.length + 1 := by
        rw [nameLength, if_pos start, run, takeWhile_stops inside ends]
      have noDigit := isNameStart_noDigit start
      have noFloat := floatLength_eq_zero
        (mantissaLength_noDigit (tail ++ (between ++ after)) noDigit (isNameStart_ne start rfl))
      rw [List.cons_append] at noSegment noPath noUri ⊢
      rw [candidates_ordinary (class_ordinary (by decide) start),
        class_noOperator (by decide) start, length, noFloat, noSegment, noPath, noUri]
      simp [run, noDigit, longest]

theorem Lexes.name {modes : List Mode} (top : modes.headD .default = .default)
    {name between after : Text} {tokens : List Token} (identifier : isIdentifier name = true)
    (quiet : Quiet (name ++ between)) (stops : Stops after)
    (ends : ∀ c ∈ (between ++ after).head?, isNameChar c = false)
    (lexed : Lexes modes (between ++ after) tokens) :
    Lexes modes (name ++ (between ++ after)) (word name :: tokens) := by
  have some : name ≠ [] := by
    rintro rfl
    cases identifier
  have step := lexStep_of_longest top some (longest_name identifier quiet stops ends)
  simp only [applyRule, List.take_left', List.drop_left'] at step
  exact .next step lexed

/-- Characters that are tokens, but for the operators that start with them. -/
def isMark (c : Char) : Bool :=
  !specials.contains c && !isNameStart c && !c.isDigit && !isPathChar c

theorem longest_mark {c : Char} {rest : Text} (mark : isMark c = true)
    (alone : operatorLength (c :: rest) = 0) :
    longest (candidates (c :: rest)) = (.char, 1) := by
  simp only [isMark, Bool.and_eq_true, Bool.not_eq_true'] at mark
  obtain ⟨⟨⟨noSpecial, noName⟩, noDigit⟩, noPath⟩ := mark
  have ordinary : c ∉ specials := by
    rw [← List.contains_iff_mem, noSpecial]
    exact Bool.false_ne_true
  have noPoint : c ≠ '.' := by
    rintro rfl
    cases noPath
  have noSlash : c ≠ '/' := by
    rintro rfl
    exact ordinary (by decide)
  have noAlpha : c.isAlpha = false := by
    simp only [isNameStart, Bool.or_eq_false_iff] at noName
    exact noName.1
  have noFloat := floatLength_eq_zero (mantissaLength_noDigit rest noDigit noPoint)
  have noSegment : segmentLength (c :: rest) = 0 := by
    rw [segmentLength, List.dropWhile_cons, noPath]
    simp [noSlash]
  rw [candidates_ordinary ordinary, alone, noFloat, noSegment]
  simp [run, noDigit, noName, noPath, noSlash, noAlpha, nameLength, pathLength, pathRun, uriLength,
    longest]

/-- A sign, with the modes it leads to. -/
theorem Lexes.sign {modes : List Mode} (top : modes.headD .default = .default) {rule : Rule}
    (ofSign : rule = .char ∨ rule = .operator) {found rest : Text} {tokens : List Token}
    (some : found ≠ [])
    (taken : longest (candidates (found ++ rest)) = (rule, found.length))
    (lexed : Lexes (signModes modes found) rest tokens) :
    Lexes modes (found ++ rest) (.sign found :: tokens) := by
  have step := lexStep_of_longest top some taken
  rcases ofSign with rfl | rfl
  · simp only [applyRule, List.take_left', List.drop_left'] at step
    exact .next step lexed
  · simp only [applyRule, List.take_left', List.drop_left'] at step
    exact .next step lexed

theorem Lexes.mark {modes : List Mode} (top : modes.headD .default = .default) {c : Char}
    {rest : Text} {tokens : List Token} (mark : isMark c = true)
    (starts : ∀ operator ∈ operators, operator.head? ≠ some c)
    (lexed : Lexes (signModes modes [c]) rest tokens) :
    Lexes modes (c :: rest) (.char c :: tokens) :=
  Lexes.sign top (.inl rfl) (List.cons_ne_nil c [])
    (longest_mark mark (operatorLength_eq_zero starts)) lexed

/-- A mark between tokens, which opens and closes nothing. -/
theorem Lexes.plain {modes : List Mode} (top : modes.headD .default = .default) {c : Char}
    {rest : Text} {tokens : List Token} (plain : c ∈ ['(', ')', '[', ']', ';', ',', ':'])
    (lexed : Lexes modes rest tokens) : Lexes modes (c :: rest) (.char c :: tokens) := by
  simp only [List.mem_cons, List.not_mem_nil, or_false] at plain
  rcases plain with rfl | rfl | rfl | rfl | rfl | rfl | rfl
  all_goals exact Lexes.mark top rfl (by decide) lexed

theorem Lexes.braceOpen {modes : List Mode} (top : modes.headD .default = .default)
    {rest : Text} {tokens : List Token} (lexed : Lexes (.default :: modes) rest tokens) :
    Lexes modes ('\x7b' :: rest) (.char '\x7b' :: tokens) :=
  Lexes.mark top rfl (by decide) lexed

theorem Lexes.braceClose {modes : List Mode} {rest : Text} {tokens : List Token}
    (lexed : Lexes modes rest tokens) :
    Lexes (.default :: modes) ('\x7d' :: rest) (.char '\x7d' :: tokens) :=
  Lexes.mark rfl rfl (by decide) lexed

/-- The sign of a definition is no part of an operator. -/
theorem Lexes.equals {modes : List Mode} (top : modes.headD .default = .default)
    {rest : Text} {tokens : List Token} (lexed : Lexes modes (' ' :: rest) tokens) :
    Lexes modes ('=' :: ' ' :: rest) (.char '=' :: tokens) := by
  have alone : operatorLength ('=' :: ' ' :: rest) = 0 := by
    simp [operatorLength, operators]
  exact Lexes.sign top (.inl rfl) (List.cons_ne_nil '=' []) (longest_mark rfl alone) lexed

theorem Lexes.ellipsis {modes : List Mode} (top : modes.headD .default = .default)
    {rest : Text} {tokens : List Token} (lexed : Lexes modes (' ' :: rest) tokens) :
    Lexes modes ('.' :: '.' :: '.' :: ' ' :: rest) (.sign ['.', '.', '.'] :: tokens) := by
  have taken : longest (candidates ('.' :: '.' :: '.' :: ' ' :: rest)) = (.operator, 3) := by
    have noFloat : floatLength ('.' :: '.' :: '.' :: ' ' :: rest) = 0 := by
      simp [floatLength, mantissaLength, run]
    have noSegment : segmentLength ('.' :: '.' :: '.' :: ' ' :: rest) = 0 := by
      simp [segmentLength, isPathChar]
    have noPath : pathLength ('.' :: '.' :: '.' :: ' ' :: rest) = 0 := by
      simp [pathLength, pathRun, isPathChar]
    rw [candidates_ordinary (by decide), noFloat, noSegment, noPath]
    simp [operatorLength, operators, nameLength, isNameStart, run, uriLength, longest]
  exact Lexes.sign top (.inr rfl) (List.cons_ne_nil '.' ['.', '.']) taken lexed

theorem Lexes.dot {modes : List Mode} (top : modes.headD .default = .default)
    {c : Char} {words after : Text} {tokens : List Token} (start : isNameStart c = true)
    (quiet : Quiet (c :: words)) (stops : Stops after)
    (lexed : Lexes modes (c :: (words ++ after)) tokens) :
    Lexes modes ('.' :: c :: (words ++ after)) (.char '.' :: tokens) := by
  have taken : longest (candidates ('.' :: c :: (words ++ after))) = (.char, 1) := by
    have noOperator : operatorLength ('.' :: c :: (words ++ after)) = 0 := by
      have noPoint := isNameStart_ne start (d := '.') rfl
      simp [operatorLength, operators, noPoint.symm]
    have noFloat : floatLength ('.' :: c :: (words ++ after)) = 0 := by
      simp [floatLength, mantissaLength, run, isNameStart_noDigit start]
    have noSegment := segmentLength_quiet (quiet.point) stops
    have noPath := pathLength_quiet (quiet.point) stops
    rw [List.cons_append, List.cons_append] at noSegment noPath
    rw [candidates_ordinary (by decide), noOperator, noFloat, noSegment, noPath]
    simp [nameLength, isNameStart, run, uriLength, longest]
  exact Lexes.sign top (.inl rfl) (List.cons_ne_nil '.' []) taken lexed

theorem Lexes.blank {modes : List Mode} (top : modes.headD .default = .default)
    {rest : Text} {tokens : List Token} (next : ∀ c ∈ rest.head?, isBlank c = false)
    (lexed : Lexes modes rest tokens) : Lexes modes (' ' :: rest) tokens := by
  have taken : longest (candidates ([' '] ++ rest)) = (.blank, 1) := by
    have noOperator : operatorLength (' ' :: rest) = 0 := operatorLength_eq_zero (by decide)
    have noFloat := floatLength_eq_zero (mantissaLength_noDigit (c := ' ') rest rfl (by decide))
    have noInt : run Char.isDigit (' ' :: rest) = 0 := rfl
    have blanks : blankLength (' ' :: rest) = 1 := by
      have one : (([' '] ++ rest).takeWhile isBlank).length = 1 :=
        congrArg List.length (takeWhile_stops (by simp [isBlank]) next)
      simpa [blankLength, run] using one
    simp [candidates, noOperator, noFloat, noInt, blanks, nameLength, isNameStart, indOpenLength,
      segmentLength, isPathChar, homeSegmentLength, pathLength, pathRun, homePathLength,
      searchPathLength, uriLength, longest]
  have step := lexStep_of_longest top (List.cons_ne_nil ' ' []) taken
  simp only [applyRule, List.drop_left'] at step
  exact .skip step lexed

theorem isDigit_word (c : Char) (digit : c.isDigit = true) : isWordChar c = true := by
  have name : isNameChar c = true := by simp [isNameChar, Char.isAlphanum, digit]
  exact isNameChar_word c name

theorem Lexes.int {modes : List Mode} (top : modes.headD .default = .default)
    {digits after : Text} {tokens : List Token} (some : digits ≠ [])
    (all : ∀ c ∈ digits, c.isDigit = true) (small : Nat.ofDigitChars 10 digits 0 < 2 ^ 63)
    (stops : Stops after) (lexed : Lexes modes after tokens) :
    Lexes modes (digits ++ after) (.int digits :: tokens) := by
  have taken : longest (candidates (digits ++ after)) = (.int, digits.length) := by
    have length : run Char.isDigit (digits ++ after) = digits.length := by
      rw [run, takeWhile_stops all (stops.class isDigit_word)]
    have noFloat : floatLength (digits ++ after) = 0 := by
      apply floatLength_eq_zero
      rw [mantissaLength, dropWhile_stops all (stops.class isDigit_word)]
      split
      · exact absurd (stops '.' rfl) (by decide)
      · rfl
    have quiet : Quiet digits :=
      ⟨fun slash => absurd (all _ slash) (by decide), fun colon => absurd (all _ colon) (by decide)⟩
    have noSegment := segmentLength_quiet quiet stops
    have noPath := pathLength_quiet quiet stops
    have noUri := uriLength_quiet quiet stops
    cases digits with
    | nil => exact absurd rfl some
    | cons d tail =>
        have digit := all d List.mem_cons_self
        have noName : isNameStart d = false := by
          by_contra start
          rw [isNameStart_noDigit ((Bool.not_eq_false _).mp start)] at digit
          cases digit
        rw [List.cons_append] at length noFloat noSegment noPath noUri ⊢
        rw [candidates_ordinary (class_ordinary (by decide) digit),
          class_noOperator (by decide) digit, length, noFloat, noSegment, noPath, noUri]
        simp [nameLength, noName, longest]
  have step := lexStep_of_longest top some taken
  simp only [applyRule, List.take_left', List.drop_left', if_pos small] at step
  exact .next step lexed

/-- The directory itself, as a path. -/
theorem Lexes.here {modes : List Mode} (top : modes.headD .default = .default)
    {rest : Text} {tokens : List Token} (lexed : Lexes modes (')' :: rest) tokens) :
    Lexes modes ('.' :: '/' :: '.' :: ')' :: rest) (.path ['.', '/', '.'] :: .pathEnd :: tokens) := by
  have taken : longest (candidates (['.', '/', '.'] ++ ')' :: rest)) = (.path, 3) := by
    have noFloat : floatLength ('.' :: '/' :: '.' :: ')' :: rest) = 0 := by
      simp [floatLength, mantissaLength, run]
    have noSegment : segmentLength ('.' :: '/' :: '.' :: ')' :: rest) = 0 := by
      simp [segmentLength, isPathChar]
    have path : pathLength ('.' :: '/' :: '.' :: ')' :: rest) = 3 := by
      simp [pathLength, pathRun, isPathChar]
    rw [List.cons_append, candidates_ordinary (by decide)]
    simp only [List.cons_append, List.nil_append, noFloat, noSegment, path]
    simp [operatorLength, operators, nameLength, isNameStart, run, uriLength, longest]
  have step := lexStep_of_longest top (List.cons_ne_nil '.' ['/', '.']) taken
  simp only [applyRule, List.take_left', List.drop_left'] at step
  exact .next step (.next rfl lexed)

/-- Without the characters that end, escape or interpolate in a string. -/
def Plain (content : Text) : Prop := ∀ c ∈ content, c ∉ ['"', '\\', '$', '\r']

theorem chunk_plain {content : Text} (plain : Plain content) (rest : Text) :
    chunk (content ++ '"' :: rest) = (content, '"' :: rest) := by
  induction content with
  | nil => rfl
  | cons c content ih =>
      have here := plain c List.mem_cons_self
      simp only [List.mem_cons, List.not_mem_nil, or_false, not_or] at here
      obtain ⟨quote, backslash, dollar, carriage⟩ := here
      rw [List.cons_append, chunk, ih fun d member => plain d (List.mem_cons_of_mem c member)]
      all_goals simp [quote, backslash, dollar, carriage]

/-- A string without escapes and interpolations. -/
theorem Lexes.quoted {modes : List Mode} (top : modes.headD .default = .default)
    {content rest : Text} {tokens : List Token} (some : content ≠ []) (plain : Plain content)
    (lexed : Lexes modes rest tokens) :
    Lexes modes ('"' :: (content ++ '"' :: rest))
      (.char '"' :: .str content :: .char '"' :: tokens) := by
  have inside : lexStep (.string :: modes) (content ++ '"' :: rest) =
      Option.some (Option.some (.str content), .string :: modes, '"' :: rest) := by
    have whole := chunk_plain plain rest
    cases content with
    | nil => exact absurd rfl some
    | cons c content =>
        have here := plain c List.mem_cons_self
        simp only [List.mem_cons, List.not_mem_nil, or_false, not_or] at here
        rw [List.cons_append] at whole ⊢
        change lexString _ _ = _
        rw [lexString, whole]
        all_goals simp [here]
  exact Lexes.mark top rfl (by decide) (.next inside (.next rfl lexed))

/-! ## Names with dots between them -/

def dotted : List Text → Text
  | [] => []
  | [name] => name
  | name :: next :: names => name ++ '.' :: dotted (next :: names)

def dottedTokens : List Text → List Token
  | [] => []
  | [name] => [word name]
  | name :: next :: names => word name :: .char '.' :: dottedTokens (next :: names)

theorem dotted_append {names : List Text} (some : names ≠ []) (name : Text) (names' : List Text) :
    dotted (names ++ name :: names') = dotted names ++ '.' :: dotted (name :: names') := by
  induction names using dotted.induct with
  | case1 => exact absurd rfl some
  | case2 first => rfl
  | case3 first next names ih =>
      have rest := ih (List.cons_ne_nil next names)
      rw [List.cons_append] at rest
      rw [List.cons_append, List.cons_append, dotted, dotted, rest, List.append_assoc,
        List.cons_append]

theorem isIdentifier_quiet {name : Text} (identifier : isIdentifier name = true) : Quiet name := by
  cases name with
  | nil => cases identifier
  | cons c rest =>
      rw [isIdentifier, Bool.and_eq_true, List.all_eq_true] at identifier
      obtain ⟨start, inside⟩ := identifier
      have noMark (d : Char) (noStart : isNameStart d = false) (noName : isNameChar d = false) :
          d ∉ c :: rest := by
        rw [List.mem_cons, not_or]
        refine ⟨(isNameStart_ne start noStart).symm, ?_⟩
        intro member
        rw [inside d member] at noName
        cases noName
      exact ⟨noMark '/' rfl rfl, noMark ':' rfl rfl⟩

theorem dotted_quiet {names : List Text} (identifiers : ∀ name ∈ names, isIdentifier name = true) :
    Quiet (dotted names) := by
  induction names using dotted.induct with
  | case1 => exact ⟨List.not_mem_nil, List.not_mem_nil⟩
  | case2 name => exact isIdentifier_quiet (identifiers name List.mem_cons_self)
  | case3 name next names ih =>
      rw [dotted]
      refine Quiet.append (isIdentifier_quiet (identifiers name List.mem_cons_self)) ?_
      exact (ih fun other member => identifiers other (List.mem_cons_of_mem name member)).point

theorem dotted_start {names : List Text} (some : names ≠ [])
    (identifiers : ∀ name ∈ names, isIdentifier name = true) :
    ∃ c rest, dotted names = c :: rest ∧ isNameStart c = true := by
  have start {name : Text} (identifier : isIdentifier name = true) :
      ∃ c rest, name = c :: rest ∧ isNameStart c = true := by
    cases name with
    | nil => cases identifier
    | cons c rest =>
        rw [isIdentifier, Bool.and_eq_true] at identifier
        exact ⟨c, rest, rfl, identifier.1⟩
  cases names with
  | nil => exact absurd rfl some
  | cons name names =>
      obtain ⟨c, rest, rfl, starts⟩ := start (identifiers name List.mem_cons_self)
      cases names with
      | nil => exact ⟨c, rest, rfl, starts⟩
      | cons next names => exact ⟨c, rest ++ '.' :: dotted (next :: names), rfl, starts⟩

theorem Lexes.point {modes : List Mode} (top : modes.headD .default = .default)
    {names : List Text} (some : names ≠ [])
    (identifiers : ∀ name ∈ names, isIdentifier name = true) {after : Text} (stops : Stops after)
    {tokens : List Token} (lexed : Lexes modes (dotted names ++ after) tokens) :
    Lexes modes ('.' :: (dotted names ++ after)) (.char '.' :: tokens) := by
  have quiet := dotted_quiet identifiers
  obtain ⟨c, rest, text, start⟩ := dotted_start some identifiers
  rw [text] at quiet lexed ⊢
  exact Lexes.dot top start quiet stops lexed

theorem Lexes.dotted {modes : List Mode} (top : modes.headD .default = .default)
    {names : List Text} (some : names ≠ [])
    (identifiers : ∀ name ∈ names, isIdentifier name = true) {after : Text} (stops : Stops after)
    {tokens : List Token} (lexed : Lexes modes after tokens) :
    Lexes modes (Nix.dotted names ++ after) (dottedTokens names ++ tokens) := by
  induction names using Nix.dotted.induct with
  | case1 => exact absurd rfl some
  | case2 name =>
      have identifier := identifiers name List.mem_cons_self
      have quiet : Quiet (name ++ []) := by
        rw [List.append_nil]
        exact isIdentifier_quiet identifier
      exact Lexes.name top identifier quiet stops (stops.class isNameChar_word) lexed
  | case3 name next names ih =>
      have identifier := identifiers name List.mem_cons_self
      have later : ∀ other ∈ next :: names, isIdentifier other = true :=
        fun other member => identifiers other (List.mem_cons_of_mem name member)
      have rest := Lexes.point top (List.cons_ne_nil next names) later stops
        (ih (List.cons_ne_nil next names) later)
      rw [Nix.dotted, dottedTokens, List.append_assoc]
      refine Lexes.name top identifier ?_ stops ?_ rest
      · exact (isIdentifier_quiet identifier).append (dotted_quiet later).point
      · rintro c ⟨⟩
        rfl

theorem Stops.cons {c : Char} (noWord : isWordChar c = false) (rest : Text) : Stops (c :: rest) := by
  rintro d ⟨⟩
  exact noWord

/-- Names in front of a blank. -/
theorem Lexes.words {modes : List Mode} (top : modes.headD .default = .default)
    {names : List Text} (some : names ≠ [])
    (identifiers : ∀ name ∈ names, isIdentifier name = true) {rest : Text}
    (next : ∀ c ∈ rest.head?, isBlank c = false) {tokens : List Token}
    (lexed : Lexes modes rest tokens) :
    Lexes modes (Nix.dotted names ++ ' ' :: rest) (dottedTokens names ++ tokens) :=
  Lexes.dotted top some identifiers (.cons rfl rest) (.blank top next lexed)

end Nixnas.Nix
