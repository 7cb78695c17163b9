import Mathlib.Algebra.GroupWithZero.Nat
import Mathlib.Data.List.TakeWhile
import Mathlib.Tactic.SplitIfs

/-!
# The lexical rules of the Nix language

A token is the longest match among the rules; a rule that comes first wins a tie.
Strings, indented strings and paths with interpolations have rules of their own,
and what is inside an interpolation is read by the rules outside again, so the
lexer keeps a stack of modes.
-/

set_option autoImplicit false

namespace Nixnas.Nix

abbrev Text := List Char

/-! ## Character classes -/

def isBlank (c : Char) : Bool := c = ' ' || c = '\t' || c = '\r' || c = '\n'

def isNameStart (c : Char) : Bool := c.isAlpha || c = '_'

def isNameChar (c : Char) : Bool := c.isAlphanum || c = '_' || c = '\'' || c = '-'

def isPathChar (c : Char) : Bool :=
  c.isAlphanum || c = '.' || c = '_' || c = '-' || c = '+'

def isSchemeChar (c : Char) : Bool := c.isAlphanum || c = '+' || c = '-' || c = '.'

def isUriChar (c : Char) : Bool := c.isAlphanum || "%/?:@&=+$,-_.!~*'".toList.contains c

def keywords : List Text :=
  ["if", "then", "else", "assert", "with", "let", "in", "rec", "inherit", "or"].map String.toList

/-- An identifier; the name of a variable is one that is no keyword. -/
def isIdentifier : Text → Bool
  | [] => false
  | c :: rest => isNameStart c && rest.all isNameChar

/-! ## Tokens -/

inductive Token where
  | id (name : Text)
  /-- A keyword, an operator or a single character, by its text. -/
  | sign (text : Text)
  | int (digits : Text)
  | float (text : Text)
  /-- A path, up to its first interpolation. -/
  | path (text : Text)
  | pathEnd
  | searchPath (text : Text)
  | uri (text : Text)
  /-- A piece of a string or of a path, by what it stands for. -/
  | str (content : Text)
  | indOpen
  /-- A piece of an indented string; an escaped one has no indentation to lose. -/
  | indStr (indented : Bool) (content : Text)
  | indClose
  deriving DecidableEq, Repr

def Token.char (c : Char) : Token := .sign [c]

/-! ## What the rules match

Each of these is the length of the longest match of a rule, 0 without one.
-/

def run (p : Char → Bool) (text : Text) : Nat := (text.takeWhile p).length

def nameLength : Text → Nat
  | [] => 0
  | c :: rest => if isNameStart c then run isNameChar rest + 1 else 0

def exponentLength : Text → Nat
  | e :: sign :: rest =>
      if e = 'e' || e = 'E' then
        if sign = '+' || sign = '-' then
          let digits := run Char.isDigit rest
          if digits = 0 then 0 else digits + 2
        else
          let digits := run Char.isDigit (sign :: rest)
          if digits = 0 then 0 else digits + 1
      else 0
  | _ => 0

/-- A whole part without a leading zero, or none or a single zero before digits. -/
def mantissaLength (text : Text) : Nat :=
  let whole := text.takeWhile Char.isDigit
  match text.dropWhile Char.isDigit with
  | '.' :: rest =>
      let digits := run Char.isDigit rest
      if whole = [] ∨ whole = ['0'] then
        if digits = 0 then 0 else whole.length + 1 + digits
      else if whole.head? = some '0' then 0
      else whole.length + 1 + digits
  | _ => 0

def floatLength (text : Text) : Nat :=
  let mantissa := mantissaLength text
  if mantissa = 0 then 0 else mantissa + exponentLength (text.drop mantissa)

/-- Path characters and slashes, no two slashes together. -/
def pathRun : Bool → Text → Text
  | _, [] => []
  | afterSlash, c :: rest =>
      if isPathChar c then c :: pathRun false rest
      else if c = '/' && !afterSlash then c :: pathRun true rest
      else []

/-- A path has a slash with a path character behind it. -/
def pathLength (text : Text) : Nat :=
  let found := pathRun false text
  if '/' ∈ found.dropLast then found.length else 0

def homePathLength : Text → Nat
  | '~' :: rest =>
      let found := pathRun false rest
      if found.head? = some '/' ∧ 2 ≤ found.length then found.length + 1 else 0
  | _ => 0

/-- A first segment of a path that ends in an interpolation, with the opening of it. -/
def segmentLength (text : Text) : Nat :=
  match text.dropWhile isPathChar with
  | '/' :: '$' :: '{' :: _ => run isPathChar text + 3
  | _ => 0

def homeSegmentLength : Text → Nat
  | '~' :: '/' :: '$' :: '{' :: _ => 4
  | _ => 0

def searchPathLength : Text → Nat
  | '<' :: rest =>
      let found := pathRun true rest
      if found ≠ [] ∧ found.getLast? ≠ some '/' ∧ (rest.drop found.length).head? = some '>' then
        found.length + 2
      else 0
  | _ => 0

def uriLength : Text → Nat
  | [] => 0
  | c :: rest =>
      if c.isAlpha then
        match rest.dropWhile isSchemeChar with
        | ':' :: target =>
            if run isUriChar target = 0 then 0
            else run isSchemeChar rest + 2 + run isUriChar target
        | _ => 0
      else 0

/-- The length of a comment up to its end. -/
def closeComment : Text → Option Nat
  | '*' :: '/' :: _ => some 2
  | _ :: rest => (closeComment rest).map (· + 1)
  | [] => none

def blankLength : Text → Nat
  | '#' :: rest => run (fun c => c ≠ '\n' && c ≠ '\r') rest + 1
  | '/' :: '*' :: rest => ((closeComment rest).map (· + 2)).getD 0
  | text => run isBlank text

def operators : List Text :=
  ["...", "==", "!=", "<=", ">=", "&&", "||", "->", "//", "++", "|>", "<|", "$\x7b"].map String.toList

def operatorLength (text : Text) : Nat :=
  ((operators.find? fun operator => operator.isPrefixOf text).map List.length).getD 0

/-- Two quotes, and the blank rest of their line. -/
def indOpenLength : Text → Nat
  | '\'' :: '\'' :: rest =>
      let spaces := run (· = ' ') rest
      if (rest.drop spaces).head? = some '\n' then spaces + 3 else 2
  | _ => 0

inductive Rule where
  | operator | name | int | float | segment | homeSegment | path | homePath | searchPath | uri
  | indOpen | blank | char
  deriving DecidableEq, Repr

/-- What each rule matches, in the order of the rules. -/
def candidates (text : Text) : List (Rule × Nat) :=
  [(.operator, operatorLength text), (.name, nameLength text),
    (.int, run Char.isDigit text), (.float, floatLength text), (.indOpen, indOpenLength text),
    (.segment, segmentLength text), (.homeSegment, homeSegmentLength text),
    (.path, pathLength text), (.homePath, homePathLength text),
    (.searchPath, searchPathLength text), (.uri, uriLength text), (.blank, blankLength text)]

/-- The first of the longest; any single character is the last rule. -/
def longest : List (Rule × Nat) → Rule × Nat
  | [] => (.char, 1)
  | candidate :: rest =>
      let best := longest rest
      if best.2 ≤ candidate.2 then candidate else best

/-! ## Strings -/

/-- What stands behind a backslash. -/
def unescape (c : Char) : Char :=
  if c = 'n' then '\n' else if c = 'r' then '\r' else if c = 't' then '\t' else c

/-- The text of a string up to its end or an interpolation: what it stands for, and
what is left. -/
def chunk : Text → Text × Text
  | [] => ([], [])
  | '"' :: rest => ([], '"' :: rest)
  | '$' :: '\x7b' :: rest => ([], '$' :: '\x7b' :: rest)
  | '$' :: '$' :: rest => ('$' :: '$' :: (chunk rest).1, (chunk rest).2)
  | '\\' :: c :: rest => (unescape c :: (chunk rest).1, (chunk rest).2)
  | '\r' :: '\n' :: rest => ('\n' :: (chunk rest).1, (chunk rest).2)
  | '\r' :: rest => ('\n' :: (chunk rest).1, (chunk rest).2)
  | c :: rest => (c :: (chunk rest).1, (chunk rest).2)

/-- The length of the text of an indented string before the next quote pair, escape or
interpolation. -/
def indRun : Text → Nat
  | '$' :: c :: rest => if c = '\x7b' || c = '\'' then 0 else indRun rest + 2
  | '\'' :: c :: rest => if c = '\'' || c = '$' then 0 else indRun rest + 2
  | c :: rest => if c = '$' || c = '\'' then 0 else indRun rest + 1
  | [] => 0

/-! ## The lexer -/

inductive Mode where
  | default | string | indString
  /-- Inside a path; after a trailing slash of it there has to be an interpolation. -/
  | path | pathSlash
  deriving DecidableEq, Repr

/-- A token or none, the modes after it and the text behind it. -/
abbrev Found := Option Token × List Mode × Text

/-- A name is a keyword or an identifier. -/
def word (found : Text) : Token := if found ∈ keywords then .sign found else .id found

/-- What a sign opens or closes. -/
def signModes (modes : List Mode) (found : Text) : List Mode :=
  if found = ['\x7b'] ∨ found = ['$', '\x7b'] then .default :: modes
  else if found = ['\x7d'] then modes.tail
  else if found = ['"'] then .string :: modes
  else modes

def pathModes (modes : List Mode) (found : Text) : List Mode :=
  (if found.getLast? = some '/' then .pathSlash else .path) :: modes

def applyRule (modes : List Mode) (text : Text) (rule : Rule) (length : Nat) : Option Found :=
  let found := text.take length
  let rest := text.drop length
  match rule with
  | .operator | .char => some (some (.sign found), signModes modes found, rest)
  | .name => some (some (word found), modes, rest)
  | .int =>
      if Nat.ofDigitChars 10 found 0 < 2 ^ 63 then some (some (.int found), modes, rest) else none
  | .float => some (some (.float found), modes, rest)
  -- The opening of the interpolation is left for the next token.
  | .segment | .homeSegment =>
      some (some (.path (text.take (length - 2))), .pathSlash :: modes, text.drop (length - 2))
  | .path | .homePath => some (some (.path found), pathModes modes found, rest)
  | .searchPath => some (some (.searchPath found), modes, rest)
  | .uri => some (some (.uri found), modes, rest)
  | .indOpen => some (some .indOpen, .indString :: modes, rest)
  | .blank => some (none, modes, rest)

def lexDefault (modes : List Mode) (text : Text) : Option Found :=
  if text = [] then none
  else applyRule modes text (longest (candidates text)).1 (longest (candidates text)).2

def lexString (modes : List Mode) : Text → Option Found
  | [] => none
  | '"' :: rest => some (some (.sign ['"']), modes.tail, rest)
  | '$' :: '\x7b' :: rest => some (some (.sign ['$', '\x7b']), .default :: modes, rest)
  | text => some (some (.str (chunk text).1), modes, (chunk text).2)

def lexIndString (modes : List Mode) (text : Text) : Option Found :=
  if indRun text ≠ 0 then
    some (some (.indStr true (text.take (indRun text))), modes, text.drop (indRun text))
  else
    match text with
    | '\'' :: '\'' :: '$' :: rest => some (some (.indStr false ['$']), modes, rest)
    | '\'' :: '\'' :: '\'' :: rest => some (some (.indStr false ['\'', '\'']), modes, rest)
    | '\'' :: '\'' :: '\\' :: c :: rest => some (some (.indStr false [unescape c]), modes, rest)
    | '\'' :: '\'' :: rest => some (some .indClose, modes.tail, rest)
    | '$' :: '\x7b' :: rest => some (some (.sign ['$', '\x7b']), .default :: modes, rest)
    | c :: rest => some (some (.indStr false [c]), modes, rest)
    | [] => none

/-- In a path; the head of the modes is a mode of it. -/
def lexPath (afterSlash : Bool) (modes : List Mode) (text : Text) : Option Found :=
  match text with
  | '$' :: '\x7b' :: rest =>
      some (some (.sign ['$', '\x7b']), .default :: .path :: modes.tail, rest)
  | text =>
      let found := pathRun false text
      if found ≠ [] then
        some (some (.str found), pathModes modes.tail found, text.drop found.length)
      else if afterSlash then none
      else some (some .pathEnd, modes.tail, text)

def lexStep (modes : List Mode) (text : Text) : Option Found :=
  match modes.headD .default with
  | .default => lexDefault modes text
  | .string => lexString modes text
  | .indString => lexIndString modes text
  | .path => lexPath false modes text
  | .pathSlash => lexPath true modes text

/-- The tokens of a text, in the modes it is entered with. -/
inductive Lexes : List Mode → Text → List Token → Prop where
  | done : Lexes [] [] []
  | skip {modes modes' : List Mode} {text rest : Text} {tokens : List Token} :
      lexStep modes text = some (none, modes', rest) → Lexes modes' rest tokens →
      Lexes modes text tokens
  | next {modes modes' : List Mode} {text rest : Text} {token : Token} {tokens : List Token} :
      lexStep modes text = some (some token, modes', rest) → Lexes modes' rest tokens →
      Lexes modes text (token :: tokens)

/-! ## Ink

The characters of a text that are not blank.  No rule makes any: a token stands for
no more of them than were read.
-/

def ink (text : Text) : Nat := text.countP fun c => !isBlank c

@[simp] theorem ink_nil : ink [] = 0 := rfl

@[simp] theorem ink_append (text text' : Text) : ink (text ++ text') = ink text + ink text' :=
  List.countP_append

theorem ink_cons (c : Char) (text : Text) : ink (c :: text) = ink [c] + ink text :=
  ink_append [c] text

theorem ink_take_drop (n : Nat) (text : Text) :
    ink (text.take n) + ink (text.drop n) = ink text := by
  rw [← ink_append, List.take_append_drop]

theorem ink_sublist {text text' : Text} (part : text.Sublist text') : ink text ≤ ink text' :=
  part.countP_le

def Token.ink : Token → Nat
  | .id name => Nix.ink name
  | .sign text => Nix.ink text
  | .int digits => Nix.ink digits
  | .float text => Nix.ink text
  | .path text => Nix.ink text
  | .pathEnd => 0
  | .searchPath text => Nix.ink text
  | .uri text => Nix.ink text
  | .str content => Nix.ink content
  | .indOpen => 2
  | .indStr _ content => Nix.ink content
  | .indClose => 2

def inkOf (tokens : List Token) : Nat := (tokens.map Token.ink).sum

@[simp] theorem inkOf_nil : inkOf [] = 0 := rfl

@[simp] theorem inkOf_cons (token : Token) (tokens : List Token) :
    inkOf (token :: tokens) = token.ink + inkOf tokens := rfl

@[simp] theorem inkOf_append (tokens tokens' : List Token) :
    inkOf (tokens ++ tokens') = inkOf tokens + inkOf tokens' := by
  simp [inkOf]

@[simp] theorem word_ink (found : Text) : (word found).ink = ink found := by
  rw [word]
  split <;> rfl

theorem ink_unescape (c : Char) : ink [unescape c] ≤ ink [c] := by
  unfold unescape
  split_ifs with isN isR isT
  · exact Nat.zero_le _
  · exact Nat.zero_le _
  · exact Nat.zero_le _
  · exact Nat.le_refl _

/-- A character stands for one that is read. -/
theorem ink_char {c d : Char} {content rest text : Text} (char : ink [c] ≤ ink [d])
    (tail : ink content + ink rest ≤ ink text) :
    ink (c :: content) + ink rest ≤ ink (d :: text) := by
  rw [ink_cons c content, ink_cons d text]
  omega

theorem chunk_ink (text : Text) : ink (chunk text).1 + ink (chunk text).2 ≤ ink text := by
  fun_induction chunk text with
  | case1 => exact Nat.le_refl _
  | case2 rest => simp
  | case3 rest => simp
  | case4 rest ih => exact ink_char (Nat.le_refl _) (ink_char (Nat.le_refl _) ih)
  | case5 c rest ih =>
      exact Nat.le_trans (ink_char (ink_unescape c) ih) (ink_sublist (List.sublist_cons_self _ _))
  | case6 rest ih =>
      exact Nat.le_trans (ink_char (Nat.le_refl _) ih) (ink_sublist (List.sublist_cons_self _ _))
  | case7 rest _ ih => exact ink_char (Nat.le_refl _) ih
  | case8 c rest _ _ _ _ _ _ ih => exact ink_char (Nat.le_refl _) ih

/-! ## What a token was read from -/

theorem longest_pos (rules : List (Rule × Nat)) : 1 ≤ (longest rules).2 := by
  induction rules with
  | nil => exact Nat.le_refl 1
  | cons candidate rest ih =>
      simp only [longest]
      split
      · rename_i longer
        exact Nat.le_trans ih longer
      · exact ih

theorem longest_mem (rules : List (Rule × Nat)) :
    longest rules = (.char, 1) ∨ longest rules ∈ rules := by
  induction rules with
  | nil => exact .inl rfl
  | cons candidate rest ih =>
      simp only [longest]
      split
      · exact .inr List.mem_cons_self
      · exact ih.imp_right (List.mem_cons_of_mem _)

/-- What is known of a token by the rule that made it. -/
def Token.Proper : Token → Prop
  | .id name => isIdentifier name = true ∧ name ∉ keywords
  | .uri text => ':' ∈ text
  | _ => True

theorem run_take (p : Char → Bool) (text : Text) : text.take (run p text) = text.takeWhile p := by
  rw [run]
  exact (List.prefix_iff_eq_take.mp (List.takeWhile_prefix p)).symm

theorem nameLength_take {text : Text} (found : 1 ≤ nameLength text) :
    isIdentifier (text.take (nameLength text)) = true := by
  cases text with
  | nil => cases found
  | cons c rest =>
      rw [nameLength] at found ⊢
      split
      · rename_i start
        rw [List.take_succ_cons, run_take, isIdentifier, start, Bool.true_and, List.all_eq_true]
        exact fun d member => List.mem_takeWhile_imp member
      · rename_i noStart
        rw [if_neg noStart] at found
        cases found

theorem uriLength_take (text : Text) :
    1 ≤ uriLength text → ':' ∈ text.take (uriLength text) := by
  fun_cases uriLength text with
  | case1 | case2 | case4 | case5 => simp
  | case3 c rest start target colon reaches =>
      intro found
      have split : rest = rest.takeWhile isSchemeChar ++ ':' :: target := by
        rw [← colon, List.takeWhile_append_dropWhile]
      have length : run isSchemeChar rest + 2 + run isUriChar target =
          (rest.takeWhile isSchemeChar).length + (run isUriChar target + 1) + 1 := by
        rw [run]
        omega
      have taken := congrArg
        (List.take ((rest.takeWhile isSchemeChar).length + (run isUriChar target + 1))) split
      rw [List.take_length_add_append, List.take_succ_cons] at taken
      have reached : ':' ∈ rest.take
          ((rest.takeWhile isSchemeChar).length + (run isUriChar target + 1)) := by
        rw [taken]
        simp
      rw [length, List.take_succ_cons]
      exact List.mem_cons_of_mem c reached

theorem indOpenLength_ink (text : Text) :
    1 ≤ indOpenLength text → 2 ≤ ink (text.take (indOpenLength text)) := by
  have quotes (n : Nat) (rest : Text) : 2 ≤ ink (('\'' :: '\'' :: rest).take (n + 2)) := by
    have quote : ink ['\''] = 1 := rfl
    rw [List.take_succ_cons, List.take_succ_cons, ink_cons, ink_cons _ (rest.take n), quote]
    omega
  fun_cases indOpenLength text with
  | case1 rest spaces newline => exact fun _ => quotes (spaces + 1) rest
  | case2 rest spaces newline => exact fun _ => quotes 0 rest
  | case3 => simp

/-- What the rule that was taken says about what it matched. -/
theorem longest_candidates {text : Text} {rule : Rule} {length : Nat}
    (taken : longest (candidates text) = (rule, length)) :
    1 ≤ length ∧ (rule = .name → length = nameLength text) ∧
      (rule = .uri → length = uriLength text) ∧
      (rule = .indOpen → length = indOpenLength text) := by
  have positive := longest_pos (candidates text)
  have member := longest_mem (candidates text)
  rw [taken] at positive member
  refine ⟨positive, ?_⟩
  rcases member with char | member
  · cases char
    simp
  · simp only [candidates, List.mem_cons, Prod.mk.injEq, List.not_mem_nil] at member
    refine ⟨?_, ?_, ?_⟩
    · rintro rfl
      simpa using member
    · rintro rfl
      simpa using member
    · rintro rfl
      simpa using member

/-- A token is known to be proper, and read from no less ink than its own. -/
def Found.Sound (text : Text) : Found → Prop
  | (none, _, rest) => ink rest ≤ ink text
  | (some token, _, rest) => token.Proper ∧ token.ink + ink rest ≤ ink text

theorem applyRule_sound {modes : List Mode} {text : Text} {rule : Rule} {length : Nat}
    {found : Found} (taken : longest (candidates text) = (rule, length))
    (result : applyRule modes text rule length = some found) : Found.Sound text found := by
  obtain ⟨positive, name, uri, indOpen⟩ := longest_candidates taken
  have whole := ink_take_drop length text
  have segment := ink_take_drop (length - 2) text
  cases rule with
  | operator | float | segment | homeSegment | path | homePath | searchPath | char =>
      cases result
      exact ⟨trivial, by simp only [Token.ink]; omega⟩
  | name =>
      cases result
      refine ⟨?_, by rw [word_ink]; omega⟩
      rw [word]
      split
      · trivial
      · rename_i noKeyword
        rw [name rfl] at positive noKeyword ⊢
        exact ⟨nameLength_take positive, noKeyword⟩
  | int =>
      simp only [applyRule] at result
      split at result
      · cases result
        exact ⟨trivial, by simp only [Token.ink]; omega⟩
      · cases result
  | uri =>
      cases result
      refine ⟨?_, by simp only [Token.ink]; omega⟩
      rw [uri rfl] at positive ⊢
      exact uriLength_take text positive
  | indOpen =>
      cases result
      have quotes := indOpenLength_ink text (indOpen rfl ▸ positive)
      rw [← indOpen rfl] at quotes
      exact ⟨trivial, by simp only [Token.ink]; omega⟩
  | blank =>
      cases result
      simp only [Found.Sound]
      omega

theorem lexDefault_sound {modes : List Mode} {text : Text} {found : Found}
    (result : lexDefault modes text = some found) : Found.Sound text found := by
  rw [lexDefault] at result
  split at result
  · cases result
  · exact applyRule_sound (Prod.eta _).symm result

/-- A token of a part of the text, in front of what is left. -/
theorem Found.sound_part {token : Token} (content : Text) {rest text : Text} (modes : List Mode)
    (proper : token.Proper) (same : token.ink = ink content)
    (part : (content ++ rest).Sublist text) : Found.Sound text (some token, modes, rest) := by
  refine ⟨proper, ?_⟩
  rw [same, ← ink_append]
  exact ink_sublist part

theorem lexString_sound {modes : List Mode} {text : Text} {found : Found} :
    lexString modes text = some found → Found.Sound text found := by
  fun_cases lexString modes text with
  | case1 => exact fun result => nomatch result
  | case2 rest =>
      rintro ⟨⟩
      exact Found.sound_part ['"'] _ trivial rfl (List.Sublist.refl _)
  | case3 rest =>
      rintro ⟨⟩
      exact Found.sound_part ['$', '\x7b'] _ trivial rfl (List.Sublist.refl _)
  | case4 text =>
      rintro ⟨⟩
      exact ⟨trivial, chunk_ink text⟩

theorem lexIndString_sound {modes : List Mode} {text : Text} {found : Found} :
    lexIndString modes text = some found → Found.Sound text found := by
  fun_cases lexIndString modes text with
  | case1 =>
      rintro ⟨⟩
      exact ⟨trivial, Nat.le_of_eq (ink_take_drop _ text)⟩
  | case2 rest =>
      rintro ⟨⟩
      exact Found.sound_part ['$'] _ trivial rfl
        ((List.sublist_cons_self _ _).trans (List.sublist_cons_self _ _))
  | case3 rest =>
      rintro ⟨⟩
      exact Found.sound_part ['\'', '\''] _ trivial rfl (List.sublist_cons_self _ _)
  | case4 c rest =>
      rintro ⟨⟩
      have escaped := ink_unescape c
      refine ⟨trivial, ?_⟩
      simp only [Token.ink]
      rw [ink_cons _ ('\'' :: _), ink_cons _ ('\\' :: _), ink_cons _ (c :: rest), ink_cons c rest]
      omega
  | case5 rest =>
      rintro ⟨⟩
      exact Found.sound_part ['\'', '\''] _ trivial rfl (List.Sublist.refl _)
  | case6 rest =>
      rintro ⟨⟩
      exact Found.sound_part ['$', '\x7b'] _ trivial rfl (List.Sublist.refl _)
  | case7 c rest =>
      rintro ⟨⟩
      exact Found.sound_part [c] _ trivial rfl (List.Sublist.refl _)
  | case8 => exact fun result => nomatch result

theorem pathRun_starts (afterSlash : Bool) (text : Text) : pathRun afterSlash text <+: text := by
  fun_induction pathRun afterSlash text with
  | case1 => exact List.nil_prefix
  | case2 afterSlash c rest _ ih => exact List.prefix_cons_inj c |>.mpr ih
  | case3 afterSlash c rest _ _ ih => exact List.prefix_cons_inj c |>.mpr ih
  | case4 => exact List.nil_prefix

theorem lexPath_sound {afterSlash : Bool} {modes : List Mode} {text : Text} {found : Found} :
    lexPath afterSlash modes text = some found → Found.Sound text found := by
  fun_cases lexPath afterSlash modes text with
  | case1 rest =>
      rintro ⟨⟩
      exact Found.sound_part ['$', '\x7b'] _ trivial rfl (List.Sublist.refl _)
  | case2 text _ path =>
      rintro ⟨⟩
      have whole : path ++ text.drop path.length = text :=
        List.prefix_iff_eq_append.mp (pathRun_starts false text)
      exact Found.sound_part path _ trivial rfl (by simp [whole])
  | case3 => exact fun result => nomatch result
  | case4 =>
      rintro ⟨⟩
      exact Found.sound_part [] _ trivial rfl (List.Sublist.refl _)

theorem lexStep_sound {modes : List Mode} {text : Text} {found : Found}
    (result : lexStep modes text = some found) : Found.Sound text found := by
  rw [lexStep] at result
  split at result
  · exact lexDefault_sound result
  · exact lexString_sound result
  · exact lexIndString_sound result
  · exact lexPath_sound result
  · exact lexPath_sound result

/-- Tokens are proper, and a text has at least their ink. -/
theorem Lexes.sound {modes : List Mode} {text : Text} {tokens : List Token}
    (lexed : Lexes modes text tokens) :
    (∀ token ∈ tokens, token.Proper) ∧ inkOf tokens ≤ ink text := by
  induction lexed with
  | done => simp
  | skip step _ ih =>
      have bound := lexStep_sound step
      exact ⟨ih.1, Nat.le_trans ih.2 bound⟩
  | next step _ ih =>
      obtain ⟨proper, bound⟩ := lexStep_sound step
      refine ⟨?_, ?_⟩
      · intro token member
        rcases List.mem_cons.mp member with rfl | member
        · exact proper
        · exact ih.1 token member
      · rw [inkOf_cons]
        omega

end Nixnas.Nix
