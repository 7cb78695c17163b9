import Nixnas.Nix.Grammar
import Nixnas.Tui.Build

/-!
# The expression of a sized build

`run_pipeline` of `src/tui/src/build.rs` writes the host attribute into the text of
an expression as it is.  The text is the expression that is meant, an attribute of
`nixosConfigurations` extended with one option, exactly for the attributes that need
no quotes.
-/

set_option autoImplicit false

namespace Nixnas.Tui.Build

open Nixnas.Nix

/-! ## What is meant -/

/-- The sizes that the types of the source can hold. -/
def SizeOverride.InRange : SizeOverride → Prop
  | .fixed => True
  | .gib n => n < 2 ^ 32
  | .bytes n => n < 2 ^ 64

/-- The option of `nixnas.boot.usb` that a size forces, and to what. -/
def SizeOverride.forced : SizeOverride → Option (Text × Node .expr)
  | .fixed => none
  | .gib n => some ("imageSizeGiB".toList, .int (toString n).toList)
  | .bytes n => some ("imageSize".toList, .str (toString n).toList)

/-- `builtins.getFlake (toString ./.)` -/
def flakeTree : Node .expr :=
  .app (.select (.var "builtins".toList) ["getFlake".toList])
    (.app (.var "toString".toList) (.path "./.".toList))

/-- The argument of `extendModules`: one module that forces one option. -/
def moduleTree (option : Text) (value : Node .expr) : Node .expr :=
  .attrs (.bind ["modules".toList]
    (.list (.item
      (.lambda ["lib".toList] true
        (.attrs (.bind ["nixnas".toList, "boot".toList, "usb".toList, option]
          (.app (.select (.var "lib".toList) ["mkForce".toList]) value) .noBinds)))
      .noItems))
    .noBinds)

/-- What is extended: the configuration at a path under `nixosConfigurations`. -/
def hostPath (names : List Text) : List Text :=
  "nixosConfigurations".toList :: (names ++ ["extendModules".toList])

def scriptPath : List Text :=
  ["config".toList, "system".toList, "build".toList, "diskoImagesScript".toList]

def sizedTree (names : List Text) (option : Text) (value : Node .expr) : Node .expr :=
  .letIn (.bind ["f".toList] flakeTree .noBinds)
    (.select (.app (.select (.var "f".toList) (hostPath names)) (moduleTree option value))
      scriptPath)

/-! ## The text -/

/-- The value of the option, as it is written. -/
def SizeOverride.valueText : SizeOverride → Text
  | .fixed => []
  | .gib n => (toString n).toList
  | .bytes n => '"' :: ((toString n).toList ++ ['"'])

/-- The host and what is taken of it. -/
def hostText (host : Text) : Text :=
  "f.nixosConfigurations.".toList ++ (host ++ ".extendModules".toList)

def moduleText (option value : Text) : Text :=
  " \x7b modules = [ (\x7b lib, ... \x7d: \x7b nixnas.boot.usb.".toList ++ (option ++
    (" = lib.mkForce ".toList ++ (value ++ "; \x7d) ]; \x7d".toList)))

def sizedText (host option value : Text) : Text :=
  "let f = builtins.getFlake (toString ./.); in (".toList ++ (hostText host ++
    (moduleText option value ++ ").config.system.build.diskoImagesScript".toList))

/-- What each size forces. -/
theorem forced_cases {size : SizeOverride} {option : Text} {value : Node .expr}
    (forced : size.forced = some (option, value)) :
    (∃ n, size = .gib n ∧ option = "imageSizeGiB".toList ∧ value = .int (toString n).toList) ∨
      ∃ n, size = .bytes n ∧ option = "imageSize".toList ∧ value = .str (toString n).toList := by
  cases size with
  | fixed => cases forced
  | gib n =>
      rw [SizeOverride.forced, Option.some.injEq, Prod.mk.injEq] at forced
      exact .inl ⟨n, rfl, forced.1.symm, forced.2.symm⟩
  | bytes n =>
      rw [SizeOverride.forced, Option.some.injEq, Prod.mk.injEq] at forced
      exact .inr ⟨n, rfl, forced.1.symm, forced.2.symm⟩

/-- The host comes through, and the assignment is that of the option. -/
theorem overrideExpr_text (host : String) {size : SizeOverride} {option : Text}
    {value : Node .expr} (forced : size.forced = some (option, value)) :
    ∃ assign what, overrideExpr size (some host) = some (host, assign, what) ∧
      assign.toList = "nixnas.boot.usb.".toList ++
        (option ++ (" = lib.mkForce ".toList ++ (size.valueText ++ [';']))) := by
  obtain ⟨n, rfl, rfl, -⟩ | ⟨n, rfl, rfl, -⟩ := forced_cases forced
  · refine ⟨_, _, rfl, ?_⟩
    unfold SizeOverride.valueText
    simp only [String.toList_append]
    repeat rw [String.toList_ofList]
    simp only [List.cons_append, List.nil_append]
  · refine ⟨_, _, rfl, ?_⟩
    unfold SizeOverride.valueText
    simp only [String.toList_append]
    repeat rw [String.toList_ofList]
    simp only [List.cons_append, List.nil_append, List.append_assoc]

theorem sizedExpr_text {host assign : String} {option value : Text}
    (assigned : assign.toList = "nixnas.boot.usb.".toList ++
      (option ++ (" = lib.mkForce ".toList ++ (value ++ [';'])))) :
    (sizedExpr host assign).toList = sizedText host.toList option value := by
  unfold sizedExpr sizedText hostText moduleText
  simp only [String.toList_append, assigned]
  repeat rw [String.toList_ofList]
  simp only [List.cons_append, List.nil_append, List.append_assoc]

/-! ## Its tokens -/

def openingTokens : List Token :=
  [sign "let", .id "f".toList, sign "=", .id "builtins".toList, sign ".", .id "getFlake".toList,
    sign "(", .id "toString".toList, .path "./.".toList, .pathEnd, sign ")", sign ";", sign "in",
    sign "("]

theorem lexes_opening {rest : Text} {tokens : List Token}
    (lexed : Lexes [] rest tokens) :
    Lexes [] ("let f = builtins.getFlake (toString ./.); in (".toList ++ rest)
      (openingTokens ++ tokens) := by
  have text : "let f = builtins.getFlake (toString ./.); in (".toList ++ rest =
      dotted ["let".toList] ++ ' ' :: (dotted ["f".toList] ++ ' ' :: '=' :: ' ' ::
        (dotted ["builtins".toList, "getFlake".toList] ++ ' ' :: '(' ::
          (dotted ["toString".toList] ++ ' ' :: '.' :: '/' :: '.' :: ')' :: ';' :: ' ' ::
            (dotted ["in".toList] ++ ' ' :: '(' :: rest)))) := by
    rw [String.toList_ofList]
    simp [dotted]
  have read : openingTokens ++ tokens =
      dottedTokens ["let".toList] ++ (dottedTokens ["f".toList] ++ .char '=' ::
        (dottedTokens ["builtins".toList, "getFlake".toList] ++ .char '(' ::
          (dottedTokens ["toString".toList] ++ .path ['.', '/', '.'] :: .pathEnd :: .char ')' ::
            .char ';' :: (dottedTokens ["in".toList] ++ .char '(' :: tokens)))) := by
    simp [openingTokens, dottedTokens, sign, Token.char, word, keywords]
  rw [text, read]
  refine .words rfl (by simp) (by decide) (by simp [dotted, isBlank]) ?_
  refine .words rfl (by simp) (by decide) (by simp [isBlank]) ?_
  refine .equals rfl (.blank rfl (by simp [dotted, isBlank]) ?_)
  refine .words rfl (by simp) (by decide) (by simp [isBlank]) ?_
  refine .plain rfl (by simp) ?_
  refine .words rfl (by simp) (by decide) (by simp [isBlank]) ?_
  refine .here rfl (.plain rfl (by simp) (.plain rfl (by simp) ?_))
  refine .blank rfl (by simp [dotted, isBlank]) ?_
  refine .words rfl (by simp) (by decide) (by simp [isBlank]) ?_
  exact .plain rfl (by simp) lexed

/-- A host with dots is a path of names. -/
theorem hostText_dotted {names : List Text} (some : names ≠ []) :
    hostText (dotted names) = dotted ("f".toList :: hostPath names) := by
  cases names with
  | nil => exact absurd rfl some
  | cons name names =>
      have whole := dotted_append some "extendModules".toList []
      rw [List.cons_append] at whole
      unfold hostText hostPath
      rw [List.cons_append, dotted, dotted, whole]
      simp [dotted]

def moduleTokens (option : Text) (valueTokens : List Token) : List Token :=
  sign "\x7b" :: .id "modules".toList :: sign "=" :: sign "[" :: sign "(" :: sign "\x7b" ::
    .id "lib".toList :: sign "," :: sign "..." :: sign "\x7d" :: sign ":" :: sign "\x7b" ::
    (dottedTokens ["nixnas".toList, "boot".toList, "usb".toList, option] ++ sign "=" ::
      .id "lib".toList :: sign "." :: .id "mkForce".toList :: (valueTokens ++
        [sign ";", sign "\x7d", sign ")", sign "]", sign ";", sign "\x7d"]))

theorem lexes_module {option value : Text} {valueTokens : List Token}
    (identifier : isIdentifier option = true)
    (noBlank : ∀ rest, ∀ c ∈ (value ++ ';' :: rest).head?, isBlank c = false)
    (valued : ∀ {rest : Text} {tokens : List Token},
      Lexes [.default, .default] (';' :: rest) tokens →
      Lexes [.default, .default] (value ++ ';' :: rest) (valueTokens ++ tokens))
    {rest : Text} {tokens : List Token} (lexed : Lexes [] (')' :: rest) tokens) :
    Lexes [] (moduleText option value ++ ')' :: rest)
      (moduleTokens option valueTokens ++ tokens) := by
  have text : moduleText option value ++ ')' :: rest =
      ' ' :: '\x7b' :: ' ' :: (dotted ["modules".toList] ++ ' ' :: '=' :: ' ' :: '[' :: ' ' :: '(' ::
        '\x7b' :: ' ' :: (dotted ["lib".toList] ++ ',' :: ' ' :: '.' :: '.' :: '.' :: ' ' ::
          '\x7d' :: ':' :: ' ' :: '\x7b' :: ' ' ::
          (dotted ["nixnas".toList, "boot".toList, "usb".toList, option] ++ ' ' :: '=' :: ' ' ::
            (dotted ["lib".toList, "mkForce".toList] ++ ' ' :: (value ++ ';' :: ' ' :: '\x7d' ::
              ')' :: ' ' :: ']' :: ';' :: ' ' :: '\x7d' :: ')' :: rest))))) := by
    unfold moduleText
    rw [String.toList_ofList]
    simp [dotted]
  have read : moduleTokens option valueTokens ++ tokens =
      .char '\x7b' :: (dottedTokens ["modules".toList] ++ .char '=' :: .char '[' :: .char '(' ::
        .char '\x7b' :: (dottedTokens ["lib".toList] ++ .char ',' :: .sign ['.', '.', '.'] ::
          .char '\x7d' :: .char ':' :: .char '\x7b' ::
          (dottedTokens ["nixnas".toList, "boot".toList, "usb".toList, option] ++ .char '=' ::
            (dottedTokens ["lib".toList, "mkForce".toList] ++ (valueTokens ++ .char ';' ::
              .char '\x7d' :: .char ')' :: .char ']' :: .char ';' :: .char '\x7d' :: tokens))))) := by
    unfold moduleTokens
    simp [dottedTokens, sign, Token.char, word, keywords]
  rw [text, read]
  refine .blank rfl (by simp [isBlank]) (.braceOpen rfl (.blank rfl (by simp [dotted, isBlank]) ?_))
  refine .words rfl (by simp) (by decide) (by simp [isBlank]) ?_
  refine .equals rfl (.blank rfl (by simp [isBlank]) (.plain rfl (by simp) ?_))
  refine .blank rfl (by simp [isBlank]) (.plain rfl (by simp) (.braceOpen rfl ?_))
  refine .blank rfl (by simp [dotted, isBlank]) ?_
  refine .dotted rfl (by simp) (by decide) (.cons rfl _) (.plain rfl (by simp) ?_)
  refine .blank rfl (by simp [isBlank]) (.ellipsis rfl (.blank rfl (by simp [isBlank]) ?_))
  refine .braceClose (.plain rfl (by simp) (.blank rfl (by simp [isBlank]) (.braceOpen rfl ?_)))
  refine .blank rfl (by simp [dotted, isBlank]) ?_
  refine .words rfl (by simp) (by simp [identifier]; decide) (by simp [isBlank]) ?_
  refine .equals rfl (.blank rfl (by simp [dotted, isBlank]) ?_)
  refine .words rfl (by simp) (by decide) (noBlank _) (valued ?_)
  refine .plain rfl (by simp) (.blank rfl (by simp [isBlank]) (.braceClose ?_))
  refine .plain rfl (by simp) (.blank rfl (by simp [isBlank]) (.plain rfl (by simp) ?_))
  exact .plain rfl (by simp) (.blank rfl (by simp [isBlank]) (.braceClose lexed))

def closingTokens : List Token := sign ")" :: sign "." :: dottedTokens scriptPath

theorem lexes_closing :
    Lexes [] (").config.system.build.diskoImagesScript".toList) closingTokens := by
  have text : ").config.system.build.diskoImagesScript".toList =
      ')' :: '.' :: (dotted scriptPath ++ []) := by
    rw [String.toList_ofList]
    simp [scriptPath, dotted]
  have read : closingTokens = .char ')' :: .char '.' :: (dottedTokens scriptPath ++ []) := by
    simp [closingTokens, sign, Token.char]
  have stops : Stops [] := by
    rintro c ⟨⟩
  rw [text, read]
  refine .plain rfl (by simp) (.point rfl (by simp [scriptPath]) (by decide) stops ?_)
  exact .dotted rfl (by simp [scriptPath]) (by decide) stops .done

/-- The value of the option, as it is read. -/
def SizeOverride.valueTokens : SizeOverride → List Token
  | .fixed => []
  | .gib n => [.int (toString n).toList]
  | .bytes n => [sign "\"", .str (toString n).toList, sign "\""]

theorem toString_digits (n : Nat) :
    (toString n).toList ≠ [] ∧ (∀ c ∈ (toString n).toList, c.isDigit = true) ∧
      Nat.ofDigitChars 10 (toString n).toList 0 = n := by
  have digits : (toString n).toList = Nat.toDigits 10 n := Nat.toList_repr
  rw [digits]
  refine ⟨Nat.toDigits_ne_nil, ?_, Nat.ofDigitChars_ten_toDigits⟩
  exact fun c member => Nat.isDigit_of_mem_toDigits (by decide) (by decide) member

theorem forced_attr {size : SizeOverride} {option : Text} {value : Node .expr}
    (forced : size.forced = some (option, value)) : isAttrName option = true := by
  obtain ⟨n, -, rfl, -⟩ | ⟨n, -, rfl, -⟩ := forced_cases forced
  · decide
  · decide

theorem isDigit_noBlank {c : Char} (digit : c.isDigit = true) : isBlank c = false := by
  by_contra blank
  simp only [isBlank, Bool.not_eq_false, Bool.or_eq_true, decide_eq_true_eq] at blank
  rcases blank with ((rfl | rfl) | rfl) | rfl
  all_goals exact absurd digit (by decide)

theorem valueText_noBlank {size : SizeOverride} {option : Text} {value : Node .expr}
    (forced : size.forced = some (option, value)) (rest : Text) :
    ∀ c ∈ (size.valueText ++ ';' :: rest).head?, isBlank c = false := by
  obtain ⟨n, rfl, -⟩ | ⟨n, rfl, -⟩ := forced_cases forced
  · obtain ⟨nonempty, digits, -⟩ := toString_digits n
    rw [SizeOverride.valueText]
    cases text : (toString n).toList with
    | nil => exact absurd text nonempty
    | cons d tail =>
        rintro c ⟨⟩
        rw [text] at digits
        exact isDigit_noBlank (digits d List.mem_cons_self)
  · rintro c ⟨⟩
    rfl

theorem lexes_value {size : SizeOverride} (range : size.InRange) {option : Text}
    {value : Node .expr} (forced : size.forced = some (option, value)) {rest : Text}
    {tokens : List Token} (lexed : Lexes [.default, .default] (';' :: rest) tokens) :
    Lexes [.default, .default] (size.valueText ++ ';' :: rest) (size.valueTokens ++ tokens) := by
  obtain ⟨n, rfl, -⟩ | ⟨n, rfl, -⟩ := forced_cases forced
  · obtain ⟨nonempty, digits, read⟩ := toString_digits n
    have small : Nat.ofDigitChars 10 (toString n).toList 0 < 2 ^ 63 := by
      rw [read]
      exact Nat.lt_trans range (by decide)
    exact .int rfl nonempty digits small (.cons rfl rest) lexed
  · obtain ⟨nonempty, digits, -⟩ := toString_digits n
    have plain : Plain (toString n).toList := by
      intro c member special
      have digit := digits c member
      have others : ['"', '\\', '$', '\r'].any Char.isDigit = false := by decide
      rw [List.any_eq_false] at others
      exact others c special digit
    have read := Lexes.quoted rfl nonempty plain lexed
    simpa [SizeOverride.valueText, SizeOverride.valueTokens, sign, Token.char] using read

/-! ## Its tree -/

theorem derives_value {size : SizeOverride} {option : Text} {value : Node .expr}
    (forced : size.forced = some (option, value)) : Derives .simple size.valueTokens value := by
  obtain ⟨n, rfl, -, rfl⟩ | ⟨n, rfl, -, rfl⟩ := forced_cases forced
  · exact .int _
  · exact .str (.one _)

theorem derives_flake :
    Derives .app
      [.id "builtins".toList, sign ".", .id "getFlake".toList, sign "(", .id "toString".toList,
        .path "./.".toList, .pathEnd, sign ")"] flakeTree := by
  have function := Derives.select (.var "builtins".toList) (.lastAttr (.name "getFlake".toList))
  have here := Derives.app (.ofSelect (.ofSimple (.var "toString".toList)))
    (.ofSimple (.path "./.".toList))
  exact .app (.ofSelect function) (.ofSimple (.parens (.ofApp here)))

theorem derives_module {option : Text} (attr : isAttrName option = true)
    {valueTokens : List Token} {value : Node .expr} (derived : Derives .simple valueTokens value) :
    Derives .simple (moduleTokens option valueTokens) (moduleTree option value) := by
  have names : ∀ name ∈ ["nixnas".toList, "boot".toList, "usb".toList, option],
      isAttrName name = true := by
    simp [attr]
    decide
  have path := Derives.dotted (List.cons_ne_nil _ _) names
  have mkForce := Derives.select (.var "lib".toList) (.lastAttr (.name "mkForce".toList))
  have option := Derives.bind path (.ofApp (.app (.ofSelect mkForce) (.ofSimple derived))) .noBinds
  have module := Derives.lambda (.cons "lib".toList .more)
    (.ofApp (.ofSelect (.ofSimple (.attrs option))))
  have modules := Derives.bind (.lastAttr (.name "modules".toList))
    (.ofApp (.ofSelect (.ofSimple (.list (.item (.ofSimple (.parens module)) .noItems))))) .noBinds
  have argument := Derives.attrs modules
  unfold moduleTree
  simpa [moduleTokens] using argument

theorem derives_sized {names : List Text} (attrs : ∀ name ∈ names, isAttrName name = true)
    {option : Text} (attr : isAttrName option = true) {valueTokens : List Token}
    {value : Node .expr} (derived : Derives .simple valueTokens value) :
    Derives .function
      (openingTokens ++ (dottedTokens ("f".toList :: hostPath names) ++
        (moduleTokens option valueTokens ++ closingTokens)))
      (sizedTree names option value) := by
  have path : ∀ name ∈ hostPath names, isAttrName name = true := by
    rw [hostPath, List.forall_mem_cons, List.forall_mem_append, List.forall_mem_singleton]
    exact ⟨by decide, attrs, by decide⟩
  have script : ∀ name ∈ scriptPath, isAttrName name = true := by decide
  have defs := Derives.bind (.lastAttr (.name "f".toList)) (.ofApp derives_flake) .noBinds
  have hostSome : hostPath names ≠ [] := List.cons_ne_nil _ _
  have scriptSome : scriptPath ≠ [] := List.cons_ne_nil _ _
  have host := Derives.selection "f".toList (by decide) hostSome path
  have extended := Derives.parens
    (.ofApp (.app (.ofSelect host) (.ofSimple (derives_module attr derived))))
  have whole := Derives.letIn defs (.ofApp (.ofSelect
    (.select extended (Derives.dotted scriptSome script))))
  unfold sizedTree
  simpa only [openingTokens, closingTokens, List.cons_append, List.nil_append, List.append_assoc]
    using whole

/-- A host that is a path of plain names is read as this path. -/
theorem reads_dotted {names : List Text} (nonempty : names ≠ [])
    (attrs : ∀ name ∈ names, isAttrName name = true) {size : SizeOverride}
    (range : size.InRange) {option : Text} {value : Node .expr}
    (forced : size.forced = some (option, value)) :
    Reads (sizedText (dotted names) option size.valueText) (sizedTree names option value) := by
  have attr := forced_attr forced
  have identifiers : ∀ name ∈ "f".toList :: hostPath names, isIdentifier name = true := by
    rw [hostPath, List.forall_mem_cons, List.forall_mem_cons, List.forall_mem_append,
      List.forall_mem_singleton]
    exact ⟨by decide, by decide, fun name member => isAttrName_identifier (attrs name member),
      by decide⟩
  have module := lexes_module (isAttrName_identifier attr) (valueText_noBlank forced)
    (lexes_value range forced) lexes_closing
  refine ⟨_, ?_, derives_sized attrs attr (derives_value forced)⟩
  unfold sizedText
  rw [hostText_dotted nonempty]
  exact lexes_opening (.dotted rfl (List.cons_ne_nil _ _) identifiers (.cons rfl _) module)

/-! ## Its ink -/

theorem flakeTree_ink : flakeTree.ink = 30 := by decide

theorem moduleTree_ink {option : Text} (attr : isAttrName option = true) (value : Node .expr) :
    (moduleTree option value).ink = 56 + ink option + (value.ink + value.parens 2) := by
  have path : pathInk ["nixnas".toList, "boot".toList, "usb".toList, option] =
      nameInk "nixnas".toList + 1 + (nameInk "boot".toList + 1 + (nameInk "usb".toList + 1 +
        ink option)) := by
    simp only [pathInk, nameInk_of_isAttrName attr]
  have nixnas : nameInk "nixnas".toList = 6 := by decide
  have boot : nameInk "boot".toList = 4 := by decide
  have usb : nameInk "usb".toList = 3 := by decide
  have modules : pathInk ["modules".toList] = 7 := by decide
  have lib : formalsInk ["lib".toList] true = 7 := by decide
  have mkForce : (Node.select (.var "lib".toList) ["mkForce".toList]).ink = 11 := by decide
  have parenthesised (body : Node .expr) : (Node.lambda ["lib".toList] true body).parens 2 = 2 := rfl
  have alone : (Node.select (.var "lib".toList) ["mkForce".toList]).parens 1 = 0 := rfl
  unfold moduleTree
  simp only [Node.ink, path, modules, lib, nixnas, boot, usb, parenthesised, alone] at mkForce ⊢
  omega

/-- The text has the ink of its tree, but for the quotes that the host may need. -/
theorem sizedTree_ink (host : Text) {option : Text} (attr : isAttrName option = true)
    (value : Node .expr) :
    (sizedTree [host] option value).ink =
      170 + nameInk host + ink option + (value.ink + value.parens 2) := by
  have definition : pathInk ["f".toList] = 1 := by decide
  have script : pathInk scriptPath = 37 := by decide
  have path : pathInk (hostPath [host]) = nameInk "nixosConfigurations".toList + 1 +
      (nameInk host + 1 + nameInk "extendModules".toList) := rfl
  have under : nameInk "nixosConfigurations".toList = 19 := by
    rw [String.toList_ofList]
    decide
  have extend : nameInk "extendModules".toList = 13 := by
    rw [String.toList_ofList]
    decide
  have configuration : (Node.select (.var "f".toList) (hostPath [host])).ink =
      2 + pathInk (hostPath [host]) := rfl
  have alone : (Node.select (.var "f".toList) (hostPath [host])).parens 1 = 0 := rfl
  have argument : (moduleTree option value).parens 2 = 0 := rfl
  have call : (Node.app (.select (.var "f".toList) (hostPath [host]))
      (moduleTree option value)).parens 3 = 2 := rfl
  unfold sizedTree
  simp only [Node.ink, definition, script, path, under, extend, flakeTree_ink,
    moduleTree_ink attr, alone, argument, call] at configuration ⊢
  omega

theorem sizedText_ink (host option value : Text) :
    ink (sizedText host option value) = 170 + ink host + ink option + ink value := by
  have opening : ink "let f = builtins.getFlake (toString ./.); in (".toList = 39 := by
    rw [String.toList_ofList]
    decide
  have under : ink "f.nixosConfigurations.".toList = 22 := by
    rw [String.toList_ofList]
    decide
  have extend : ink ".extendModules".toList = 14 := by
    rw [String.toList_ofList]
    decide
  have module : ink " \x7b modules = [ (\x7b lib, ... \x7d: \x7b nixnas.boot.usb.".toList = 38 := by
    rw [String.toList_ofList]
    decide
  have mkForce : ink " = lib.mkForce ".toList = 12 := by
    rw [String.toList_ofList]
    decide
  have close : ink "; \x7d) ]; \x7d".toList = 6 := by
    rw [String.toList_ofList]
    decide
  have script : ink ").config.system.build.diskoImagesScript".toList = 39 := by
    rw [String.toList_ofList]
    decide
  unfold sizedText hostText moduleText
  simp only [ink_append, opening, under, extend, module, mkForce, close, script]
  omega

theorem value_ink {size : SizeOverride} {option : Text} {value : Node .expr}
    (forced : size.forced = some (option, value)) :
    value.ink + value.parens 2 = ink size.valueText := by
  obtain ⟨n, rfl, -, rfl⟩ | ⟨n, rfl, -, rfl⟩ := forced_cases forced
  · rfl
  · have noColon : ':' ∉ (toString n).toList := by
      intro colon
      exact absurd ((toString_digits n).2.1 ':' colon) (by decide)
    have quote : ink ['"'] = 1 := rfl
    rw [SizeOverride.valueText, ink_cons, ink_append, quote,
      Node.parens_rank (show 2 ≤ 3 by decide), Node.ink, strInk, if_neg noColon]
    omega

/-! ## When the text is what is meant -/

/-- A host that needs quotes is not read as itself. -/
theorem not_reads_quoted {host : Text} (quoted : isAttrName host = false) {size : SizeOverride}
    {option : Text} {value : Node .expr} (forced : size.forced = some (option, value)) :
    ¬ Reads (sizedText host option size.valueText) (sizedTree [host] option value) := by
  rintro ⟨tokens, lexed, derived⟩
  obtain ⟨proper, enough⟩ := lexed.sound
  have needed := derived.ink_le proper
  have quotes : nameInk host = ink host + 2 := by
    rw [nameInk, quoted, if_neg Bool.false_ne_true]
  rw [sizedTree_ink host (forced_attr forced), value_ink forced] at needed
  rw [sizedText_ink] at enough
  omega

theorem reads_sizedText_iff (host : Text) {size : SizeOverride} (range : size.InRange)
    {option : Text} {value : Node .expr} (forced : size.forced = some (option, value)) :
    Reads (sizedText host option size.valueText) (sizedTree [host] option value) ↔
      isAttrName host = true := by
  constructor
  · intro reads
    by_contra quoted
    exact not_reads_quoted (Bool.not_eq_true _ |>.mp quoted) forced reads
  · intro plain
    exact reads_dotted (List.cons_ne_nil host [])
      (List.forall_mem_singleton.mpr plain) range forced

/-- The expression of step 1 is the text with the host in it. -/
theorem passed_text {cfg : Config} {host : String} (set : cfg.hostAttr = some host)
    {size : SizeOverride} {option : Text} {value : Node .expr}
    (forced : size.forced = some (option, value)) {scriptLink expr : String}
    (passed : ["--expr", expr] <:+ nixArgs scriptLink cfg size) :
    expr.toList = sizedText host.toList option size.valueText := by
  obtain ⟨assign, what, sized, assigned⟩ := overrideExpr_text host forced
  obtain ⟨first, args⟩ := passed
  unfold nixArgs at args
  simp only [set, sized] at args
  have last := congrArg List.getLast? args
  simp only [List.getLast?_append, List.getLast?_cons_cons, List.getLast?_singleton,
    Option.some_or, Option.some.injEq] at last
  rw [last]
  exact sizedExpr_text assigned

end Nixnas.Tui.Build
