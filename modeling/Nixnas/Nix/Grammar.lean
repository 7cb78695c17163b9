import Nixnas.Nix.Words

/-!
# The grammar of a part of the Nix language

Trees are kept as they are written, without parentheses, blanks and comments.
There are trees for definitions, calls, selections, functions with a set of
arguments, lists, sets and constants; the productions are all those of the
language that make such a tree.
-/

set_option autoImplicit false

namespace Nixnas.Nix

/-! ## Trees -/

inductive Kind where
  | expr | items | binds | attr | attrPath

inductive Node : Kind → Type where
  | var (name : Text) : Node .expr
  | int (digits : Text) : Node .expr
  | str (content : Text) : Node .expr
  | path (text : Text) : Node .expr
  | select (base : Node .expr) (path : List Text) : Node .expr
  | app (function argument : Node .expr) : Node .expr
  /-- A function of a set with these attributes, and with others when `more` is set. -/
  | lambda (formals : List Text) (more : Bool) (body : Node .expr) : Node .expr
  | letIn (binds : Node .binds) (body : Node .expr) : Node .expr
  | list (items : Node .items) : Node .expr
  | attrs (binds : Node .binds) : Node .expr
  | noItems : Node .items
  | item (first : Node .expr) (rest : Node .items) : Node .items
  | noBinds : Node .binds
  | bind (path : List Text) (value : Node .expr) (rest : Node .binds) : Node .binds
  | attr (name : Text) : Node .attr
  | attrPath (names : List Text) : Node .attrPath

/-- The name of an attribute that needs no quotes. -/
def isAttrName (name : Text) : Bool :=
  isIdentifier name && (!keywords.contains name || name = "or".toList)

/-! ## Indented strings -/

/-- The least indentation of a line with more than spaces on it; `start` is the number
of spaces so far at the start of a line. -/
def leastIndent : Nat → Option Nat → Text → Nat
  | least, _, [] => least
  | least, none, c :: rest => leastIndent least (if c = '\n' then some 0 else none) rest
  | least, some spaces, c :: rest =>
      if c = ' ' then leastIndent least (some (spaces + 1)) rest
      else if c = '\n' then leastIndent least (some 0) rest
      else leastIndent (min least spaces) none rest

def dropIndent (indent : Nat) : Option Nat → Text → Text
  | _, [] => []
  | none, c :: rest => c :: dropIndent indent (if c = '\n' then some 0 else none) rest
  | some spaces, c :: rest =>
      if c = ' ' then
        if indent ≤ spaces then c :: dropIndent indent (some (spaces + 1)) rest
        else dropIndent indent (some (spaces + 1)) rest
      else c :: dropIndent indent (if c = '\n' then some 0 else none) rest

/-- A last line of spaces only is dropped. -/
def dropLastLine (content : Text) : Text :=
  let lines := content.reverse.dropWhile (· = ' ')
  if lines.head? = some '\n' then lines.reverse else content

def stripIndent (content : Text) : Text :=
  dropLastLine (dropIndent (leastIndent 1000000 (some 0) content) (some 0) content)

/-! ## Productions -/

/-- A keyword or an operator. -/
def sign (text : String) : Token := .sign text.toList

inductive Level where
  | function | app | select | simple | items | binds | attr | attrPath

inductive StringParts : List Token → Text → Prop where
  | none : StringParts [] []
  | one (content : Text) : StringParts [.str content] content

inductive IndentedParts : List Token → Text → Prop where
  | none : IndentedParts [] []
  | lines (content : Text) : IndentedParts [.indStr true content] (stripIndent content)
  | escaped (content : Text) : IndentedParts [.indStr false content] content

inductive Formals : List Token → List Text → Bool → Prop where
  | none : Formals [] [] false
  | more : Formals [sign "..."] [] true
  | last (name : Text) : Formals [.id name] [name] false
  | cons (name : Text) {tokens : List Token} {names : List Text} {more : Bool} :
      Formals tokens names more → Formals (.id name :: sign "," :: tokens) (name :: names) more

inductive Derives : {kind : Kind} → Level → List Token → Node kind → Prop where
  -- Functions and definitions reach as far as they can.
  | lambda {formals tokens : List Token} {names : List Text} {more : Bool} {body : Node .expr} :
      Formals formals names more → Derives .function tokens body →
      Derives .function (sign "\x7b" :: formals ++ sign "\x7d" :: sign ":" :: tokens)
        (.lambda names more body)
  | letIn {defs tokens : List Token} {binds : Node .binds} {body : Node .expr} :
      Derives .binds defs binds → Derives .function tokens body →
      Derives .function (sign "let" :: defs ++ sign "in" :: tokens) (.letIn binds body)
  | ofApp {tokens : List Token} {e : Node .expr} :
      Derives .app tokens e → Derives .function tokens e
  | app {tokens tokens' : List Token} {function argument : Node .expr} :
      Derives .app tokens function → Derives .select tokens' argument →
      Derives .app (tokens ++ tokens') (.app function argument)
  | ofSelect {tokens : List Token} {e : Node .expr} :
      Derives .select tokens e → Derives .app tokens e
  | select {tokens path : List Token} {base : Node .expr} {names : List Text} :
      Derives .simple tokens base → Derives .attrPath path (.attrPath names) →
      Derives .select (tokens ++ sign "." :: path) (.select base names)
  -- The keyword is taken for an argument of this name.
  | selectOr {tokens : List Token} {function : Node .expr} :
      Derives .simple tokens function →
      Derives .select (tokens ++ [sign "or"]) (.app function (.var "or".toList))
  | ofSimple {tokens : List Token} {e : Node .expr} :
      Derives .simple tokens e → Derives .select tokens e
  | var (name : Text) : Derives .simple [.id name] (.var name)
  | int (digits : Text) : Derives .simple [.int digits] (.int digits)
  | path (text : Text) : Derives .simple [.path text, .pathEnd] (.path text)
  | str {parts : List Token} {content : Text} :
      StringParts parts content →
      Derives .simple (sign "\"" :: parts ++ [sign "\""]) (.str content)
  | indented {parts : List Token} {content : Text} :
      IndentedParts parts content →
      Derives .simple (.indOpen :: parts ++ [.indClose]) (.str content)
  | uri (text : Text) : Derives .simple [.uri text] (.str text)
  | parens {tokens : List Token} {e : Node .expr} :
      Derives .function tokens e → Derives .simple (sign "(" :: tokens ++ [sign ")"]) e
  | list {tokens : List Token} {items : Node .items} :
      Derives .items tokens items →
      Derives .simple (sign "[" :: tokens ++ [sign "]"]) (.list items)
  | attrs {tokens : List Token} {binds : Node .binds} :
      Derives .binds tokens binds →
      Derives .simple (sign "\x7b" :: tokens ++ [sign "\x7d"]) (.attrs binds)
  | noItems : Derives .items [] .noItems
  | item {tokens tokens' : List Token} {first : Node .expr} {rest : Node .items} :
      Derives .select tokens first → Derives .items tokens' rest →
      Derives .items (tokens ++ tokens') (.item first rest)
  | noBinds : Derives .binds [] .noBinds
  | bind {path tokens tokens' : List Token} {names : List Text} {value : Node .expr}
      {rest : Node .binds} :
      Derives .attrPath path (.attrPath names) → Derives .function tokens value →
      Derives .binds tokens' rest →
      Derives .binds (path ++ sign "=" :: tokens ++ sign ";" :: tokens') (.bind names value rest)
  | name (name : Text) : Derives .attr [.id name] (.attr name)
  | orName : Derives .attr [sign "or"] (.attr "or".toList)
  | quoted {parts : List Token} {content : Text} :
      StringParts parts content →
      Derives .attr (sign "\"" :: parts ++ [sign "\""]) (.attr content)
  -- An interpolated name is one when it is a constant.
  | interpolated {tokens : List Token} {content : Text} :
      Derives .function tokens (.str content) →
      Derives .attr (sign "$\x7b" :: tokens ++ [sign "\x7d"]) (.attr content)
  | lastAttr {tokens : List Token} {name : Text} :
      Derives .attr tokens (.attr name) → Derives .attrPath tokens (.attrPath [name])
  | moreAttrs {tokens tokens' : List Token} {name : Text} {names : List Text} :
      Derives .attr tokens (.attr name) → Derives .attrPath tokens' (.attrPath names) →
      Derives .attrPath (tokens ++ sign "." :: tokens') (.attrPath (name :: names))

/-- The text is that tree. -/
def Reads (text : Text) (tree : Node .expr) : Prop :=
  ∃ tokens, Lexes [] text tokens ∧ Derives .function tokens tree

/-! ## Names with dots between them -/

theorem isAttrName_identifier {name : Text} (attr : isAttrName name = true) :
    isIdentifier name = true := by
  rw [isAttrName, Bool.and_eq_true] at attr
  exact attr.1

theorem Derives.word {name : Text} (attr : isAttrName name = true) :
    Derives .attr [word name] (.attr name) := by
  rw [isAttrName, Bool.and_eq_true, Bool.or_eq_true, decide_eq_true_eq] at attr
  by_cases keyword : name ∈ keywords
  · rcases attr.2 with noKeyword | rfl
    · simp [keyword] at noKeyword
    · exact .orName
  · rw [Nix.word, if_neg keyword]
    exact .name name

theorem Derives.dotted {names : List Text} (some : names ≠ [])
    (attrs : ∀ name ∈ names, isAttrName name = true) :
    Derives .attrPath (dottedTokens names) (.attrPath names) := by
  induction names using Nix.dotted.induct with
  | case1 => exact absurd rfl some
  | case2 name => exact .lastAttr (.word (attrs name List.mem_cons_self))
  | case3 name next names ih =>
      have rest := ih (List.cons_ne_nil next names)
        fun other member => attrs other (List.mem_cons_of_mem name member)
      exact .moreAttrs (.word (attrs name List.mem_cons_self)) rest

/-- An attribute of a variable. -/
theorem Derives.selection (name : Text) (noKeyword : name ∉ keywords) {names : List Text}
    (some : names ≠ []) (attrs : ∀ name ∈ names, isAttrName name = true) :
    Derives .select (dottedTokens (name :: names)) (.select (.var name) names) := by
  cases names with
  | nil => exact absurd rfl some
  | cons next names =>
      have path := Derives.dotted some attrs
      rw [dottedTokens, Nix.word, if_neg noKeyword]
      exact .select (.var name) path

/-! ## Ink of a tree

The least ink that a text of the tree can have: every name and every sign of it
has to be written, and a name that is no identifier has to be quoted.
-/

def nameInk (name : Text) : Nat := if isAttrName name then ink name else ink name + 2

def pathInk : List Text → Nat
  | [] => 0
  | [name] => nameInk name
  | name :: next :: names => nameInk name + 1 + pathInk (next :: names)

def formalsInk : List Text → Bool → Nat
  | [], more => if more then 3 else 0
  | [name], false => ink name
  | name :: names, more => ink name + 1 + formalsInk names more

/-- An address is a string without quotes, and has a colon. -/
def strInk (content : Text) : Nat := if ':' ∈ content then ink content else ink content + 2

/-- How tightly a tree is bound; the keyword is no less than its function. -/
def Node.rank : {kind : Kind} → Node kind → Nat
  | _, .lambda .. | _, .letIn .. => 0
  | _, .app _ (.var name) => if name = "or".toList then 2 else 1
  | _, .app .. => 1
  | _, .select .. => 2
  | _, _ => 3

/-- Looser trees are written in parentheses. -/
def Node.parens {kind : Kind} (tree : Node kind) (rank : Nat) : Nat :=
  if tree.rank < rank then 2 else 0

def Node.ink : {kind : Kind} → Node kind → Nat
  | _, .var name => Nix.ink name
  | _, .int digits => Nix.ink digits
  | _, .str content => strInk content
  | _, .path text => Nix.ink text
  | _, .select base names => base.ink + base.parens 3 + 1 + pathInk names
  | _, .app function argument =>
      function.ink + function.parens 1 + (argument.ink + argument.parens 2)
  | _, .lambda formals more body => formalsInk formals more + 3 + body.ink
  | _, .letIn binds body => 3 + binds.ink + 2 + body.ink
  | _, .list items => items.ink + 2
  | _, .attrs binds => binds.ink + 2
  | _, .noItems => 0
  | _, .item first rest => first.ink + first.parens 2 + rest.ink
  | _, .noBinds => 0
  | _, .bind names value rest => pathInk names + 1 + value.ink + 1 + rest.ink
  | _, .attr name => nameInk name
  | _, .attrPath names => pathInk names

def Level.rank : Level → Nat
  | .app => 1
  | .select => 2
  | .simple => 3
  | _ => 0

theorem nameInk_le (name : Text) : nameInk name ≤ ink name + 2 := by
  rw [nameInk]
  split <;> omega

theorem nameInk_of_isAttrName {name : Text} (plain : isAttrName name = true) :
    nameInk name = ink name := if_pos plain

theorem strInk_le (content : Text) : strInk content ≤ ink content + 2 := by
  rw [strInk]
  split <;> omega

theorem le_strInk (content : Text) : ink content ≤ strInk content := by
  rw [strInk]
  split <;> omega

theorem pathInk_cons (name : Text) (names : List Text) :
    pathInk (name :: names) ≤ nameInk name + 1 + pathInk names := by
  cases names with
  | nil => simp [pathInk]
  | cons next names => exact Nat.le_refl _

theorem formalsInk_cons (name : Text) (names : List Text) (more : Bool) :
    formalsInk (name :: names) more ≤ ink name + 1 + formalsInk names more := by
  cases names <;> cases more <;> simp [formalsInk]

theorem Node.parens_le {kind : Kind} (tree : Node kind) (rank : Nat) : tree.parens rank ≤ 2 := by
  rw [Node.parens]
  split <;> omega

theorem Node.parens_mono {kind : Kind} (tree : Node kind) {rank rank' : Nat} (le : rank ≤ rank') :
    tree.parens rank ≤ tree.parens rank' := by
  simp only [Node.parens]
  split_ifs <;> omega

@[simp] theorem Node.parens_zero {kind : Kind} (tree : Node kind) : tree.parens 0 = 0 :=
  if_neg (Nat.not_lt_zero _)

theorem Node.parens_rank {kind : Kind} {tree : Node kind} {rank : Nat} (le : rank ≤ tree.rank) :
    tree.parens rank = 0 := if_neg (Nat.not_lt.mpr le)

theorem Node.rank_app (function argument : Node .expr) : 1 ≤ (Node.app function argument).rank := by
  cases argument with
  | var name =>
      rw [Node.rank]
      split
      · decide
      · exact Nat.le_refl 1
  | _ => exact Nat.le_refl 1

theorem StringParts.ink_le {parts : List Token} {content : Text} (derived : StringParts parts content) :
    ink content ≤ inkOf parts := by
  cases derived with
  | none => exact Nat.le_refl 0
  | one content => exact Nat.le_refl _

theorem ink_reverse (text : Text) : ink text.reverse = ink text :=
  List.countP_reverse

theorem dropLastLine_ink (content : Text) : ink (dropLastLine content) ≤ ink content := by
  simp only [dropLastLine]
  split
  · rw [ink_reverse, ← ink_reverse content]
    exact ink_sublist (List.dropWhile_sublist _)
  · exact Nat.le_refl _

theorem dropIndent_ink (indent : Nat) (start : Option Nat) (content : Text) :
    ink (dropIndent indent start content) ≤ ink content := by
  apply ink_sublist
  fun_induction dropIndent indent start content with
  | case1 => exact List.Sublist.refl _
  | case2 c rest ih => exact ih.cons_cons c
  | case3 spaces rest _ ih => exact ih.cons_cons _
  | case4 spaces rest _ ih => exact ih.cons _
  | case5 spaces c rest _ ih => exact ih.cons_cons c

theorem IndentedParts.ink_le {parts : List Token} {content : Text}
    (derived : IndentedParts parts content) : ink content ≤ inkOf parts := by
  cases derived with
  | none => exact Nat.le_refl 0
  | lines content => exact Nat.le_trans (dropLastLine_ink _) (dropIndent_ink _ _ content)
  | escaped content => exact Nat.le_refl _

theorem Formals.ink_le {tokens : List Token} {names : List Text} {more : Bool}
    (derived : Formals tokens names more) : formalsInk names more ≤ inkOf tokens := by
  induction derived with
  | none => exact Nat.le_refl 0
  | more => exact Nat.le_refl 3
  | last name => exact Nat.le_refl _
  | @cons name tokens names more derived ih =>
      have bound := formalsInk_cons name names more
      have comma : (sign ",").ink = 1 := rfl
      rw [inkOf_cons, inkOf_cons, comma, Token.ink]
      omega

theorem sign_ink : (sign "\x7b").ink = 1 ∧ (sign "\x7d").ink = 1 ∧ (sign "(").ink = 1 ∧
    (sign ")").ink = 1 ∧ (sign "[").ink = 1 ∧ (sign "]").ink = 1 ∧ (sign ":").ink = 1 ∧
    (sign "=").ink = 1 ∧ (sign ";").ink = 1 ∧ (sign ".").ink = 1 ∧ (sign "\"").ink = 1 ∧
    (sign "let").ink = 3 ∧ (sign "in").ink = 2 ∧ (sign "or").ink = 2 ∧ (sign "$\x7b").ink = 2 := by
  refine ⟨rfl, rfl, rfl, rfl, rfl, rfl, rfl, rfl, rfl, rfl, rfl, rfl, rfl, rfl, rfl⟩

/-- A text has at least the ink of its tree. -/
theorem Derives.ink_le {kind : Kind} {level : Level} {tokens : List Token} {tree : Node kind}
    (derived : Derives level tokens tree) (proper : ∀ token ∈ tokens, token.Proper) :
    tree.ink + tree.parens level.rank ≤ inkOf tokens := by
  induction derived with
  | lambda formals body ih =>
      simp only [List.forall_mem_append, List.forall_mem_cons] at proper
      have inner := ih proper.2.2.2
      have arguments := formals.ink_le
      simp [sign_ink, Node.ink, Level.rank] at inner ⊢
      omega
  | letIn defs body ih ih' =>
      simp only [List.forall_mem_append, List.forall_mem_cons] at proper
      have definitions := ih proper.1.2
      have inner := ih' proper.2.2
      simp [sign_ink, Node.ink, Level.rank] at definitions inner ⊢
      omega
  | @ofApp tokens e derived ih =>
      have inner := ih proper
      simp only [Level.rank, Node.parens_zero] at inner ⊢
      omega
  | app function argument ih ih' =>
      rw [List.forall_mem_append] at proper
      have left := ih proper.1
      have right := ih' proper.2
      rw [Level.rank, Node.parens_rank (Node.rank_app _ _), inkOf_append, Node.ink]
      simp only [Level.rank] at left right
      omega
  | @ofSelect tokens e derived ih =>
      have inner := ih proper
      have looser := e.parens_mono (show 1 ≤ 2 by decide)
      simp only [Level.rank] at inner ⊢
      omega
  | select base names ih ih' =>
      simp only [List.forall_mem_append, List.forall_mem_cons] at proper
      have left := ih proper.1
      have right := ih' proper.2.2
      rw [Node.parens_rank (Nat.le_refl 2), Node.ink]
      simp [sign_ink, Node.ink, Level.rank] at left right ⊢
      omega
  | @selectOr tokens function derived ih =>
      rw [List.forall_mem_append] at proper
      have left := ih proper.1
      have looser := function.parens_mono (show 1 ≤ 3 by decide)
      have name : (Node.var "or".toList).ink + (Node.var "or".toList).parens 2 = 2 := rfl
      rw [Level.rank, Node.parens_rank (Nat.le_refl 2), Node.ink, name, inkOf_append]
      simp [sign_ink, Level.rank] at left ⊢
      omega
  | @ofSimple tokens e derived ih =>
      have inner := ih proper
      have looser := e.parens_mono (show 2 ≤ 3 by decide)
      simp only [Level.rank] at inner ⊢
      omega
  | var name => exact Nat.le_refl _
  | int digits => exact Nat.le_refl _
  | path text => exact Nat.le_refl _
  | @str parts content derived =>
      have bound := derived.ink_le
      have quotes := strInk_le content
      rw [Node.parens_rank (Nat.le_refl 3), Node.ink]
      simp [sign_ink]
      omega
  | @indented parts content derived =>
      have bound := derived.ink_le
      have quotes := strInk_le content
      rw [Node.parens_rank (Nat.le_refl 3), Node.ink]
      simp [Token.ink]
      omega
  | uri text =>
      have colon : ':' ∈ text := proper (.uri text) List.mem_cons_self
      rw [Node.parens_rank (Nat.le_refl 3), Node.ink, strInk, if_pos colon]
      exact Nat.le_refl _
  | @parens tokens e derived ih =>
      simp only [List.cons_append, List.forall_mem_append, List.forall_mem_cons] at proper
      have inner := ih proper.2.1
      have looseness := e.parens_le 3
      simp [sign_ink, Level.rank] at inner ⊢
      omega
  | list items ih =>
      simp only [List.cons_append, List.forall_mem_append, List.forall_mem_cons] at proper
      have inner := ih proper.2.1
      rw [Node.parens_rank (Nat.le_refl 3), Node.ink]
      simp [sign_ink, Level.rank] at inner ⊢
      omega
  | attrs binds ih =>
      simp only [List.cons_append, List.forall_mem_append, List.forall_mem_cons] at proper
      have inner := ih proper.2.1
      rw [Node.parens_rank (Nat.le_refl 3), Node.ink]
      simp [sign_ink, Level.rank] at inner ⊢
      omega
  | noItems => exact Nat.le_refl 0
  | item first rest ih ih' =>
      rw [List.forall_mem_append] at proper
      have left := ih proper.1
      have right := ih' proper.2
      simp [Level.rank, Node.ink] at left right ⊢
      omega
  | noBinds => exact Nat.le_refl 0
  | bind names value rest ih ih' ih'' =>
      simp only [List.append_assoc, List.cons_append, List.forall_mem_append,
        List.forall_mem_cons] at proper
      have left := ih proper.1
      have middle := ih' proper.2.2.1
      have right := ih'' proper.2.2.2.2
      simp [sign_ink, Level.rank, Node.ink] at left middle right ⊢
      omega
  | name name =>
      obtain ⟨identifier, noKeyword⟩ : (Token.id name).Proper := proper _ List.mem_cons_self
      have plain : isAttrName name = true := by
        simp [isAttrName, identifier, noKeyword]
      simp only [Level.rank, Node.parens_zero, Node.ink, nameInk_of_isAttrName plain]
      exact Nat.le_refl _
  | orName => exact Nat.le_refl 2
  | @quoted parts content derived =>
      have bound := derived.ink_le
      have quotes := nameInk_le content
      simp [sign_ink, Level.rank, Node.ink]
      omega
  | @interpolated tokens content derived ih =>
      simp only [List.cons_append, List.forall_mem_append, List.forall_mem_cons] at proper
      have inner := ih proper.2.1
      have quotes := nameInk_le content
      have constant := le_strInk content
      simp [sign_ink, Level.rank, Node.ink] at inner ⊢
      omega
  | lastAttr name ih => exact ih proper
  | @moreAttrs tokens tokens' name names first rest ih ih' =>
      simp only [List.forall_mem_append, List.forall_mem_cons] at proper
      have left := ih proper.1
      have right := ih' proper.2.2
      have bound := pathInk_cons name names
      simp [sign_ink, Level.rank, Node.ink] at left right ⊢
      omega

end Nixnas.Nix
