import Mathlib.Data.List.Induction

/-!
# Trees of files, directories and symbolic links

A tree has a node at some of its paths.  `resolve` walks a path as the kernel
does: it follows the links on its way, and no more of them than it is allowed.
-/

set_option autoImplicit false

namespace Nixnas.Logic.FileTree

/-- The names from the root on. -/
abbrev Path := List String

structure Target where
  absolute : Bool
  parts : List String
  deriving DecidableEq

inductive Node where
  | file (content : List UInt8)
  | dir
  | link (target : Target)
  deriving DecidableEq

abbrev Tree := Path → Option Node

/-- One level of links: what stands behind the next one is left to `through`. -/
def resolveWith (tree : Tree) (through : Path → List String → Option (Path × Nat)) (left : Nat) :
    Path → List String → Option (Path × Nat)
  | here, [] => some (here, left)
  | here, part :: rest =>
      if tree here = some .dir then
        if part = "." then resolveWith tree through left here rest
        else if part = ".." then resolveWith tree through left here.dropLast rest
        else
          match tree (here ++ [part]) with
          | none => none
          | some (.link target) =>
              through (if target.absolute then [] else here) (target.parts ++ rest)
          | some _ => resolveWith tree through left (here ++ [part]) rest
      else none

/-- Where the path leads to from `here`, and how many links may still be
followed. -/
def resolve (tree : Tree) : Nat → Path → List String → Option (Path × Nat)
  | 0 => resolveWith tree (fun _ _ => none) 0
  | left + 1 => resolveWith tree (resolve tree left) (left + 1)

/-- `Path::is_dir`. -/
def isDir (tree : Tree) (limit : Nat) (path : Path) : Bool :=
  match resolve tree limit [] path with
  | some (real, _) => tree real = some .dir
  | none => false

/-- The tree with another node at a path. -/
def Tree.put (tree : Tree) (path : Path) (node : Option Node) : Tree :=
  fun other => if other = path then node else tree other

@[simp] theorem Tree.put_self (tree : Tree) (path : Path) (node : Option Node) :
    tree.put path node path = node := by
  simp [put]

@[simp] theorem Tree.put_other (tree : Tree) {path other : Path} (node : Option Node)
    (differs : other ≠ path) : tree.put path node other = tree other := by
  simp [put, differs]

variable {tree : Tree}

/-! ## Composition -/

theorem resolve_nil (tree : Tree) (left : Nat) (here : Path) :
    resolve tree left here [] = some (here, left) := by
  cases left <;> rfl

theorem resolveWith_append {through : Path → List String → Option (Path × Nat)} {left : Nat}
    (self : resolve tree left = resolveWith tree through left)
    (behind : ∀ here first rest, through here (first ++ rest) =
      (through here first).bind fun stop => resolve tree stop.2 stop.1 rest)
    (first : List String) (here : Path) (rest : List String) :
    resolveWith tree through left here (first ++ rest) =
      (resolveWith tree through left here first).bind fun stop =>
        resolve tree stop.2 stop.1 rest := by
  induction first generalizing here with
  | nil =>
      rw [List.nil_append, ← self, resolve_nil]
      rfl
  | cons part first ih =>
      rw [List.cons_append, resolveWith, resolveWith]
      split
      · split
        · exact ih _
        · split
          · exact ih _
          · split
            · rfl
            · rw [← List.append_assoc]
              exact behind _ _ _
            · exact ih _
      · rfl

/-- A path is walked piece by piece. -/
theorem resolve_append (tree : Tree) (left : Nat) (here : Path) (first rest : List String) :
    resolve tree left here (first ++ rest) =
      (resolve tree left here first).bind fun stop => resolve tree stop.2 stop.1 rest := by
  induction left generalizing here first rest with
  | zero => exact resolveWith_append rfl (fun _ _ _ => rfl) first here rest
  | succ left ih => exact resolveWith_append rfl ih first here rest

/-! ## One name -/

section Name

variable {here : Path} {name : String} {left : Nat}

/-- A name that stands for itself. -/
def Proper (name : String) : Prop := name ≠ "." ∧ name ≠ ".."

theorem resolve_entry (isDir : tree here = some .dir) (proper : Proper name) {node : Node}
    (entry : tree (here ++ [name]) = some node) (noLink : ∀ target, node ≠ .link target) :
    resolve tree left here [name] = some (here ++ [name], left) := by
  cases left with
  | zero =>
      rw [resolve, resolveWith, if_pos isDir, if_neg proper.1, if_neg proper.2, entry]
      cases node with
      | link target => exact absurd rfl (noLink target)
      | file content => rfl
      | dir => rfl
  | succ left =>
      rw [resolve, resolveWith, if_pos isDir, if_neg proper.1, if_neg proper.2, entry]
      cases node with
      | link target => exact absurd rfl (noLink target)
      | file content => rfl
      | dir => rfl

theorem resolve_missing (proper : Proper name) (missing : tree (here ++ [name]) = none) :
    resolve tree left here [name] = none := by
  cases left with
  | zero =>
      rw [resolve, resolveWith, if_neg proper.1, if_neg proper.2, missing]
      simp
  | succ left =>
      rw [resolve, resolveWith, if_neg proper.1, if_neg proper.2, missing]
      simp

theorem resolveWith_left {through : Path → List String → Option (Path × Nat)} {left : Nat}
    (behind : ∀ here parts stop, through here parts = some stop → stop.2 ≤ left)
    (parts : List String) (here : Path) {stop : Path × Nat}
    (stops : resolveWith tree through left here parts = some stop) : stop.2 ≤ left := by
  induction parts generalizing here with
  | nil =>
      cases stops
      exact Nat.le_refl _
  | cons part rest ih =>
      rw [resolveWith] at stops
      split at stops
      · split at stops
        · exact ih _ stops
        · split at stops
          · exact ih _ stops
          · split at stops
            · cases stops
            · exact behind _ _ _ stops
            · exact ih _ stops
      · cases stops

/-- The links that are followed are taken from those allowed. -/
theorem resolve_left (left : Nat) (here : Path) (parts : List String) {stop : Path × Nat}
    (stops : resolve tree left here parts = some stop) : stop.2 ≤ left := by
  induction left generalizing here parts stop with
  | zero => exact resolveWith_left (fun _ _ _ none => by cases none) parts here stops
  | succ left ih =>
      apply resolveWith_left _ parts here stops
      intro here parts stop stops
      exact Nat.le_succ_of_le (ih here parts stops)

theorem resolve_link {target : Target} (proper : Proper name)
    (entry : tree (here ++ [name]) = some (.link target)) {stop : Path × Nat}
    (stops : resolve tree left here [name] = some stop) : stop.2 < left := by
  cases left with
  | zero =>
      rw [resolve, resolveWith, if_neg proper.1, if_neg proper.2, entry] at stops
      split at stops <;> cases stops
  | succ left =>
      rw [resolve, resolveWith, if_neg proper.1, if_neg proper.2, entry] at stops
      split at stops
      · exact Nat.lt_succ_of_le (resolve_left left _ _ stops)
      · cases stops

end Name

theorem isDir_of_resolve {limit : Nat} {path real : Path} {left : Nat}
    (leads : resolve tree limit [] path = some (real, left)) :
    isDir tree limit path = decide (tree real = some .dir) := by
  rw [isDir, leads]

/-! ## Trees of which one has less -/

/-- What the smaller tree has, the larger one has too, up to the contents of files. -/
def Within (small large : Tree) : Prop :=
  ∀ path, small path = none ∨ small path = large path ∨
    ∃ held was, small path = some (.file held) ∧ large path = some (.file was)

theorem Within.refl (tree : Tree) : Within tree tree := fun _ => Or.inr (Or.inl rfl)

theorem Within.trans {small middle large : Tree} (first : Within small middle)
    (second : Within middle large) : Within small large := by
  intro path
  rcases first path with none | same | ⟨held, was, file, file'⟩
  · exact Or.inl none
  · rw [same]
    exact second path
  · rcases second path with none | same | ⟨held', was', small, large⟩
    · rw [file'] at none
      cases none
    · rw [same] at file'
      exact Or.inr (Or.inr ⟨held, was, file, file'⟩)
    · exact Or.inr (Or.inr ⟨held, was', file, large⟩)

theorem Within.missing {small large : Tree} (within : Within small large) {path : Path}
    (missing : large path = none) : small path = none := by
  rcases within path with none | same | ⟨held, was, -, file⟩
  · exact none
  · rw [same, missing]
  · rw [missing] at file
    cases file

theorem Within.link {small large : Tree} (within : Within small large) {path : Path}
    {target : Target} (isLink : small path = some (.link target)) :
    large path = some (.link target) := by
  rcases within path with none | same | ⟨held, was, file, -⟩
  · rw [isLink] at none
    cases none
  · rw [← same, isLink]
  · rw [isLink] at file
    cases file

theorem Within.dir {small large : Tree} (within : Within small large) {path : Path}
    (isDir : small path = some .dir) : large path = some .dir := by
  rcases within path with none | same | ⟨held, was, file, -⟩
  · rw [isDir] at none
    cases none
  · rw [← same, isDir]
  · rw [isDir] at file
    cases file

theorem resolveWith_within {small large : Tree} (within : Within small large)
    {throughSmall throughLarge : Path → List String → Option (Path × Nat)} {left left' : Nat}
    (le : left ≤ left')
    (behind : ∀ here parts stop, throughSmall here parts = some stop →
      ∃ more, stop.2 ≤ more ∧ throughLarge here parts = some (stop.1, more))
    (parts : List String) (here : Path) {stop : Path × Nat}
    (stops : resolveWith small throughSmall left here parts = some stop) :
    ∃ more, stop.2 ≤ more ∧ resolveWith large throughLarge left' here parts = some (stop.1, more) := by
  induction parts generalizing here with
  | nil =>
      cases stops
      exact ⟨left', le, rfl⟩
  | cons part rest ih =>
      rw [resolveWith] at stops ⊢
      by_cases isDir : small here = some .dir
      · rw [if_pos isDir] at stops
        rw [if_pos (within.dir isDir)]
        split at stops
        · rename_i same
          rw [if_pos same]
          exact ih _ stops
        · rename_i notDot
          rw [if_neg notDot]
          split at stops
          · rename_i same
            rw [if_pos same]
            exact ih _ stops
          · rename_i notDots
            rw [if_neg notDots]
            rcases within (here ++ [part]) with none | same | ⟨held, was, small, large⟩
            · rw [none] at stops
              cases stops
            · rw [← same]
              split at stops
              · cases stops
              · exact behind _ _ _ stops
              · exact ih _ stops
            · rw [small] at stops
              rw [large]
              exact ih _ stops
      · rw [if_neg isDir] at stops
        cases stops

/-- What resolves in the smaller tree resolves in the larger one, also when more
links may be followed. -/
theorem resolve_within {small large : Tree} (within : Within small large) {left left' : Nat}
    (le : left ≤ left') {here : Path} {parts : List String} {stop : Path × Nat}
    (stops : resolve small left here parts = some stop) :
    ∃ more, stop.2 ≤ more ∧ resolve large left' here parts = some (stop.1, more) := by
  induction left generalizing left' here parts stop with
  | zero =>
      have behind : ∀ (through : Path → List String → Option (Path × Nat)) here parts stop,
          (fun (_ : Path) (_ : List String) => (none : Option (Path × Nat))) here parts = some stop →
            ∃ more, stop.2 ≤ more ∧ through here parts = some (stop.1, more) := by
        intro _ _ _ _ none
        cases none
      cases left' with
      | zero => exact resolveWith_within within le (behind _) parts here stops
      | succ left' => exact resolveWith_within within le (behind _) parts here stops
  | succ left ih =>
      cases left' with
      | zero => omega
      | succ left' =>
          apply resolveWith_within within le _ parts here stops
          intro here parts stop stops
          exact ih (by omega) stops

/-! ## Well-formed trees -/

/-- Every node stands in a directory, under a proper name, and no deeper than
`depth`. -/
structure WellFormed (tree : Tree) (depth : Nat) : Prop where
  parent : ∀ path name, tree (path ++ [name]) ≠ none → tree path = some .dir
  proper : ∀ path name, tree (path ++ [name]) ≠ none → Proper name
  bounded : ∀ path, tree path ≠ none → path.length ≤ depth

/-- The path of a directory leads to it without a link. -/
theorem WellFormed.resolve_real {depth : Nat} (wellFormed : WellFormed tree depth) (left : Nat)
    {path : Path} (isDir : tree path = some .dir) : resolve tree left [] path = some (path, left) := by
  induction path using List.reverseRecOn with
  | nil => exact resolve_nil tree left []
  | append_singleton path name ih =>
      have present : tree (path ++ [name]) ≠ none := by simp [isDir]
      have parent := wellFormed.parent path name present
      rw [resolve_append, ih parent]
      exact resolve_entry parent (wellFormed.proper path name present) isDir (by simp)

/-- What stands at a path stands below directories. -/
theorem WellFormed.above {depth : Nat} (wellFormed : WellFormed tree depth) (path : Path)
    (name : String) (rest : List String) (present : tree (path ++ name :: rest) ≠ none) :
    tree path = some .dir := by
  induction rest using List.reverseRecOn with
  | nil => exact wellFormed.parent path name present
  | append_singleton rest last ih =>
      have parent := wellFormed.parent (path ++ name :: rest) last (by simpa using present)
      exact ih (by simp [parent])

/-- Nothing stands below what is no directory. -/
theorem WellFormed.eq_of_below {depth : Nat} (wellFormed : WellFormed tree depth)
    {path below : Path} (isBelow : path <+: below) (present : tree below ≠ none)
    (notDir : tree path ≠ some .dir) : below = path := by
  obtain ⟨rest, rfl⟩ := isBelow
  cases rest with
  | nil => exact List.append_nil path
  | cons name rest => exact absurd (wellFormed.above path name rest present) notDir

end Nixnas.Logic.FileTree
