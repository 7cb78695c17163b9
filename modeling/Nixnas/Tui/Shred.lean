import Nixnas.Logic.FileTree
import Nixnas.Rust.Text

/-!
# Shredding the PKI directory

`ShredOnDrop` and `ShredDirOnDrop` of `src/tui/src/build.rs` over a tree of
files, directories and symbolic links.  Whether to descend is asked with
`Path::is_dir`, and the shredder opens its file by path: both follow links, so
the walk leaves the directory wherever a link does.
-/

set_option autoImplicit false

namespace Nixnas.Tui.Shred

open Nixnas.Logic Nixnas.Logic.FileTree
open Nixnas.Rust (Bytes)

def zeroed (content : Bytes) : Bytes := List.replicate content.length 0

/-- The tree, and what was at a path each time it was unlinked. -/
structure State where
  tree : Tree
  removed : Path → List Node

/-- How many links the kernel follows on one path, and the order in which a
directory lists its names. -/
structure Kernel where
  limit : Nat
  listing : Path → List String

def State.start (tree : Tree) : State := ⟨tree, fun _ => []⟩

/-- The in-place overwrite of the shredder. -/
def State.overwrite (kernel : Kernel) (path : Path) (s : State) : State :=
  match resolve s.tree kernel.limit [] path with
  | none => s
  | some (real, _) =>
      match s.tree real with
      | some (.file content) =>
          if 0 < content.length then { s with tree := s.tree.put real (some (.file (zeroed content))) }
          else s
      | _ => s

/-- The entry at a real path is no more. -/
def State.unlink (real : Path) (node : Node) (s : State) : State where
  tree := s.tree.put real none
  removed path := if path = real then s.removed path ++ [node] else s.removed path

/-- `std::fs::remove_file`: a link in the last place is not followed. -/
def State.removeFile (kernel : Kernel) (dir : Path) (name : String) (s : State) : State :=
  match resolve s.tree kernel.limit [] dir with
  | none => s
  | some (real, _) =>
      match s.tree (real ++ [name]) with
      | none => s
      | some .dir => s
      | some node => s.unlink (real ++ [name]) node

/-- `ShredOnDrop::drop` on `dir/name`. -/
def shredOnDrop (kernel : Kernel) (dir : Path) (name : String) (s : State) : State :=
  (s.overwrite kernel (dir ++ [name])).removeFile kernel dir name

/-- `std::fs::read_dir`. -/
def readDir (kernel : Kernel) (s : State) (dir : Path) : List String :=
  match resolve s.tree kernel.limit [] dir with
  | none => []
  | some (real, _) => (kernel.listing real).filter fun name => (s.tree (real ++ [name])).isSome

/-- One entry of a listing, with the walk of the directories below. -/
def visit (kernel : Kernel) (descend : Path → State → Option State) (dir : Path) (s : State)
    (name : String) : Option State :=
  if isDir s.tree kernel.limit (dir ++ [name]) then descend (dir ++ [name]) s
  else some (shredOnDrop kernel dir name s)

/-- `walk`, to some depth of the recursion. -/
def walk (kernel : Kernel) : Nat → Path → State → Option State
  | 0, _, _ => none
  | depth + 1, dir, s => (readDir kernel s dir).foldlM (visit kernel (walk kernel depth) dir) s

/-- `std::fs::remove_dir_all`, which follows no link. -/
def State.removeDirAll (root : Path) (s : State) : State where
  tree path := if root <+: path then none else s.tree path
  removed path := if root <+: path then s.removed path ++ (s.tree path).toList else s.removed path

/-- `ShredDirOnDrop::drop`. -/
def shredDirOnDrop (kernel : Kernel) (depth : Nat) (root : Path) (s : State) : Option State :=
  (walk kernel depth root s).map (State.removeDirAll root)

/-! ## What the guard is for -/

/-- Nothing outside is changed, every file inside was zeros when it was unlinked,
and the directory is gone. -/
structure Cleaned (tree : Tree) (root : Path) (final : State) : Prop where
  outside : ∀ path, ¬ root <+: path → final.tree path = tree path
  shredded : ∀ path content, root <+: path → tree path = some (.file content) →
    final.removed path = [.file (zeroed content)]
  gone : ∀ path, root <+: path → final.tree path = none

/-- The drop comes to its end, and has cleaned the directory. -/
def CleansUp (kernel : Kernel) (tree : Tree) (root : Path) : Prop :=
  ∃ depth final, shredDirOnDrop kernel depth root (State.start tree) = some final ∧
    Cleaned tree root final

/-- Whatever is below the path and is no directory is below the root. -/
def Safe (tree : Tree) (root path : Path) : Prop :=
  ∀ below node, path <+: below → tree below = some node → node ≠ .dir → root <+: below

/-- Every link of the directory that leads to a file leads to one inside, or to
one of zeros, and every link that leads to a directory leads to one with nothing
outside to shred. -/
def Contained (kernel : Kernel) (tree : Tree) (root : Path) : Prop :=
  ∀ path target real left, root <+: path → tree path = some (.link target) →
    resolve tree kernel.limit [] path = some (real, left) →
      (∀ content, tree real = some (.file content) → root <+: real ∨ zeroed content = content) ∧
        (tree real = some .dir → Safe tree root real)

/-! ## What the walk leaves -/

@[simp] theorem zeroed_zeroed (content : Bytes) : zeroed (zeroed content) = zeroed content := by
  simp [zeroed]

/-- How far an entry of the directory has come: from what it was, to what it is
and what was unlinked. -/
inductive Stage : Option Node → Option Node → List Node → Prop
  | kept (node : Option Node) : Stage node node []
  | overwritten (content : Bytes) :
      Stage (some (.file content)) (some (.file (zeroed content))) []
  | shredded (content : Bytes) : Stage (some (.file content)) none [.file (zeroed content)]
  | unlinked (target : Target) : Stage (some (.link target)) none [.link target]

/-- The invariant of the walk. -/
structure Walking (tree : Tree) (root : Path) (s : State) : Prop where
  inside : ∀ path, root <+: path → Stage (tree path) (s.tree path) (s.removed path)
  outside : ∀ path, ¬ root <+: path → s.tree path = tree path

section Walk

variable {kernel : Kernel} {tree : Tree} {root : Path} {s s' : State}

theorem walking_start (tree : Tree) (root : Path) : Walking tree root (State.start tree) :=
  ⟨fun _ _ => Stage.kept _, fun _ _ => rfl⟩

theorem Walking.within (walking : Walking tree root s) : Within s.tree tree := by
  intro path
  by_cases inside : root <+: path
  · have stage := walking.inside path inside
    revert stage
    generalize tree path = was
    generalize s.tree path = is
    generalize s.removed path = removed
    intro stage
    cases stage with
    | kept => exact Or.inr (Or.inl rfl)
    | overwritten content => exact Or.inr (Or.inr ⟨_, _, rfl, rfl⟩)
    | shredded content => exact Or.inl rfl
    | unlinked target => exact Or.inl rfl
  · exact Or.inr (Or.inl (walking.outside path inside))

theorem Walking.stage (walking : Walking tree root s) (path : Path) :
    ∃ removed, Stage (tree path) (s.tree path) removed := by
  by_cases inside : root <+: path
  · exact ⟨_, walking.inside path inside⟩
  · rw [walking.outside path inside]
    exact ⟨[], Stage.kept _⟩

/-- No directory is lost. -/
theorem Walking.dir (walking : Walking tree root s) {path : Path} (isDir : tree path = some .dir) :
    s.tree path = some .dir := by
  obtain ⟨removed, stage⟩ := walking.stage path
  rw [isDir] at stage
  generalize is : s.tree path = node at stage
  cases stage
  rfl

theorem Walking.wellFormed (walking : Walking tree root s) {depth : Nat}
    (wellFormed : WellFormed tree depth) : WellFormed s.tree depth where
  parent path name present :=
    walking.dir (wellFormed.parent path name fun none => present (walking.within.missing none))
  proper path name present :=
    wellFormed.proper path name fun none => present (walking.within.missing none)
  bounded path present := wellFormed.bounded path fun none => present (walking.within.missing none)

/-- Zeros over a file inside, or over one of zeros. -/
theorem Walking.overwrite (walking : Walking tree root s) {real : Path} {content : Bytes}
    (held : s.tree real = some (.file content))
    (harmless : root <+: real ∨ zeroed content = content) :
    Walking tree root { s with tree := s.tree.put real (some (.file (zeroed content))) } where
  inside path inside := by
    have stage := walking.inside path inside
    by_cases same : path = real
    · subst same
      rw [held] at stage
      change Stage (tree path) (s.tree.put path _ path) (s.removed path)
      rw [Tree.put_self]
      generalize tree path = was at stage ⊢
      generalize s.removed path = removed at stage ⊢
      cases stage with
      | kept => exact Stage.overwritten content
      | overwritten original =>
          rw [zeroed_zeroed]
          exact Stage.overwritten original
    · change Stage (tree path) (s.tree.put real _ path) (s.removed path)
      rw [Tree.put_other _ _ same]
      exact stage
  outside path outside := by
    change s.tree.put real _ path = tree path
    by_cases same : path = real
    · subst same
      rcases harmless with inside | zeros
      · exact absurd inside outside
      · rw [Tree.put_self, zeros, ← held]
        exact walking.outside path outside
    · rw [Tree.put_other _ _ same]
      exact walking.outside path outside

/-- The end of an entry inside: of a link, or of a file that holds zeros. -/
theorem Walking.unlink (walking : Walking tree root s) {real : Path} {node : Node}
    (inside : root <+: real) (held : s.tree real = some node) (notDir : node ≠ .dir)
    (zeros : ∀ content, node = .file content → zeroed content = content) :
    Walking tree root (s.unlink real node) where
  inside path pathInside := by
    have stage := walking.inside path pathInside
    by_cases same : path = real
    · subst same
      rw [held] at stage
      change Stage (tree path) (s.tree.put path none path)
        (if path = path then s.removed path ++ [node] else s.removed path)
      rw [Tree.put_self, if_pos rfl]
      generalize tree path = was at stage ⊢
      generalize s.removed path = removed at stage ⊢
      cases node with
      | dir => exact absurd rfl notDir
      | file content =>
          have isZeros := zeros content rfl
          cases stage with
          | kept =>
              rw [List.nil_append]
              have ends := Stage.shredded content
              rw [isZeros] at ends
              exact ends
          | overwritten original => exact Stage.shredded original
      | link target =>
          cases stage with
          | kept => exact Stage.unlinked target
    · change Stage (tree path) (s.tree.put real none path)
        (if path = real then s.removed path ++ [node] else s.removed path)
      rw [Tree.put_other _ _ same, if_neg same]
      exact stage
  outside path outside := by
    have differs : path ≠ real := fun same => outside (same ▸ inside)
    change s.tree.put real none path = tree path
    rw [Tree.put_other _ _ differs]
    exact walking.outside path outside

theorem within_overwrite {real : Path} {content : Bytes} (held : s.tree real = some (.file content)) :
    Within (s.tree.put real (some (.file (zeroed content)))) s.tree ∧
      Within s.tree (s.tree.put real (some (.file (zeroed content)))) := by
  constructor
  · intro path
    by_cases same : path = real
    · subst same
      exact Or.inr (Or.inr ⟨_, _, Tree.put_self _ _ _, held⟩)
    · exact Or.inr (Or.inl (Tree.put_other _ _ same))
  · intro path
    by_cases same : path = real
    · subst same
      exact Or.inr (Or.inr ⟨_, _, held, Tree.put_self _ _ _⟩)
    · exact Or.inr (Or.inl (Tree.put_other _ _ same).symm)

theorem within_unlink (real : Path) (node : Node) : Within (s.unlink real node).tree s.tree := by
  intro path
  by_cases same : path = real
  · subst same
    exact Or.inl (Tree.put_self _ _ _)
  · exact Or.inr (Or.inl (Tree.put_other _ _ same))

/-- Below a safe directory an entry that is no directory is inside. -/
theorem inside_of_safe (walking : Walking tree root s) {real : Path} {name : String}
    (safe : Safe tree root real) {node : Node} (entry : s.tree (real ++ [name]) = some node)
    (notDir : node ≠ .dir) : root <+: real ++ [name] := by
  rcases walking.within (real ++ [name]) with none | same | ⟨held, was, -, file⟩
  · rw [entry] at none
    cases none
  · exact safe _ node (List.prefix_append _ _) (same ▸ entry) notDir
  · exact safe _ _ (List.prefix_append _ _) file (by simp)

section Step

variable {depth : Nat} {dir real : Path} {left : Nat} {name : String}

/-- Where a link below a safe directory leads. -/
theorem link_leads (wellFormed : WellFormed tree depth) (contained : Contained kernel tree root)
    (walking : Walking tree root s) (safe : Safe tree root real) (le : left ≤ kernel.limit)
    {target : Target} (entry : s.tree (real ++ [name]) = some (.link target)) {stop : Path × Nat}
    (leads : resolve s.tree left real [name] = some stop) :
    (∀ content, s.tree stop.1 = some (.file content) →
        root <+: stop.1 ∨ zeroed content = content) ∧
      (s.tree stop.1 = some .dir → Safe tree root stop.1) := by
  have inside := inside_of_safe walking safe entry (by simp)
  have isLink := walking.within.link entry
  have isDir : tree real = some .dir := wellFormed.parent real name (by simp [isLink])
  obtain ⟨more, -, leadsThere⟩ := resolve_within walking.within le leads
  have direct : resolve tree kernel.limit [] (real ++ [name]) = some (stop.1, more) := by
    rw [resolve_append, wellFormed.resolve_real kernel.limit isDir]
    exact leadsThere
  obtain ⟨files, dirs⟩ := contained _ target stop.1 more inside isLink direct
  constructor
  · intro content held
    obtain ⟨removed, stage⟩ := walking.stage stop.1
    rw [held] at stage
    generalize was : tree stop.1 = node at stage
    cases stage with
    | kept => exact files content was
    | overwritten original => exact Or.inr (zeroed_zeroed original)
  · intro isDir
    exact dirs (walking.within.dir isDir)

/-- The overwrite of an entry leaves zeros in it, if it is a file. -/
theorem overwrite_step (wellFormed : WellFormed tree depth) (contained : Contained kernel tree root)
    (walking : Walking tree root s) (proper : Proper name)
    (leads : resolve s.tree kernel.limit [] dir = some (real, left)) (safe : Safe tree root real) :
    Walking tree root (s.overwrite kernel (dir ++ [name])) ∧
      Within (s.overwrite kernel (dir ++ [name])).tree s.tree ∧
      Within s.tree (s.overwrite kernel (dir ++ [name])).tree ∧
      ∀ content, (s.overwrite kernel (dir ++ [name])).tree (real ++ [name]) = some (.file content) →
        zeroed content = content := by
  have behind : resolve s.tree kernel.limit [] (dir ++ [name]) = resolve s.tree left real [name] := by
    rw [resolve_append, leads]
    rfl
  have le : left ≤ kernel.limit := resolve_left kernel.limit [] dir leads
  have unchanged (noFile : ∀ content, s.tree (real ++ [name]) ≠ some (.file content)) :
      Walking tree root s ∧ Within s.tree s.tree ∧ Within s.tree s.tree ∧
        ∀ content, s.tree (real ++ [name]) = some (.file content) → zeroed content = content :=
    ⟨walking, Within.refl _, Within.refl _, fun content held => absurd held (noFile content)⟩
  rw [State.overwrite, behind]
  cases entry : s.tree (real ++ [name]) with
  | none =>
      rw [resolve_missing proper entry]
      exact unchanged (by simp [entry])
  | some node =>
      have isDir := (walking.wellFormed wellFormed).parent real name (by simp [entry])
      cases node with
      | dir =>
          rw [resolve_entry isDir proper entry (by simp)]
          simpa only [entry] using unchanged (by simp [entry])
      | file content =>
          rw [resolve_entry isDir proper entry (by simp)]
          simp only [entry]
          split
          · obtain ⟨less, more⟩ := within_overwrite entry
            have inside := inside_of_safe walking safe entry (by simp)
            refine ⟨walking.overwrite entry (Or.inl inside), less, more, ?_⟩
            intro content' held
            dsimp only at held
            rw [Tree.put_self] at held
            cases held
            exact zeroed_zeroed content
          · rename_i nothing
            refine ⟨walking, Within.refl _, Within.refl _, ?_⟩
            intro content' held
            rw [entry] at held
            cases held
            rw [List.eq_nil_of_length_eq_zero (by omega : content.length = 0)]
            rfl
      | link target =>
          cases stops : resolve s.tree left real [name] with
          | none => exact unchanged (by simp [entry])
          | some stop =>
              obtain ⟨harmless, -⟩ := link_leads wellFormed contained walking safe le entry stops
              dsimp only
              split
              · rename_i content held
                split
                · obtain ⟨less, more⟩ := within_overwrite held
                  refine ⟨walking.overwrite held (harmless content held), less, more, ?_⟩
                  intro content' isFile
                  have differs : real ++ [name] ≠ stop.1 := by
                    intro same
                    rw [same, held] at entry
                    cases entry
                  dsimp only at isFile
                  rw [Tree.put_other _ _ differs, entry] at isFile
                  cases isFile
                · exact unchanged (by simp [entry])
              · exact unchanged (by simp [entry])

/-- An entry that is not descended into is no more afterwards. -/
theorem shred_step (wellFormed : WellFormed tree depth) (contained : Contained kernel tree root)
    (walking : Walking tree root s) (proper : Proper name)
    (leads : resolve s.tree kernel.limit [] dir = some (real, left)) (safe : Safe tree root real)
    (notDir : isDir s.tree kernel.limit (dir ++ [name]) = false) :
    Walking tree root (shredOnDrop kernel dir name s) ∧
      Within (shredOnDrop kernel dir name s).tree s.tree ∧
      (shredOnDrop kernel dir name s).tree (real ++ [name]) = none := by
  obtain ⟨walking', less, more, zeros⟩ :=
    overwrite_step wellFormed contained walking proper leads safe
  obtain ⟨left', -, leads'⟩ := resolve_within more (Nat.le_refl _) leads
  rw [shredOnDrop, State.removeFile, leads']
  dsimp only
  cases entry : (s.overwrite kernel (dir ++ [name])).tree (real ++ [name]) with
  | none => exact ⟨walking', less, entry⟩
  | some node =>
      have isDir' := (walking'.wellFormed wellFormed).parent real name (by simp [entry])
      cases node with
      | dir =>
          have entry' := less.dir entry
          have parent := (walking.wellFormed wellFormed).parent real name (by simp [entry'])
          have descends : isDir s.tree kernel.limit (dir ++ [name]) = true := by
            rw [isDir, resolve_append, leads]
            simp [resolve_entry parent proper entry' (by simp), entry']
          rw [descends] at notDir
          cases notDir
      | file content =>
          have inside := inside_of_safe walking' safe entry (by simp)
          refine ⟨walking'.unlink inside entry (by simp) ?_, ?_, ?_⟩
          · intro content' same
            cases same
            exact zeros content entry
          · exact (within_unlink _ _).trans less
          · exact Tree.put_self _ _ _
      | link target =>
          have inside := inside_of_safe walking' safe entry (by simp)
          refine ⟨walking'.unlink inside entry (by simp) (by simp), ?_, ?_⟩
          · exact (within_unlink _ _).trans less
          · exact Tree.put_self _ _ _

/-! ## The walk -/

/-- What is left of the recursion at a directory: links that may still be
followed, and directories below. -/
def height (depth left : Nat) (real : Path) : Nat := left * (depth + 1) + (depth - real.length)

/-- The walk may go on to the path: where it leads, if anywhere, is safe, and less
than `bound` high. -/
def MayVisit (kernel : Kernel) (tree : Tree) (root : Path) (depth bound : Nat) (dir : Path)
    (s : State) : Prop :=
  ∀ real left, resolve s.tree kernel.limit [] dir = some (real, left) →
    Safe tree root real ∧ height depth left real < bound

/-- No file below the path is left. -/
def Emptied (tree : Tree) (dir : Path) (s : State) : Prop :=
  ∀ path content, dir <+: path → tree path = some (.file content) → s.tree path = none

theorem Emptied.later {dir : Path} (emptied : Emptied tree dir s) (less : Within s'.tree s.tree) :
    Emptied tree dir s' :=
  fun path content below isFile => less.missing (emptied path content below isFile)

theorem MayVisit.later {bound : Nat} {dir : Path}
    (may : MayVisit kernel tree root depth bound dir s) (less : Within s'.tree s.tree) :
    MayVisit kernel tree root depth bound dir s' := by
  intro real left leads
  obtain ⟨more, le, leads'⟩ := resolve_within less (Nat.le_refl _) leads
  obtain ⟨safe, lower⟩ := may real more leads'
  refine ⟨safe, ?_⟩
  have smaller : left * (depth + 1) ≤ more * (depth + 1) := Nat.mul_le_mul_right _ le
  unfold height at lower ⊢
  omega

/-- A directory is lower than the one it is an entry of, or a link of which leads
to it. -/
theorem may_descend (wellFormed : WellFormed tree depth) (contained : Contained kernel tree root)
    (walking : Walking tree root s) (proper : Proper name) {bound : Nat}
    (may : MayVisit kernel tree root depth (bound + 1) dir s)
    (descends : isDir s.tree kernel.limit (dir ++ [name]) = true) :
    MayVisit kernel tree root depth bound (dir ++ [name]) s ∧ 0 < bound := by
  rw [isDir, resolve_append] at descends
  cases leads : resolve s.tree kernel.limit [] dir with
  | none => simp [leads] at descends
  | some stop =>
      obtain ⟨real, left⟩ := stop
      obtain ⟨safe, lower⟩ := may real left leads
      simp only [leads, Option.bind_some] at descends
      cases stops : resolve s.tree left real [name] with
      | none => simp [stops] at descends
      | some stop' =>
          obtain ⟨real', left'⟩ := stop'
          simp only [stops, decide_eq_true_eq] at descends
          have next : Safe tree root real' ∧ height depth left' real' < height depth left real := by
            have short := wellFormed.bounded real' (by simp [walking.within.dir descends])
            cases entry : s.tree (real ++ [name]) with
            | none =>
                rw [resolve_missing proper entry] at stops
                cases stops
            | some node =>
                have parent := (walking.wellFormed wellFormed).parent real name (by simp [entry])
                cases node with
                | link target =>
                    have le : left ≤ kernel.limit := resolve_left kernel.limit [] dir leads
                    obtain ⟨-, dirs⟩ :=
                      link_leads wellFormed contained walking safe le entry stops
                    have fewer : left' < left := resolve_link proper entry stops
                    refine ⟨dirs descends, ?_⟩
                    have smaller : (left' + 1) * (depth + 1) ≤ left * (depth + 1) :=
                      Nat.mul_le_mul_right _ fewer
                    rw [Nat.add_mul] at smaller
                    unfold height
                    omega
                | dir =>
                    rw [resolve_entry parent proper entry (by simp)] at stops
                    cases stops
                    refine ⟨fun below node above => safe below node ?_, ?_⟩
                    · exact (List.prefix_append _ _).trans above
                    · rw [List.length_append] at short
                      unfold height
                      rw [List.length_append]
                      simp only [List.length_singleton] at short ⊢
                      omega
                | file content =>
                    rw [resolve_entry parent proper entry (by simp)] at stops
                    cases stops
                    rw [entry] at descends
                    cases descends
          constructor
          · intro real'' left'' leads''
            rw [resolve_append, leads] at leads''
            simp only [Option.bind_some, stops, Option.some.injEq, Prod.mk.injEq] at leads''
            obtain ⟨rfl, rfl⟩ := leads''
            exact ⟨next.1, by omega⟩
          · omega

/-- What a walk is to do, from every state in which it may visit the path. -/
def Walks (kernel : Kernel) (tree : Tree) (root : Path) (depth bound : Nat)
    (descend : Path → State → Option State) : Prop :=
  ∀ dir s, Walking tree root s → MayVisit kernel tree root depth bound dir s → 0 < bound →
    ∃ s', descend dir s = some s' ∧ Walking tree root s' ∧ Within s'.tree s.tree ∧
      (root <+: dir → tree dir = some .dir → Emptied tree dir s')

/-- One entry, by whether the walk descends into it. -/
theorem visit_step (wellFormed : WellFormed tree depth) (contained : Contained kernel tree root)
    {bound : Nat} {descend : Path → State → Option State}
    (walks : Walks kernel tree root depth bound descend)
    (walking : Walking tree root s) (proper : Proper name)
    (may : MayVisit kernel tree root depth (bound + 1) dir s) :
    ∃ s', visit kernel descend dir s name = some s' ∧ Walking tree root s' ∧
      Within s'.tree s.tree ∧
      (root <+: dir → tree dir = some .dir → Emptied tree (dir ++ [name]) s') := by
  have entryFile {content : Bytes} {path : Path} {s' : State}
      (notDir : tree (dir ++ [name]) ≠ some .dir) (missing : s'.tree (dir ++ [name]) = none)
      (below : dir ++ [name] <+: path) (isFile : tree path = some (.file content)) :
      s'.tree path = none := by
    rw [wellFormed.eq_of_below below (by simp [isFile]) notDir]
    exact missing
  unfold visit
  by_cases descends : isDir s.tree kernel.limit (dir ++ [name]) = true
  · rw [if_pos descends]
    obtain ⟨mayNext, positive⟩ := may_descend wellFormed contained walking proper may descends
    obtain ⟨s', run, walking', less, emptied⟩ := walks (dir ++ [name]) s walking mayNext positive
    refine ⟨s', run, walking', less, ?_⟩
    intro inside isDir path content below isFile
    by_cases entryDir : tree (dir ++ [name]) = some .dir
    · exact emptied (inside.trans (List.prefix_append _ _)) entryDir path content below isFile
    · have direct := (walking.wellFormed wellFormed).resolve_real kernel.limit (walking.dir isDir)
      apply entryFile entryDir _ below isFile
      apply less.missing
      cases entry : s.tree (dir ++ [name]) with
      | none => rfl
      | some node =>
          cases node with
          | dir => exact absurd (walking.within.dir entry) entryDir
          | link target =>
              rw [wellFormed.eq_of_below below (by simp [isFile]) entryDir,
                walking.within.link entry] at isFile
              cases isFile
          | file held =>
              rw [FileTree.isDir, resolve_append, direct] at descends
              simp [resolve_entry (walking.dir isDir) proper entry (by simp), entry] at descends
  · rw [if_neg descends]
    have notDir : isDir s.tree kernel.limit (dir ++ [name]) = false := by simpa using descends
    cases leads : resolve s.tree kernel.limit [] dir with
    | none =>
        have nothing : shredOnDrop kernel dir name s = s := by
          simp [shredOnDrop, State.overwrite, State.removeFile, resolve_append, leads]
        rw [nothing]
        refine ⟨s, rfl, walking, Within.refl _, ?_⟩
        intro _ isDir
        rw [(walking.wellFormed wellFormed).resolve_real kernel.limit (walking.dir isDir)] at leads
        cases leads
    | some stop =>
        obtain ⟨real, left⟩ := stop
        obtain ⟨walking', less, gone⟩ :=
          shred_step wellFormed contained walking proper leads (may real left leads).1 notDir
        refine ⟨_, rfl, walking', less, ?_⟩
        intro _ isDir path content below isFile
        rw [(walking.wellFormed wellFormed).resolve_real kernel.limit (walking.dir isDir)] at leads
        cases leads
        apply entryFile _ gone below isFile
        intro entryDir
        rw [walking'.dir entryDir] at gone
        cases gone

/-- The entries of a listing one after the other. -/
theorem visits_step (wellFormed : WellFormed tree depth) (contained : Contained kernel tree root)
    {bound : Nat} {descend : Path → State → Option State}
    (walks : Walks kernel tree root depth bound descend) (names : List String)
    (proper : ∀ name ∈ names, Proper name) (walking : Walking tree root s)
    (may : MayVisit kernel tree root depth (bound + 1) dir s) :
    ∃ s', names.foldlM (visit kernel descend dir) s = some s' ∧ Walking tree root s' ∧
      Within s'.tree s.tree ∧
      (root <+: dir → tree dir = some .dir → ∀ name ∈ names, Emptied tree (dir ++ [name]) s') := by
  induction names generalizing s with
  | nil => exact ⟨s, rfl, walking, Within.refl _, fun _ _ name member => by cases member⟩
  | cons name names ih =>
      obtain ⟨s', run, walking', less, emptied⟩ :=
        visit_step wellFormed contained walks walking (proper name List.mem_cons_self) may
      obtain ⟨s'', run', walking'', less', emptied'⟩ :=
        ih (fun other member => proper other (List.mem_cons_of_mem _ member)) walking'
          (may.later less)
      refine ⟨s'', ?_, walking'', less'.trans less, ?_⟩
      · rw [List.foldlM_cons, run]
        exact run'
      · intro inside isDir other member
        rcases List.mem_cons.mp member with rfl | later
        · exact (emptied inside isDir).later less'
        · exact emptied' inside isDir other later

end Step

/-- Every entry is listed. -/
def Kernel.Lists (kernel : Kernel) (tree : Tree) : Prop :=
  ∀ dir name, tree (dir ++ [name]) ≠ none → name ∈ kernel.listing dir

/-- The walk comes to its end, by induction on the depth of its recursion. -/
theorem walk_walks {depth : Nat} (wellFormed : WellFormed tree depth)
    (contained : Contained kernel tree root) (lists : kernel.Lists tree) (bound : Nat) :
    Walks kernel tree root depth bound (walk kernel bound) := by
  induction bound with
  | zero =>
      intro dir s _ _ positive
      cases positive
  | succ bound ih =>
      intro dir s walking may _
      have listed : ∀ name ∈ readDir kernel s dir, Proper name := by
        intro name member
        unfold readDir at member
        split at member
        · cases member
        · have present := (List.mem_filter.mp member).2
          exact (walking.wellFormed wellFormed).proper _ name (Option.isSome_iff_ne_none.mp present)
      obtain ⟨s', run, walking', less, emptied⟩ :=
        visits_step wellFormed contained ih (readDir kernel s dir) listed walking may
      refine ⟨s', run, walking', less, ?_⟩
      intro inside isDir path content below isFile
      obtain ⟨rest, rfl⟩ := below
      cases rest with
      | nil =>
          rw [List.append_nil, isDir] at isFile
          cases isFile
      | cons name rest =>
          have below : dir ++ [name] <+: dir ++ name :: rest := ⟨rest, by simp⟩
          cases entry : s.tree (dir ++ [name]) with
          | some node =>
              apply emptied inside isDir name _ _ content below isFile
              have direct :=
                (walking.wellFormed wellFormed).resolve_real kernel.limit (walking.dir isDir)
              unfold readDir
              rw [direct]
              apply List.mem_filter.mpr
              refine ⟨lists dir name fun none => ?_, by simp [entry]⟩
              rw [walking.within.missing none] at entry
              cases entry
          | none =>
              cases rest with
              | nil => exact less.missing entry
              | cons next rest =>
                  have isDir' : tree (dir ++ [name]) = some .dir :=
                    wellFormed.above (dir ++ [name]) next rest (by simp [isFile])
                  rw [walking.dir isDir'] at entry
                  cases entry

/-- A directory whose links are contained is cleaned up. -/
theorem cleansUp_of_contained {depth : Nat} (wellFormed : WellFormed tree depth)
    (lists : kernel.Lists tree) (isDir : tree root = some .dir)
    (contained : Contained kernel tree root) : CleansUp kernel tree root := by
  have direct := wellFormed.resolve_real kernel.limit isDir
  obtain ⟨s, run, walking, -, emptied⟩ :=
    walk_walks wellFormed contained lists (height depth kernel.limit root + 1) root
      (State.start tree) (walking_start tree root) (by
        intro real left leads
        rw [show (State.start tree).tree = tree from rfl, direct] at leads
        cases leads
        exact ⟨fun below node above _ _ => above, Nat.lt_succ_self _⟩) (Nat.succ_pos _)
  have empty := emptied List.prefix_rfl isDir
  refine ⟨height depth kernel.limit root + 1, s.removeDirAll root, ?_, ?_, ?_, ?_⟩
  · rw [shredDirOnDrop, run]
    rfl
  · intro path outside
    change (if root <+: path then none else s.tree path) = _
    rw [if_neg outside]
    exact walking.outside path outside
  · intro path content inside isFile
    have gone := empty path content inside isFile
    have stage := walking.inside path inside
    change (if root <+: path then s.removed path ++ (s.tree path).toList else s.removed path) = _
    rw [if_pos inside, gone, Option.toList_none, List.append_nil]
    rw [isFile, gone] at stage
    generalize s.removed path = removed at stage ⊢
    cases stage
    rfl
  · intro path inside
    change (if root <+: path then none else s.tree path) = _
    rw [if_pos inside]

end Walk

end Nixnas.Tui.Shred
