import Nixnas.Tui.Shred

/-!
# Links out of the PKI directory

A link of the directory that leads to a file outside, or to a directory outside
with a file below it, is enough for some order of the listings to change what
stands there: the walk goes straight for it.
-/

set_option autoImplicit false

namespace Nixnas.Tui.Shred

open Nixnas.Logic Nixnas.Logic.FileTree
open Nixnas.Rust (Bytes)

/-- The file outside that a link reaches: itself, or below the directory that the
link leads to. -/
structure Escapes (kernel : Kernel) (tree : Tree) (root link victim : Path) (content : Bytes) :
    Prop where
  inside : root <+: link
  isLink : ∃ target, tree link = some (.link target)
  outside : ¬ root <+: victim
  isFile : tree victim = some (.file content)
  leads : ∃ real left, resolve tree kernel.limit [] link = some (real, left) ∧
    ((real = victim ∧ zeroed content ≠ content) ∨ (tree real = some .dir ∧ real <+: victim))

section Spoiling

variable {kernel : Kernel} {tree : Tree} {victim : Path} {content : Bytes} {s s' : State}

/-- The victim is gone, or holds zeros that it did not hold. -/
def Spoiled (victim : Path) (content : Bytes) (s : State) : Prop :=
  s.tree victim = none ∨
    ∃ zeros, s.tree victim = some (.file zeros) ∧ zeroed zeros = zeros ∧ zeroed content ≠ content

theorem Spoiled.overwrite (spoiled : Spoiled victim content s) (path : Path) :
    Spoiled victim content (s.overwrite kernel path) := by
  unfold State.overwrite
  split
  · exact spoiled
  · rename_i real left leads
    split
    · rename_i held isFile
      split
      · unfold Spoiled
        dsimp only
        by_cases same : victim = real
        · subst same
          rcases spoiled with gone | ⟨zeros, isZeros, -, differs⟩
          · rw [gone] at isFile
            cases isFile
          · exact Or.inr ⟨zeroed held, Tree.put_self _ _ _, zeroed_zeroed held, differs⟩
        · rw [Tree.put_other _ _ same]
          exact spoiled
      · exact spoiled
    · exact spoiled

theorem Spoiled.removeFile (spoiled : Spoiled victim content s) (dir : Path) (name : String) :
    Spoiled victim content (s.removeFile kernel dir name) := by
  unfold State.removeFile
  split
  · exact spoiled
  · rename_i real left leads
    split
    · exact spoiled
    · exact spoiled
    · rename_i node _ _
      by_cases same : victim = real ++ [name]
      · subst same
        exact Or.inl (Tree.put_self _ _ _)
      · have unchanged : (s.unlink (real ++ [name]) node).tree victim = s.tree victim :=
          Tree.put_other _ _ same
        unfold Spoiled
        rw [unchanged]
        exact spoiled

theorem Spoiled.shred (spoiled : Spoiled victim content s) (dir : Path) (name : String) :
    Spoiled victim content (shredOnDrop kernel dir name s) :=
  (spoiled.overwrite _).removeFile dir name

theorem Spoiled.visits {descend : Path → State → Option State}
    (keeps : ∀ dir s s', Spoiled victim content s → descend dir s = some s' →
      Spoiled victim content s')
    {dir : Path} (names : List String) (spoiled : Spoiled victim content s)
    (run : names.foldlM (visit kernel descend dir) s = some s') : Spoiled victim content s' := by
  induction names generalizing s with
  | nil =>
      cases run
      exact spoiled
  | cons name names ih =>
      rw [List.foldlM_cons] at run
      cases first : visit kernel descend dir s name with
      | none =>
          rw [first] at run
          cases run
      | some next =>
          rw [first] at run
          refine ih ?_ run
          unfold visit at first
          split at first
          · exact keeps _ _ _ spoiled first
          · cases first
            exact spoiled.shred dir name

/-- What is spoiled stays so, whatever the walk does next. -/
theorem Spoiled.walk (bound : Nat) {dir : Path} (spoiled : Spoiled victim content s)
    (run : walk kernel bound dir s = some s') : Spoiled victim content s' := by
  induction bound generalizing dir s s' with
  | zero => cases run
  | succ bound ih => exact Spoiled.visits (fun _ _ _ => ih) _ spoiled run

/-! ## Straight for the victim -/

/-- A walk of the directory, if it ends, has spoiled the victim. -/
def Spoils (kernel : Kernel) (tree : Tree) (victim : Path) (content : Bytes) (dir : Path) : Prop :=
  ∀ bound s, walk kernel bound dir (State.start tree) = some s → Spoiled victim content s

/-- The first entry decides: it is descended into, or shredded. -/
theorem spoils_of_first {dir : Path} {name : String} {rest : List String}
    (first : readDir kernel (State.start tree) dir = name :: rest)
    (entry : (isDir tree kernel.limit (dir ++ [name]) = true ∧
        Spoils kernel tree victim content (dir ++ [name])) ∨
      (isDir tree kernel.limit (dir ++ [name]) = false ∧
        Spoiled victim content (shredOnDrop kernel dir name (State.start tree)))) :
    Spoils kernel tree victim content dir := by
  intro bound s run
  cases bound with
  | zero => cases run
  | succ bound =>
      rw [Shred.walk, first, List.foldlM_cons, visit] at run
      rcases entry with ⟨descends, spoils⟩ | ⟨stays, spoiled⟩
      · rw [show (State.start tree).tree = tree from rfl, if_pos descends] at run
        cases next : Shred.walk kernel bound (dir ++ [name]) (State.start tree) with
        | none =>
            rw [next] at run
            cases run
        | some after =>
            rw [next] at run
            exact Spoiled.visits (fun _ _ _ => Spoiled.walk bound) rest (spoils bound after next) run
      · rw [show (State.start tree).tree = tree from rfl, if_neg (by simp [stays])] at run
        exact Spoiled.visits (fun _ _ _ => Spoiled.walk bound) rest spoiled run

/-- Each directory on the way from `real` along the names lists the next one first. -/
def Ahead (kernel : Kernel) (real : Path) : List String → Prop
  | [] => True
  | name :: rest => (∃ others, kernel.listing real = name :: others) ∧ Ahead kernel (real ++ [name]) rest

theorem readDir_first {dir real : Path} {left : Nat} {name : String} {others : List String}
    (leads : resolve tree kernel.limit [] dir = some (real, left))
    (lists : kernel.listing real = name :: others) (present : tree (real ++ [name]) ≠ none) :
    ∃ rest, readDir kernel (State.start tree) dir = name :: rest := by
  refine ⟨others.filter fun other => (tree (real ++ [other])).isSome, ?_⟩
  unfold readDir
  rw [show (State.start tree).tree = tree from rfl, leads]
  dsimp only
  rw [lists, List.filter_cons, if_pos (Option.isSome_iff_ne_none.mpr present)]

/-- Along real directories the walk goes straight to the last name. -/
theorem spoils_along {depth : Nat} (wellFormed : WellFormed tree depth) {real : Path} {left : Nat}
    (names : List String) (last : String) {dir : Path}
    (leads : resolve tree kernel.limit [] dir = some (real, left))
    (ahead : Ahead kernel real (names ++ [last]))
    (present : tree (real ++ names ++ [last]) ≠ none)
    (ends : resolve tree kernel.limit [] (dir ++ names) = some (real ++ names, left) →
      (isDir tree kernel.limit (dir ++ names ++ [last]) = true ∧
        Spoils kernel tree victim content (dir ++ names ++ [last])) ∨
      (isDir tree kernel.limit (dir ++ names ++ [last]) = false ∧
        Spoiled victim content (shredOnDrop kernel (dir ++ names) last (State.start tree)))) :
    Spoils kernel tree victim content dir := by
  induction names generalizing real dir with
  | nil =>
      obtain ⟨⟨others, lists⟩, -⟩ := ahead
      rw [List.append_nil] at present
      rw [List.append_nil, List.append_nil] at ends
      obtain ⟨rest, first⟩ := readDir_first leads lists present
      exact spoils_of_first first (ends leads)
  | cons name names ih =>
      obtain ⟨⟨others, lists⟩, further⟩ := ahead
      have further' : tree (real ++ [name] ++ names ++ [last]) ≠ none := by simpa using present
      have isDir' : tree (real ++ [name]) = some .dir := by
        obtain ⟨next, rest, split⟩ : ∃ next rest, names ++ [last] = next :: rest := by
          cases names <;> simp
        rw [List.append_assoc, split] at further'
        exact wellFormed.above _ next rest further'
      have parent := wellFormed.parent real name (by simp [isDir'])
      have proper := wellFormed.proper real name (by simp [isDir'])
      have leads' : resolve tree kernel.limit [] (dir ++ [name]) = some (real ++ [name], left) := by
        rw [resolve_append, leads]
        exact resolve_entry parent proper isDir' (by simp)
      have descends : isDir tree kernel.limit (dir ++ [name]) = true := by
        rw [isDir, leads']
        simp [isDir']
      obtain ⟨rest, first⟩ := readDir_first leads lists (by simp [isDir'])
      apply spoils_of_first first
      refine Or.inl ⟨descends, ih leads' further further' ?_⟩
      intro arrives
      have ends' := ends
      simp only [List.append_assoc, List.singleton_append] at arrives ends' ⊢
      exact ends' arrives

/-! ## The ends of the way -/

/-- Through a link to it, a file is overwritten. -/
theorem spoiled_by_overwrite {dir : Path} {name : String} {left : Nat}
    (leads : resolve tree kernel.limit [] (dir ++ [name]) = some (victim, left))
    (isFile : tree victim = some (.file content)) (differs : zeroed content ≠ content) :
    Spoiled victim content (shredOnDrop kernel dir name (State.start tree)) := by
  have positive : 0 < content.length := by
    apply Nat.pos_of_ne_zero
    intro empty
    rw [List.eq_nil_of_length_eq_zero empty] at differs
    exact differs rfl
  apply Spoiled.removeFile
  unfold State.overwrite
  rw [show (State.start tree).tree = tree from rfl, leads]
  simp only [isFile, if_pos positive]
  exact Or.inr ⟨zeroed content, Tree.put_self _ _ _, zeroed_zeroed content, differs⟩

/-- By its own name, a file is unlinked. -/
theorem spoiled_by_unlink {dir real : Path} {name : String} {left : Nat} {depth : Nat}
    (wellFormed : WellFormed tree depth)
    (leads : resolve tree kernel.limit [] dir = some (real, left))
    (isFile : tree (real ++ [name]) = some (.file content)) :
    Spoiled (real ++ [name]) content (shredOnDrop kernel dir name (State.start tree)) := by
  have parent := wellFormed.parent real name (by simp [isFile])
  have proper := wellFormed.proper real name (by simp [isFile])
  have behind : resolve tree kernel.limit [] (dir ++ [name]) = some (real ++ [name], left) := by
    rw [resolve_append, leads]
    exact resolve_entry parent proper isFile (by simp)
  have overwritten : ∃ held, ((State.start tree).overwrite kernel (dir ++ [name])).tree
      (real ++ [name]) = some (.file held) ∧
      Within tree ((State.start tree).overwrite kernel (dir ++ [name])).tree := by
    unfold State.overwrite
    rw [show (State.start tree).tree = tree from rfl, behind]
    simp only [isFile]
    split
    · exact ⟨zeroed content, Tree.put_self _ _ _, (within_overwrite (s := State.start tree) isFile).2⟩
    · exact ⟨content, isFile, Within.refl _⟩
  obtain ⟨held, isHeld, more⟩ := overwritten
  obtain ⟨left', -, leads'⟩ := resolve_within more (Nat.le_refl _) leads
  unfold shredOnDrop State.removeFile
  rw [leads']
  simp only [isHeld]
  exact Or.inl (Tree.put_self _ _ _)

/-! ## The order that goes there -/

/-- The next name on the way from `base` to `goal`. -/
def toward (base goal dir : Path) : Option String :=
  if base <+: dir ∧ dir <+: goal then goal[dir.length]? else none

theorem toward_next {base dir : Path} {name : String} {rest : List String} (above : base <+: dir) :
    toward base (dir ++ name :: rest) dir = some name := by
  simp [toward, above]

/-- The kernel that lists one name of some directories first. -/
def Kernel.aimed (kernel : Kernel) (next : Path → Option String) : Kernel where
  limit := kernel.limit
  listing dir :=
    match next dir with
    | some name => name :: (kernel.listing dir).filter (· ≠ name)
    | none => kernel.listing dir

theorem Kernel.aimed_lists {next : Path → Option String} (lists : kernel.Lists tree) :
    (kernel.aimed next).Lists tree := by
  intro dir name present
  have listed := lists dir name present
  unfold aimed
  dsimp only
  split
  · rename_i first _
    by_cases same : name = first
    · exact same ▸ List.mem_cons_self
    · exact List.mem_cons_of_mem _ (List.mem_filter.mpr ⟨listed, by simpa using same⟩)
  · exact listed

theorem ahead_aimed {next : Path → Option String} {base : Path} (names : List String) {real : Path}
    (above : base <+: real)
    (aims : ∀ dir name rest, base <+: dir → real ++ names = dir ++ name :: rest →
      next dir = some name) : Ahead (kernel.aimed next) real names := by
  induction names generalizing real with
  | nil => trivial
  | cons name names ih =>
      constructor
      · have first := aims real name names above rfl
        unfold Kernel.aimed
        simp only [first]
        exact ⟨_, rfl⟩
      · apply ih (above.trans (List.prefix_append _ _))
        intro dir other rest aboveDir same
        apply aims dir other rest aboveDir
        rw [← same]
        simp

theorem exists_last {path longer : Path} (above : path <+: longer) (differs : longer ≠ path) :
    ∃ names last, longer = path ++ names ++ [last] := by
  obtain ⟨rest, rfl⟩ := above
  have nonempty : rest ≠ [] := by
    intro empty
    rw [empty, List.append_nil] at differs
    exact differs rfl
  refine ⟨rest.dropLast, rest.getLast nonempty, ?_⟩
  rw [List.append_assoc, List.dropLast_concat_getLast]

/-- A walk whose listings aim at the link, and from where it leads at the file. -/
theorem spoils_of_escapes {depth : Nat} {root link : Path} (wellFormed : WellFormed tree depth)
    (isRoot : tree root = some .dir) (escapes : Escapes kernel tree root link victim content)
    (aheadLink : ∀ names, link = root ++ names → Ahead kernel root names)
    (aheadVictim : ∀ real names, victim = real ++ names → Ahead kernel real names) :
    Spoils kernel tree victim content root := by
  obtain ⟨target, isLink⟩ := escapes.isLink
  obtain ⟨real, left, leads, reaches⟩ := escapes.leads
  have notRoot : link ≠ root := by
    intro same
    rw [same, isRoot] at isLink
    cases isLink
  obtain ⟨names, last, split⟩ := exists_last escapes.inside notRoot
  apply spoils_along wellFormed names last (wellFormed.resolve_real _ isRoot)
  · exact aheadLink _ (by rw [split, List.append_assoc])
  · rw [← split, isLink]
    simp
  intro _
  rw [← split, isDir_of_resolve leads]
  rcases reaches with ⟨same, differs⟩ | ⟨isReal, below⟩
  · subst same
    refine Or.inr ⟨by simp [escapes.isFile], ?_⟩
    exact spoiled_by_overwrite (split ▸ leads) escapes.isFile differs
  · have notReal : victim ≠ real := by
      intro same
      have isFile := escapes.isFile
      rw [same, isReal] at isFile
      cases isFile
    obtain ⟨names', last', split'⟩ := exists_last below notReal
    have isFile : tree (real ++ names' ++ [last']) = some (.file content) := split' ▸ escapes.isFile
    refine Or.inl ⟨by simp [isReal], ?_⟩
    apply spoils_along wellFormed names' last' leads
    · exact aheadVictim real _ (by rw [split', List.append_assoc])
    · rw [isFile]
      simp
    intro arrives
    have present : tree (real ++ names' ++ [last']) ≠ none := by
      rw [isFile]
      simp
    have parent := wellFormed.parent (real ++ names') last' present
    have proper := wellFormed.proper (real ++ names') last' present
    have direct : resolve tree kernel.limit [] (link ++ names' ++ [last']) =
        some (real ++ names' ++ [last'], left) := by
      rw [resolve_append, arrives]
      exact resolve_entry parent proper isFile (by simp)
    rw [isDir_of_resolve direct, isFile, split']
    exact Or.inr ⟨by simp, spoiled_by_unlink wellFormed arrives isFile⟩

/-- A link that reaches a file outside is followed in some order of the listings,
and the file does not stay as it was. -/
theorem not_cleansUp_of_escapes {depth : Nat} {root link : Path} (wellFormed : WellFormed tree depth)
    (lists : kernel.Lists tree) (isRoot : tree root = some .dir)
    (escapes : Escapes kernel tree root link victim content) :
    ∃ listing, (Kernel.mk kernel.limit listing).Lists tree ∧
      ¬ CleansUp ⟨kernel.limit, listing⟩ tree root := by
  let next : Path → Option String := fun dir =>
    if root <+: dir then toward root link dir else toward [] victim dir
  refine ⟨(kernel.aimed next).listing, Kernel.aimed_lists lists, ?_⟩
  have aimed : Escapes (kernel.aimed next) tree root link victim content :=
    ⟨escapes.inside, escapes.isLink, escapes.outside, escapes.isFile, escapes.leads⟩
  have spoils : Spoils (kernel.aimed next) tree victim content root := by
    apply spoils_of_escapes wellFormed isRoot aimed
    · rintro names rfl
      apply ahead_aimed names (List.prefix_rfl)
      intro dir name rest above same
      simp only [next, if_pos above, same]
      exact toward_next above
    · rintro real names rfl
      apply ahead_aimed names (List.nil_prefix)
      intro dir name rest above same
      have outside : ¬ root <+: dir := by
        intro inside
        apply escapes.outside
        rw [same]
        exact inside.trans (List.prefix_append _ _)
      simp only [next, if_neg outside, same]
      exact toward_next above
  rintro ⟨bound, final, run, cleaned⟩
  obtain ⟨after, walked, rfl⟩ := Option.map_eq_some_iff.mp run
  have unchanged := cleaned.outside victim escapes.outside
  change (if root <+: victim then none else after.tree victim) = tree victim at unchanged
  rw [if_neg escapes.outside, escapes.isFile] at unchanged
  rcases spoils bound after walked with gone | ⟨zeros, isZeros, same, differs⟩
  · rw [gone] at unchanged
    cases unchanged
  · rw [isZeros] at unchanged
    cases unchanged
    exact differs same

end Spoiling

/-- A directory whose links are contained is cleaned up; with a link that reaches
a file outside, some order of the listings does harm there. -/
theorem shredDirOnDrop_cleansUp (kernel : Kernel) (tree : Tree) (depth : Nat) (root : Path)
    (wellFormed : WellFormed tree depth) (lists : kernel.Lists tree)
    (isRoot : tree root = some .dir) :
    (Contained kernel tree root → CleansUp kernel tree root) ∧
      ∀ link victim content, Escapes kernel tree root link victim content →
        ∃ listing, (Kernel.mk kernel.limit listing).Lists tree ∧
          ¬ CleansUp ⟨kernel.limit, listing⟩ tree root := by
  constructor
  · exact cleansUp_of_contained wellFormed lists isRoot
  · intro link victim content escapes
    exact not_cleansUp_of_escapes wellFormed lists isRoot escapes

/-! ## Two bundles -/

namespace Bundle

def ofEntries (entries : List (Path × Node)) : Tree := fun path => entries.lookup path

/-- Linux, with the entries in their order. -/
def linux (entries : List (Path × Node)) : Kernel where
  limit := 40
  listing dir := entries.filterMap fun entry =>
    if entry.1.dropLast = dir then entry.1.getLast? else none

/-- Every entry has its directory and a proper name. -/
def placed (entries : List (Path × Node)) : Bool :=
  entries.all fun entry => entry.1 = [] || (entries.lookup entry.1.dropLast = some .dir &&
    entry.1.getLastD "" ≠ "." && entry.1.getLastD "" ≠ ".." && entry.1.length ≤ 8)

theorem mem_of_entry {entries : List (Path × Node)} {path : Path} {node : Node}
    (entry : ofEntries entries path = some node) : (path, node) ∈ entries := by
  induction entries with
  | nil => cases entry
  | cons first rest ih =>
      rw [ofEntries, List.lookup_cons] at entry
      split at entry
      · rename_i same
        cases entry
        rw [beq_iff_eq.mp same]
        exact List.mem_cons_self
      · exact List.mem_cons_of_mem _ (ih entry)

theorem mem_of_present {entries : List (Path × Node)} {path : Path}
    (present : ofEntries entries path ≠ none) : ∃ node, (path, node) ∈ entries := by
  obtain ⟨node, entry⟩ := Option.ne_none_iff_exists'.mp present
  exact ⟨node, mem_of_entry entry⟩

theorem wellFormed_of_placed {entries : List (Path × Node)} (isPlaced : placed entries = true) :
    WellFormed (ofEntries entries) 8 := by
  have known {path : Path} {name : String} (present : ofEntries entries (path ++ [name]) ≠ none) :
      ofEntries entries path = some .dir ∧ Proper name ∧ (path ++ [name]).length ≤ 8 := by
    obtain ⟨node, member⟩ := mem_of_present present
    have holds := List.all_eq_true.mp isPlaced _ member
    simp only [List.append_eq_nil_iff, List.cons_ne_self, and_false, decide_false, Bool.false_or,
      List.dropLast_concat, List.getLastD_concat, Bool.and_eq_true, decide_eq_true_eq] at holds
    obtain ⟨⟨⟨dir, notDot⟩, notDots⟩, short⟩ := holds
    exact ⟨dir, ⟨notDot, notDots⟩, short⟩
  constructor
  · exact fun path name present => (known present).1
  · exact fun path name present => (known present).2.1
  · intro path present
    rcases List.eq_nil_or_concat path with rfl | ⟨parent, name, rfl⟩
    · exact Nat.zero_le _
    · rw [List.concat_eq_append] at present ⊢
      exact (known present).2.2

theorem linux_lists (entries : List (Path × Node)) : (linux entries).Lists (ofEntries entries) := by
  intro dir name present
  obtain ⟨node, member⟩ := mem_of_present present
  exact List.mem_filterMap.mpr ⟨_, member, by simp⟩

def root : Path := ["dev", "shm", "nixnas-sbpki-7"]

def around : List (Path × Node) :=
  [([], .dir), (["dev"], .dir), (["dev", "shm"], .dir), (["home"], .dir),
    (["home", "notes"], .file [7]), (root, .dir), (root ++ ["keys"], .dir),
    (root ++ ["keys", "db.key"], .file [1, 2])]

/-- One link to a directory of the bundle, and one back up. -/
def closed : List (Path × Node) :=
  around ++ [(root ++ ["current"], .link ⟨false, ["keys"]⟩),
    (root ++ ["keys", "up"], .link ⟨false, [".."]⟩)]

/-- One link to the home directories. -/
def leaky : List (Path × Node) := around ++ [(root ++ ["backup"], .link ⟨true, ["home"]⟩)]

theorem closed_contained : Contained (linux closed) (ofEntries closed) root := by
  intro path target real left inside isLink leads
  have insideReal : root <+: real := by
    have member := mem_of_entry isLink
    simp only [closed, around, List.cons_append, List.nil_append, List.mem_cons, Prod.mk.injEq,
      List.not_mem_nil, or_false, reduceCtorEq, and_false, false_or] at member
    rcases member with ⟨rfl, -⟩ | ⟨rfl, -⟩
    · have current : resolve (ofEntries closed) 40 [] (root ++ ["current"]) =
          some (root ++ ["keys"], 39) := by decide
      rw [show (linux closed).limit = 40 from rfl, current] at leads
      cases leads
      exact List.prefix_append _ _
    · have up : resolve (ofEntries closed) 40 [] (root ++ ["keys", "up"]) = some (root, 39) := by
        decide
      rw [show (linux closed).limit = 40 from rfl, up] at leads
      cases leads
      exact List.prefix_rfl
  exact ⟨fun content _ => Or.inl insideReal, fun _ below node above _ _ => insideReal.trans above⟩

theorem leaky_escapes :
    Escapes (linux leaky) (ofEntries leaky) root (root ++ ["backup"]) ["home", "notes"] [7] where
  inside := List.prefix_append _ _
  isLink := ⟨⟨true, ["home"]⟩, by decide⟩
  outside := by decide
  isFile := by decide
  leads := ⟨["home"], 39, by decide, Or.inr ⟨by decide +kernel, by decide +kernel⟩⟩

end Bundle

/-- The notes in the home directory do not survive the drop. -/
theorem leaky_bundle_not_cleansUp :
    ¬ ∀ (kernel : Kernel) (tree : Tree) (depth : Nat) (root : Path), WellFormed tree depth →
      kernel.Lists tree → tree root = some .dir → CleansUp kernel tree root := by
  intro always
  obtain ⟨listing, lists, fails⟩ := not_cleansUp_of_escapes
    (Bundle.wellFormed_of_placed (by decide)) (Bundle.linux_lists Bundle.leaky)
    (by decide) Bundle.leaky_escapes
  exact fails (always _ _ 8 Bundle.root (Bundle.wellFormed_of_placed (by decide)) lists
    (by decide))

theorem closed_bundle_cleansUp :
    CleansUp (Bundle.linux Bundle.closed) (Bundle.ofEntries Bundle.closed) Bundle.root :=
  (shredDirOnDrop_cleansUp (Bundle.linux Bundle.closed) (Bundle.ofEntries Bundle.closed) 8 Bundle.root
    (Bundle.wellFormed_of_placed (by decide)) (Bundle.linux_lists Bundle.closed)
    (by decide)).1 Bundle.closed_contained

end Nixnas.Tui.Shred
