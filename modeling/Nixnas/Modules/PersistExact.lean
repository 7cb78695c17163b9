import Mathlib.Data.List.Count
import Nixnas.Logic.Words
import Nixnas.Modules.PersistEnforce

/-!
# What the persistence gate computes

`modules/appliance/persist-enforce.nix` once more, with what each of its parts is
meant to say: the words of a `StateDirectory`, the ancestors of a path, and the
assertions that the build fails on.
-/

set_option autoImplicit false

namespace Nixnas.Modules.PersistEnforce

open Nixnas.Logic

/-! ## Words -/

/-- The words of a text with spaces. -/
def Spaced (text : String) (words : List String) : Prop :=
  Fields (· == ' ') text.toList (words.map String.toList)

/-- The directories that a value of `StateDirectory` names. -/
inductive Named : StateDirectory → List String → Prop where
  | null : Named .null []
  | string {value : String} {words : List String} (spaced : Spaced value words) :
      Named (.string value) words
  | list {values : List String} {wordLists : List (List String)}
      (spaced : List.Forall₂ Spaced values wordLists) : Named (.list values) wordLists.flatten

def wordsOf (text : String) : List String := (splitString ' ' text).filter (· ≠ "")

theorem wordsOf_toList (text : String) :
    (wordsOf text).map String.toList = fieldsBy (· == ' ') text.toList := by
  have same : (String.toList ∘ String.ofList) = id := by
    funext chars
    exact String.toList_ofList
  have nonempty : ((fun word : String => decide (word ≠ "")) ∘ String.ofList) =
      fun chars : List Char => !chars.isEmpty := by
    funext chars
    cases chars <;> simp
  rw [wordsOf, splitString, List.filter_map, nonempty, List.map_map, same, List.map_id]
  rfl

theorem spaced_iff {text : String} {words : List String} :
    Spaced text words ↔ words = wordsOf text := by
  rw [Spaced, fields_iff, ← wordsOf_toList]
  constructor
  · exact fun same => List.map_injective_iff.mpr (fun _ _ => String.toList_injective) same
  · exact fun same => congrArg (List.map String.toList) same

theorem stateDirNames_list (values : List String) :
    stateDirNames (.list values) = (values.map wordsOf).flatten := by
  rw [stateDirNames, List.filter_flatMap]
  rfl

/-- The gate reads the words of every shape, each as often as it is there. -/
theorem named_iff {raw : StateDirectory} {dirs : List String} :
    Named raw dirs ↔ dirs = stateDirNames raw := by
  constructor
  · intro named
    cases named with
    | null => rfl
    | string spaced =>
        rw [spaced_iff.mp spaced, stateDirNames]
        simp [wordsOf]
    | list spaced =>
        rename_i values wordLists
        rw [stateDirNames_list]
        have each : wordLists = values.map wordsOf := by
          induction spaced with
          | nil => rfl
          | cons first _ ih => rw [List.map_cons, ← ih, spaced_iff.mp first]
        rw [each]
  · intro same
    subst same
    cases raw with
    | null => exact Named.null
    | string value =>
        have single : stateDirNames (.string value) = wordsOf value := by simp [stateDirNames, wordsOf]
        rw [single]
        exact Named.string (spaced_iff.mpr rfl)
    | list values =>
        rw [stateDirNames_list]
        apply Named.list
        induction values with
        | nil => exact List.Forall₂.nil
        | cons value rest ih => exact List.Forall₂.cons (spaced_iff.mpr rfl) ih

/-! ## Ancestors -/

/-- A directory above the path, itself written with one slash before each component. -/
structure ProperAncestor (path ancestor : String) : Prop where
  written : absolute (components ancestor) = ancestor
  above : components ancestor <+: components path
  proper : components ancestor ≠ components path

/-- The ancestors of the path, each once, its parent first and the root last; the
root itself has none. -/
structure Ancestry (path : String) (ancestors : List String) : Prop where
  mem : ∀ ancestor, ancestor ∈ ancestors ↔ ProperAncestor path ancestor
  once : ancestors.Nodup
  nearestFirst : ancestors.Pairwise fun near far =>
    (components far).length < (components near).length
  root : ancestors.getLast? = if components path = [] then none else some "/"

theorem mem_ancestorsOf {path ancestor : String} :
    ancestor ∈ ancestorsOf path ↔ ProperAncestor path ancestor := by
  simp only [ancestorsOf, List.mem_map, List.mem_reverse, List.mem_range]
  constructor
  · intro found
    obtain ⟨n, short, rfl⟩ := found
    have read := components_take path n
    refine ⟨by rw [read], ?_, ?_⟩
    · rw [read]
      exact List.take_prefix n _
    · intro same
      have length := congrArg List.length same
      rw [read, List.length_take] at length
      omega
  · intro proper
    have length := proper.above.length_le
    have short : (components ancestor).length ≠ (components path).length :=
      fun same => proper.proper (proper.above.eq_of_length same)
    refine ⟨(components ancestor).length, by omega, ?_⟩
    rw [← List.prefix_iff_eq_take.mp proper.above]
    exact proper.written

theorem nearestFirst_ancestorsOf (path : String) :
    (ancestorsOf path).Pairwise fun near far =>
      (components far).length < (components near).length := by
  rw [ancestorsOf, List.pairwise_map, List.pairwise_reverse]
  refine List.Pairwise.imp_of_mem ?_ List.pairwise_lt_range
  intro far near _ isNear less
  have bound := List.mem_range.mp isNear
  rw [components_take, components_take, List.length_take, List.length_take]
  omega

theorem ancestry (path : String) : Ancestry path (ancestorsOf path) where
  mem _ := mem_ancestorsOf
  once := (nearestFirst_ancestorsOf path).imp fun {_ _} shorter same => by
    rw [same] at shorter
    omega
  nearestFirst := nearestFirst_ancestorsOf path
  root := by
    dsimp only [ancestorsOf]
    cases parts : components path with
    | nil => rfl
    | cons first rest =>
        rw [List.length_cons, List.range_succ_eq_map, List.reverse_cons, List.map_append,
          List.map_singleton, List.getLast?_append, List.getLast?_singleton, if_neg (List.cons_ne_nil _ _)]
        rfl

namespace SystemConfig

variable {config : SystemConfig}

/-- There is a mount at the directory, or a bind mount at a directory above it. -/
def Persisted (config : SystemConfig) (dir : String) : Prop :=
  (∃ fs, config.fileSystems.lookup (stateDir dir) = some fs) ∨
    ∃ ancestor fs, ProperAncestor (stateDir dir) ancestor ∧
      config.fileSystems.lookup ancestor = some fs ∧ fs.fsType = "none" ∧ "bind" ∈ fs.options

theorem isBindMountAt_iff {path : String} :
    config.isBindMountAt path = true ↔
      ∃ fs, config.fileSystems.lookup path = some fs ∧ fs.fsType = "none" ∧ "bind" ∈ fs.options := by
  rw [isBindMountAt]
  cases config.fileSystems.lookup path with
  | none => simp
  | some fs => simp [FileSystem.isBindMount]

theorem isPersisted_iff (dir : String) : config.isPersisted dir = true ↔ config.Persisted dir := by
  simp only [isPersisted, Persisted, Bool.or_eq_true, List.any_eq_true, Option.isSome_iff_exists,
    mem_ancestorsOf, isBindMountAt_iff, exists_and_left]

/-! ## Assertions -/

/-- The directories that a service declares. -/
def directories (config : SystemConfig) (serviceName : String) : List String :=
  match config.services.lookup serviceName with
  | some raw => stateDirNames raw
  | none => []

/-- Nothing accounts for the directory of the service. -/
def Unaddressed (config : SystemConfig) (e : Entry) : Prop :=
  ¬ config.Persisted e.dir ∧ e.serviceName ∉ config.nixnas.persist.explicitlyEphemeral

/-- Every declared directory makes as many entries as it has words. -/
theorem count_stateDirEntries (e : Entry) :
    config.stateDirEntries.count e = (config.directories e.serviceName).count e.dir := by
  have own : ∀ name (raw : StateDirectory),
      ∀ x ∈ (stateDirNames raw).map (Entry.mk name), x.serviceName = name := by
    intro name raw x member
    obtain ⟨dir, -, rfl⟩ := List.mem_map.mp member
    rfl
  have apart (raw : StateDirectory) :
      ((stateDirNames raw).map (Entry.mk e.serviceName)).count e = (stateDirNames raw).count e.dir :=
    List.count_map_of_injective (stateDirNames raw) (Entry.mk e.serviceName)
      (fun _ _ same => (Entry.mk.inj same).2) e.dir
  rw [stateDirEntries, AttrSet.count_mapAttrsToList own, directories]
  cases found : config.servicesWithState.lookup e.serviceName with
  | some raw =>
      rw [((AttrSet.lookup_filterAttrs _ _ _ _).mp found).1]
      exact apart raw
  | none =>
      cases declared : config.services.lookup e.serviceName with
      | none => rfl
      | some raw =>
          have stateless : stateDirNames raw = [] := by
            by_contra stateful
            have kept := (AttrSet.lookup_filterAttrs (fun _ raw => decide (stateDirNames raw ≠ []))
              config.services e.serviceName raw).mpr ⟨declared, by simpa using stateful⟩
            rw [servicesWithState, kept] at found
            cases found
          simp [stateless]

/-- What the gate computes is what it says: the ancestors of a path, whether a
directory is persisted, the words of a `StateDirectory`, and one failing assertion
for each word that nothing accounts for. -/
theorem gate_exact (config : SystemConfig) :
    (∀ path, Ancestry path (ancestorsOf path)) ∧
    (∀ dir, config.isPersisted dir = true ↔ config.Persisted dir) ∧
    (∀ raw dirs, Named raw dirs ↔ dirs = stateDirNames raw) ∧
    ∃ pairs : List Entry,
      config.assertions =
        (if config.nixnas.enable && config.nixnas.location = .usb then pairs.map assertionFor
          else []) ∧
      (∀ e, (assertionFor e).assertion = false) ∧
      ∀ e, (config.Unaddressed e → pairs.count e = (config.directories e.serviceName).count e.dir) ∧
        (¬ config.Unaddressed e → e ∉ pairs) := by
  refine ⟨ancestry, isPersisted_iff, fun _ _ => named_iff, config.unaddressed, rfl, fun _ => rfl, ?_⟩
  intro e
  let open_ (e : Entry) : Bool :=
    !config.isPersisted e.dir && !config.isAcknowledgedEphemeral e.serviceName
  have kept : open_ e = true ↔ config.Unaddressed e := by
    rw [Unaddressed, ← isPersisted_iff]
    simp [open_, isAcknowledgedEphemeral]
  constructor
  · intro isOpen
    have all : config.unaddressed.count e = config.stateDirEntries.count e :=
      List.count_filter (p := open_) (kept.mpr isOpen)
    rw [all, count_stateDirEntries]
  · intro closed member
    exact closed (kept.mp (List.of_mem_filter (p := open_) member))

/-- A sibling that shares a string prefix covers nothing, however deep the path. -/
example : ancestorsOf "/var/lib/acme-other/a/b" =
    ["/var/lib/acme-other/a", "/var/lib/acme-other", "/var/lib", "/var", "/"] := by decide

end SystemConfig

end Nixnas.Modules.PersistEnforce
