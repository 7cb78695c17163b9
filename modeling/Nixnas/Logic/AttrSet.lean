import Mathlib.Data.List.AList
import Mathlib.Data.List.Sort

/-!
# Attribute sets

Finite maps with ordered names, and the operations of a configuration language
on them: the sorted list of names, the right-biased update `a // b`, `mapAttrs`,
and `listToAttrs`, where the first entry of a name wins.  Every operation comes
with what a lookup in its result finds.
-/

set_option autoImplicit false

namespace Nixnas.Logic

universe u v w

abbrev AttrSet (Name : Type u) (α : Type v) := AList fun _ : Name => α

namespace AttrSet

variable {Name : Type u} [LinearOrder Name] {α : Type v} {β : Type w}

def attrNames (attrs : AttrSet Name α) : List Name :=
  attrs.keys.insertionSort (· ≤ ·)

/-- `attrs == { }`. -/
def isEmpty (attrs : AttrSet Name α) : Bool := attrs.entries.isEmpty

/-- `left // right`: a name of both sets keeps the value of `right`. -/
def update (left right : AttrSet Name α) : AttrSet Name α := right ∪ left

def mapAttrs (f : Name → α → β) (attrs : AttrSet Name α) : AttrSet Name β where
  entries := attrs.entries.map (.map id f)
  nodupKeys := .map₂ f attrs.entries attrs.nodupKeys

def filterAttrs (p : Name → α → Bool) (attrs : AttrSet Name α) : AttrSet Name α where
  entries := attrs.entries.filter fun entry => p entry.1 entry.2
  nodupKeys := attrs.nodupKeys.sublist List.filter_sublist

def listToAttrs (pairs : List (Name × α)) : AttrSet Name α :=
  (pairs.map fun pair => ⟨pair.1, pair.2⟩ : List (Σ _ : Name, α)).toAList

/-- `lib.genAttrs`. -/
def genAttrs (names : List Name) (f : Name → α) : AttrSet Name α :=
  listToAttrs (names.map fun name => (name, f name))

/-- The values of `f`, in the order of the sorted names. -/
def mapAttrsToList (f : Name → α → β) (attrs : AttrSet Name α) : List β :=
  attrs.attrNames.filterMap fun name => (attrs.lookup name).map (f name)

/-! ## Names -/

omit [LinearOrder Name] in
theorem isEmpty_iff (attrs : AttrSet Name α) : attrs.isEmpty = true ↔ attrs = ∅ := by
  rw [isEmpty, List.isEmpty_iff, AList.ext_iff]
  rfl

theorem mem_attrNames (attrs : AttrSet Name α) (name : Name) :
    name ∈ attrs.attrNames ↔ ∃ value, attrs.lookup name = some value := by
  rw [attrNames, List.mem_insertionSort, ← AList.mem_keys, ← AList.lookup_isSome,
    Option.isSome_iff_exists]

theorem attrNames_nodup (attrs : AttrSet Name α) : attrs.attrNames.Nodup :=
  (List.perm_insertionSort _ _).nodup_iff.mpr attrs.keys_nodup

theorem mem_mapAttrsToList (f : Name → α → β) (attrs : AttrSet Name α) (value : β) :
    value ∈ attrs.mapAttrsToList f ↔
      ∃ name content, attrs.lookup name = some content ∧ f name content = value := by
  simp only [mapAttrsToList, List.mem_filterMap, Option.map_eq_some_iff, mem_attrNames]
  constructor
  · rintro ⟨name, _, content, found, same⟩
    exact ⟨name, content, found, same⟩
  · rintro ⟨name, content, found, same⟩
    exact ⟨name, ⟨content, found⟩, content, found, same⟩

/-- Names that each give a list of what carries the name: something is there as
often as its own name has it. -/
theorem count_flatten_filterMap {γ : Type w} [DecidableEq γ] {key : γ → Name}
    {g : Name → Option (List γ)} (keyed : ∀ name xs, g name = some xs → ∀ x ∈ xs, key x = name)
    {names : List Name} (distinct : names.Nodup) (x : γ) :
    (names.filterMap g).flatten.count x =
      if key x ∈ names then ((g (key x)).getD []).count x else 0 := by
  have other (name : Name) (differs : key x ≠ name) : ((g name).getD []).count x = 0 := by
    cases found : g name with
    | none => rfl
    | some xs => exact List.count_eq_zero.mpr fun member => differs (keyed name xs found x member)
  induction names with
  | nil => rfl
  | cons name rest ih =>
      rw [List.nodup_cons] at distinct
      have first : ((name :: rest).filterMap g).flatten.count x =
          ((g name).getD []).count x + (rest.filterMap g).flatten.count x := by
        rw [List.filterMap_cons]
        cases g name with
        | none => simp
        | some xs => simp
      rw [first, ih distinct.2]
      by_cases same : key x = name
      · subst same
        rw [if_neg distinct.1, if_pos List.mem_cons_self, Nat.add_zero]
      · rw [other name same, Nat.zero_add]
        simp only [List.mem_cons, same, false_or]

theorem count_mapAttrsToList {γ : Type w} [DecidableEq γ] {key : γ → Name}
    {f : Name → α → List γ} (keyed : ∀ name value, ∀ x ∈ f name value, key x = name)
    (attrs : AttrSet Name α) (x : γ) :
    (attrs.mapAttrsToList f).flatten.count x =
      (((attrs.lookup (key x)).map (f (key x))).getD []).count x := by
  have keyed' : ∀ name xs, (attrs.lookup name).map (f name) = some xs → ∀ x ∈ xs, key x = name := by
    intro name xs found x member
    obtain ⟨value, -, rfl⟩ := Option.map_eq_some_iff.mp found
    exact keyed name value x member
  rw [mapAttrsToList, count_flatten_filterMap keyed' (attrNames_nodup attrs)]
  split
  · rfl
  · rename_i absent
    cases found : attrs.lookup (key x) with
    | none => rfl
    | some value => exact absurd ((mem_attrNames attrs _).mpr ⟨value, found⟩) absent

/-! ## Lookups -/

theorem lookup_update (left right : AttrSet Name α) (name : Name) :
    (left.update right).lookup name = (right.lookup name).or (left.lookup name) := by
  cases found : right.lookup name with
  | none =>
      rw [update, AList.lookup_union_right (AList.lookup_eq_none.mp found), Option.none_or]
  | some value =>
      have member : name ∈ right := by
        rw [← AList.lookup_isSome, found]
        rfl
      rw [update, AList.lookup_union_left member, found, Option.some_or]

theorem lookup_mapAttrs (f : Name → α → β) (attrs : AttrSet Name α) (name : Name) :
    (attrs.mapAttrs f).lookup name = (attrs.lookup name).map (f name) :=
  List.dlookup_map₂ name

omit [LinearOrder Name] in
theorem lookup_filterAttrs [DecidableEq Name] (p : Name → α → Bool) (attrs : AttrSet Name α)
    (name : Name) (value : α) :
    (attrs.filterAttrs p).lookup name = some value ↔
      attrs.lookup name = some value ∧ p name value = true := by
  have entry (set : AttrSet Name α) : set.lookup name = some value ↔
      (⟨name, value⟩ : Σ _ : Name, α) ∈ set.entries := AList.mem_lookup_iff
  rw [entry, entry, filterAttrs, List.mem_filter]

theorem lookup_listToAttrs_cons (pair : Name × α) (rest : List (Name × α)) (name : Name) :
    (listToAttrs (pair :: rest)).lookup name =
      if name = pair.1 then some pair.2 else (listToAttrs rest).lookup name := by
  simp only [listToAttrs, AList.lookup_to_alist, List.map_cons]
  by_cases same : name = pair.1
  · subst name
    simp
  · rw [if_neg same, List.dlookup_cons_ne _ _ same]

/-- The first pair of a name decides. -/
theorem lookup_listToAttrs (pairs : List (Name × α)) (name : Name) :
    (listToAttrs pairs).lookup name = (pairs.find? fun pair => pair.1 = name).map (·.2) := by
  induction pairs with
  | nil => rfl
  | cons pair rest ih =>
      rw [lookup_listToAttrs_cons, List.find?_cons]
      by_cases same : name = pair.1
      · simp [same]
      · rw [if_neg same, ih]
        simp [Ne.symm same]

/-- With pairwise different names, every pair is found. -/
theorem lookup_listToAttrs_of_mem {pairs : List (Name × α)}
    (distinct : (pairs.map (·.1)).Nodup) {name : Name} {value : α}
    (member : (name, value) ∈ pairs) : (listToAttrs pairs).lookup name = some value := by
  induction pairs with
  | nil => simp at member
  | cons pair rest ih =>
      rw [List.map_cons, List.nodup_cons] at distinct
      rw [lookup_listToAttrs_cons]
      rcases List.mem_cons.mp member with rfl | later
      · simp
      · have differs : name ≠ pair.1 := by
          intro same
          exact distinct.1 (same ▸ List.mem_map_of_mem later)
        rw [if_neg differs]
        exact ih distinct.2 later

theorem mem_of_lookup_listToAttrs {pairs : List (Name × α)} {name : Name} {value : α}
    (found : (listToAttrs pairs).lookup name = some value) : (name, value) ∈ pairs := by
  rw [lookup_listToAttrs] at found
  obtain ⟨pair, first, rfl⟩ := Option.map_eq_some_iff.mp found
  have same : pair.1 = name := by simpa using List.find?_some first
  exact same ▸ List.mem_of_find?_eq_some first

theorem lookup_listToAttrs_isSome (pairs : List (Name × α)) (name : Name) :
    (∃ value, (listToAttrs pairs).lookup name = some value) ↔ name ∈ pairs.map (·.1) := by
  rw [lookup_listToAttrs]
  simp only [Option.map_eq_some_iff, List.mem_map]
  constructor
  · rintro ⟨value, pair, found, _⟩
    exact ⟨pair, List.mem_of_find?_eq_some found, by simpa using List.find?_some found⟩
  · rintro ⟨pair, member, same⟩
    have found : (pairs.find? fun pair => pair.1 = name).isSome := by
      rw [List.find?_isSome]
      exact ⟨pair, member, by simpa using same⟩
    obtain ⟨first, found⟩ := Option.isSome_iff_exists.mp found
    exact ⟨first.2, first, found, rfl⟩

theorem lookup_genAttrs_of_mem {names : List Name} (f : Name → α) {name : Name}
    (member : name ∈ names) : (genAttrs names f).lookup name = some (f name) := by
  have listed : name ∈ (names.map fun name => (name, f name)).map (·.1) := by
    rw [List.map_map]
    exact List.mem_map.mpr ⟨name, member, rfl⟩
  obtain ⟨value, found⟩ := (lookup_listToAttrs_isSome _ name).mpr listed
  obtain ⟨other, _, same⟩ := List.mem_map.mp (mem_of_lookup_listToAttrs found)
  cases same
  exact found

theorem exists_lookup_of_not_isEmpty {attrs : AttrSet Name α} (some : attrs.isEmpty = false) :
    ∃ name value, attrs.lookup name = .some value := by
  cases entries : attrs.entries with
  | nil => simp [isEmpty, entries] at some
  | cons entry rest =>
      have member : entry.1 ∈ attrs := by
        rw [AList.mem_keys, AList.keys, entries]
        simp
      obtain ⟨value, found⟩ := Option.isSome_iff_exists.mp (AList.lookup_isSome.mpr member)
      exact ⟨entry.1, value, found⟩

omit [LinearOrder Name] in
/-- Names numbered by their position: `listToAttrs (imap0 …)` over a list
without duplicates, under keys that keep them apart. -/
theorem lookup_numbered {Key : Type u} [LinearOrder Key] {names : List Name}
    (distinct : names.Nodup) (key : Name → Key) (injective : Function.Injective key)
    (f : Nat → Name → α) (i : Nat) (inBounds : i < names.length) :
    (listToAttrs (names.mapIdx fun i name => (key name, f i name))).lookup (key names[i]) =
      some (f i names[i]) := by
  apply lookup_listToAttrs_of_mem
  · have keys : (names.mapIdx fun i name => (key name, f i name)).map (·.1) = names.map key := by
      apply List.ext_getElem <;> simp
    rw [keys]
    exact distinct.map injective
  · rw [List.mem_mapIdx]
    exact ⟨i, inBounds, rfl⟩

end AttrSet

end Nixnas.Logic
