import Mathlib.Data.List.Infix
import Mathlib.Data.List.Nodup

/-!
# Mounting in any order

A table of mounts says what stands at each mount point: a filesystem, or a
directory that is found at another path.  The mounts are made one by one, each
after those above its point and above the directory it binds.  Where a path leads
does not depend on the order.
-/

set_option autoImplicit false

namespace Nixnas.Logic.Namespace

variable {Fs Name : Type}

/-- A directory or file of a filesystem. -/
structure Place (Fs Name : Type) where
  fs : Fs
  path : List Name
  deriving DecidableEq

def Place.below (place : Place Fs Name) (rest : List Name) : Place Fs Name :=
  { place with path := place.path ++ rest }

inductive Source (Fs Name : Type) where
  | device (fs : Fs)
  | bind (path : List Name)
  deriving DecidableEq

/-- The directory that is bound. -/
def Source.bound : Source Fs Name → Option (List Name)
  | .device _ => none
  | .bind path => some path

variable [DecidableEq Name] {α : Type}

/-! ## The deepest point above a path -/

/-- The entry with the deepest point above the path, the last of them. -/
def owner : List (List Name × α) → List Name → Option (List Name × α)
  | [], _ => none
  | entry :: rest, path =>
      match owner rest path with
      | none => if entry.1.isPrefixOf path then some entry else none
      | some other =>
          if entry.1.isPrefixOf path ∧ other.1.length < entry.1.length then some entry else some other

theorem owner_above {table : List (List Name × α)} {path : List Name} {entry : List Name × α}
    (owns : owner table path = some entry) : entry ∈ table ∧ entry.1 <+: path := by
  induction table generalizing entry with
  | nil => cases owns
  | cons first rest ih =>
      unfold owner at owns
      cases deeper : owner rest path with
      | none =>
          rw [deeper] at owns
          dsimp only at owns
          split at owns
          · rename_i above
            rw [← Option.some.inj owns]
            exact ⟨List.mem_cons_self, List.isPrefixOf_iff_prefix.mp above⟩
          · cases owns
      | some other =>
          rw [deeper] at owns
          dsimp only at owns
          split at owns
          · rename_i above
            rw [← Option.some.inj owns]
            exact ⟨List.mem_cons_self, List.isPrefixOf_iff_prefix.mp above.1⟩
          · obtain ⟨member, above⟩ := ih (deeper.trans owns)
            exact ⟨List.mem_cons_of_mem _ member, above⟩

theorem exists_owner {table : List (List Name × α)} {path : List Name} {entry : List Name × α}
    (member : entry ∈ table) (above : entry.1 <+: path) :
    ∃ owning, owner table path = some owning ∧ entry.1.length ≤ owning.1.length := by
  induction table with
  | nil => cases member
  | cons first rest ih =>
      unfold owner
      rcases List.mem_cons.mp member with rfl | later
      · have isAbove := List.isPrefixOf_iff_prefix.mpr above
        cases deeper : owner rest path with
        | none => exact ⟨entry, if_pos isAbove, le_rfl⟩
        | some other =>
            dsimp only
            by_cases less : other.1.length < entry.1.length
            · exact ⟨entry, if_pos ⟨isAbove, less⟩, le_rfl⟩
            · exact ⟨other, if_neg fun both => less both.2, not_lt.mp less⟩
      · obtain ⟨other, owns, deeper⟩ := ih later
        rw [owns]
        dsimp only
        split
        · rename_i both
          exact ⟨first, rfl, deeper.trans both.2.le⟩
        · exact ⟨other, rfl, deeper⟩

/-- The owner stands above the path, and no other point above it is deeper. -/
theorem owner_deepest {table : List (List Name × α)} {path : List Name} {entry other : List Name × α}
    (owns : owner table path = some entry) (member : other ∈ table) (above : other.1 <+: path) :
    other.1 <+: entry.1 := by
  obtain ⟨owning, same, deeper⟩ := exists_owner member above
  cases same.symm.trans owns
  exact List.prefix_of_prefix_length_le above (owner_above owns).2 deeper

omit [DecidableEq Name] in
theorem eq_of_points {table : List (List Name × α)} (once : (table.map Prod.fst).Nodup)
    {entry other : List Name × α} (member : entry ∈ table) (isOther : other ∈ table)
    (same : entry.1 = other.1) : entry = other :=
  List.inj_on_of_nodup_map once member isOther same

/-- In a table with one entry a point, what stands above the path and below all
others above it is the owner. -/
theorem owner_eq_some_iff {table : List (List Name × α)} (once : (table.map Prod.fst).Nodup)
    {path : List Name} {entry : List Name × α} :
    owner table path = some entry ↔ entry ∈ table ∧ entry.1 <+: path ∧
      ∀ other ∈ table, other.1 <+: path → other.1 <+: entry.1 := by
  constructor
  · intro owns
    obtain ⟨member, above⟩ := owner_above owns
    exact ⟨member, above, fun other isOther => owner_deepest owns isOther⟩
  · rintro ⟨member, above, deepest⟩
    obtain ⟨owning, owns, deeper⟩ := exists_owner member above
    obtain ⟨isOwner, owningAbove⟩ := owner_above owns
    have same : entry.1 = owning.1 :=
      ((deepest owning isOwner owningAbove).eq_of_length_le deeper).symm
    rw [owns, eq_of_points once member isOwner same]

/-! ## Where a path leads -/

/-- Where a path leads by the table: to a place below that of its owner. -/
inductive Located (table : List (List Name × Source Fs Name)) : List Name → Place Fs Name → Prop where
  | device {path point : List Name} {fs : Fs} (owns : owner table path = some (point, .device fs)) :
      Located table path ⟨fs, path.drop point.length⟩
  | bind {path point source : List Name} {place : Place Fs Name}
      (owns : owner table path = some (point, .bind source)) (found : Located table source place) :
      Located table path (place.below (path.drop point.length))

theorem Located.unique {table : List (List Name × Source Fs Name)} {path : List Name}
    {place other : Place Fs Name} (located : Located table path place)
    (otherwise : Located table path other) : place = other := by
  induction located generalizing other with
  | device owns =>
      cases otherwise with
      | device owns' =>
          rw [owns] at owns'
          cases owns'
          rfl
      | bind owns' _ =>
          rw [owns] at owns'
          cases owns'
  | bind owns _ ih =>
      cases otherwise with
      | device owns' =>
          rw [owns] at owns'
          cases owns'
      | bind owns' found =>
          rw [owns] at owns'
          cases owns'
          rw [ih found]

/-- A path leads to a place below that of the point above it. -/
theorem Located.descend {table : List (List Name × Source Fs Name)}
    (once : (table.map Prod.fst).Nodup) {point path : List Name} {source : Source Fs Name}
    {place : Place Fs Name} (owns : owner table path = some (point, source))
    (located : Located table point place) :
    Located table path (place.below (path.drop point.length)) := by
  obtain ⟨member, above⟩ := owner_above owns
  have self : owner table point = some (point, source) := by
    rw [owner_eq_some_iff once]
    exact ⟨member, List.prefix_rfl, fun _ _ below => below⟩
  cases located with
  | device owns' =>
      cases self.symm.trans owns'
      have leads := Located.device owns
      simpa [Place.below] using leads
  | bind owns' found =>
      cases self.symm.trans owns'
      have leads := Located.bind owns found
      simpa [Place.below] using leads

/-! ## Tables without nesting in binds -/

/-- Nothing is mounted inside a directory that is bound, on either side, nor is it
bound again.  What is mounted later then shows in no other place, whether or not
mounts are passed on between the two sides of a bind. -/
structure Flat (table : List (List Name × Source Fs Name)) : Prop where
  once : (table.map Prod.fst).Nodup
  leaf : ∀ entry ∈ table, entry.2.bound.isSome → ∀ other ∈ table, entry.1 <+: other.1 →
    other.1 = entry.1
  whole : ∀ entry ∈ table, ∀ source ∈ entry.2.bound, ∀ other ∈ table, source <+: other.1 →
    other.1 = source
  direct : ∀ entry ∈ table, ∀ source ∈ entry.2.bound, ∀ other ∈ table, other.2.bound.isSome →
    ¬ other.1 <+: source

instance (table : List (List Name × Source Fs Name)) : Decidable (Flat table) :=
  decidable_of_iff
    ((table.map Prod.fst).Nodup ∧
      (∀ entry ∈ table, entry.2.bound.isSome → ∀ other ∈ table, entry.1 <+: other.1 →
        other.1 = entry.1) ∧
      (∀ entry ∈ table, ∀ source ∈ entry.2.bound, ∀ other ∈ table, source <+: other.1 →
        other.1 = source) ∧
      ∀ entry ∈ table, ∀ source ∈ entry.2.bound, ∀ other ∈ table, other.2.bound.isSome →
        ¬ other.1 <+: source)
    ⟨fun all => ⟨all.1, all.2.1, all.2.2.1, all.2.2.2⟩,
      fun flat => ⟨flat.once, flat.leaf, flat.whole, flat.direct⟩⟩

/-- Where a path leads when no bind is of something bound. -/
def target (table : List (List Name × Source Fs Name)) (path : List Name) : Option (Place Fs Name) :=
  match owner table path with
  | none => none
  | some (point, .device fs) => some ⟨fs, path.drop point.length⟩
  | some (point, .bind source) =>
      match owner table source with
      | some (above, .device fs) =>
          some ⟨fs, source.drop above.length ++ path.drop point.length⟩
      | _ => none

theorem target_located {table : List (List Name × Source Fs Name)} {path : List Name}
    {place : Place Fs Name} (leads : target table path = some place) : Located table path place := by
  unfold target at leads
  cases owns : owner table path with
  | none =>
      rw [owns] at leads
      cases leads
  | some entry =>
      obtain ⟨point, source⟩ := entry
      rw [owns] at leads
      cases source with
      | device fs =>
          rw [← Option.some.inj leads]
          exact .device owns
      | bind source =>
          dsimp only at leads
          split at leads
          · rename_i above fs ownsSource
            rw [← Option.some.inj leads]
            exact .bind owns (.device ownsSource)
          · cases leads

/-! ## Mounting -/

/-- What the points that are mounted show. -/
abbrev Mounts (Fs Name : Type) := List (List Name × Place Fs Name)

def resolve (mounted : Mounts Fs Name) (path : List Name) : Option (Place Fs Name) :=
  (owner mounted path).map fun entry => entry.2.below (path.drop entry.1.length)

/-- Every point above the path is mounted. -/
def Ready (table : List (List Name × Source Fs Name)) (mounted : Mounts Fs Name)
    (path : List Name) : Prop :=
  ∀ entry ∈ table, entry.1 <+: path → entry.1 ∈ mounted.map Prod.fst

/-- Every point above this one is mounted. -/
def Clear (table : List (List Name × Source Fs Name)) (mounted : Mounts Fs Name)
    (point : List Name) : Prop :=
  ∀ entry ∈ table, entry.1 <+: point → entry.1 ≠ point → entry.1 ∈ mounted.map Prod.fst

instance (table : List (List Name × Source Fs Name)) (mounted : Mounts Fs Name)
    (path : List Name) : Decidable (Ready table mounted path) :=
  inferInstanceAs (Decidable (∀ entry ∈ table, _ → _))

instance (table : List (List Name × Source Fs Name)) (mounted : Mounts Fs Name)
    (point : List Name) : Decidable (Clear table mounted point) :=
  inferInstanceAs (Decidable (∀ entry ∈ table, _ → _ → _))

/-- What a mount from the source would show now. -/
def Source.shows (table : List (List Name × Source Fs Name)) (mounted : Mounts Fs Name) :
    Source Fs Name → Option (Place Fs Name)
  | .device fs => some ⟨fs, []⟩
  | .bind path => if Ready table mounted path then resolve mounted path else none

/-- Mount the point of an entry, after everything that it stands on. -/
def mount (table : List (List Name × Source Fs Name)) (mounted : Mounts Fs Name)
    (entry : List Name × Source Fs Name) : Option (Mounts Fs Name) :=
  if entry.1 ∉ mounted.map Prod.fst ∧ Clear table mounted entry.1 then
    (entry.2.shows table mounted).map fun place => (entry.1, place) :: mounted
  else none

omit [DecidableEq Name] in
theorem Ready.cons {table : List (List Name × Source Fs Name)} {mounted : Mounts Fs Name}
    {path : List Name} (ready : Ready table mounted path) (entry : List Name × Place Fs Name) :
    Ready table (entry :: mounted) path := by
  intro other member above
  rw [List.map_cons]
  exact List.mem_cons_of_mem _ (ready other member above)

theorem Ready.mount {table : List (List Name × Source Fs Name)} {mounted next : Mounts Fs Name}
    {path : List Name} (ready : Ready table mounted path) {entry : List Name × Source Fs Name}
    (made : Namespace.mount table mounted entry = some next) : Ready table next path := by
  unfold Namespace.mount at made
  split at made
  · obtain ⟨place, -, rfl⟩ := Option.map_eq_some_iff.mp made
    exact ready.cons (entry.1, place)
  · cases made

/-- Each mount shows what its point leads to. -/
structure Sound (table : List (List Name × Source Fs Name)) (mounted : Mounts Fs Name) : Prop where
  points : ∀ entry ∈ mounted, entry.1 ∈ table.map Prod.fst
  located : ∀ entry ∈ mounted, Located table entry.1 entry.2

section Runs

variable {table : List (List Name × Source Fs Name)} {mounted : Mounts Fs Name} {path : List Name}
  {place : Place Fs Name}

theorem sound_nil : Sound table ([] : Mounts Fs Name) where
  points _ member := by cases member
  located _ member := by cases member

/-- Once everything above a path is mounted, the owner is the table's. -/
theorem Sound.owner (sound : Sound table mounted) (once : (table.map Prod.fst).Nodup)
    (ready : Ready table mounted path) {entry : List Name × Place Fs Name}
    (owns : Namespace.owner mounted path = some entry) :
    ∃ source, Namespace.owner table path = some (entry.1, source) := by
  obtain ⟨member, above⟩ := owner_above owns
  obtain ⟨⟨point, source⟩, isEntry, same⟩ := List.mem_map.mp (sound.points entry member)
  dsimp only at same
  subst same
  refine ⟨source, (owner_eq_some_iff once).mpr ⟨isEntry, above, ?_⟩⟩
  intro other isOther otherAbove
  obtain ⟨shown, isShown, same⟩ := List.mem_map.mp (ready other isOther otherAbove)
  rw [← same] at otherAbove ⊢
  exact owner_deepest owns isShown otherAbove

theorem Sound.resolve_located (sound : Sound table mounted) (once : (table.map Prod.fst).Nodup)
    (ready : Ready table mounted path) (found : resolve mounted path = some place) :
    Located table path place := by
  obtain ⟨entry, owns, rfl⟩ := Option.map_eq_some_iff.mp found
  obtain ⟨source, owner⟩ := sound.owner once ready owns
  exact Located.descend once owner (sound.located entry (owner_above owns).1)

/-- In whatever order the mounts were made, a path leads where the table says. -/
theorem Sound.resolve_eq (sound : Sound table mounted) (once : (table.map Prod.fst).Nodup)
    (ready : Ready table mounted path) (located : Located table path place) :
    resolve mounted path = some place := by
  have above : ∃ entry ∈ table, entry.1 <+: path := by
    cases located with
    | device owns => exact ⟨_, owner_above owns⟩
    | bind owns _ => exact ⟨_, owner_above owns⟩
  obtain ⟨entry, member, above⟩ := above
  obtain ⟨shown, isShown, same⟩ := List.mem_map.mp (ready entry member above)
  obtain ⟨owning, owns, _⟩ := exists_owner isShown (same ▸ above)
  have found : resolve mounted path = some (owning.2.below (path.drop owning.1.length)) := by
    rw [resolve, owns]
    rfl
  rw [found, (sound.resolve_located once ready found).unique located]

theorem Sound.mount (sound : Sound table mounted) (once : (table.map Prod.fst).Nodup)
    {entry : List Name × Source Fs Name} (member : entry ∈ table) {next : Mounts Fs Name}
    (made : Namespace.mount table mounted entry = some next) : Sound table next := by
  unfold Namespace.mount at made
  split at made
  · obtain ⟨place, shows, rfl⟩ := Option.map_eq_some_iff.mp made
    have self : Namespace.owner table entry.1 = some entry := by
      rw [owner_eq_some_iff once]
      exact ⟨member, List.prefix_rfl, fun _ _ above => above⟩
    have located : Located table entry.1 place := by
      obtain ⟨point, source⟩ := entry
      cases source with
      | device fs =>
          rw [← Option.some.inj shows]
          simpa using Located.device self
      | bind path =>
          simp only [Source.shows] at shows
          split at shows
          · rename_i ready
            have leads := Located.bind self (sound.resolve_located once ready shows)
            simpa [Place.below] using leads
          · cases shows
    constructor
    · intro other isOther
      rcases List.mem_cons.mp isOther with rfl | earlier
      · exact List.mem_map_of_mem member
      · exact sound.points other earlier
    · intro other isOther
      rcases List.mem_cons.mp isOther with rfl | earlier
      · exact located
      · exact sound.located other earlier
  · cases made

end Runs

end Nixnas.Logic.Namespace
