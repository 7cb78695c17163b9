import Mathlib.Data.Set.Basic
import Mathlib.Data.List.Infix

/-!
# Mounts

A mount table places each of its mount points at a path of names.  A path is
backed by the points that stand deepest above it.
-/

set_option autoImplicit false

namespace Nixnas.Logic.Mounts

variable {Point Name : Type} (placed : Point → List Name) (mounted : Set Point)

/-- The point stands at the path or above it. -/
def Above (path : List Name) (point : Point) : Prop :=
  point ∈ mounted ∧ placed point <+: path

/-- The point is one of the longest prefixes of the path. -/
structure Backs (path : List Name) (point : Point) : Prop where
  above : Above placed mounted path point
  deepest : ∀ other, Above placed mounted path other →
    (placed other).length ≤ (placed point).length

/-- A point above the path that is not good, with every good one above it. -/
structure Shadows (good : Point → Prop) (path : List Name) (point : Point) : Prop where
  above : Above placed mounted path point
  bad : ¬ good point
  covers : ∀ other, Above placed mounted path other → good other → placed other <+: placed point

variable {placed mounted} {path : List Name} {point : Point}

/-- A point that backs the path is among those at least as deep as any given one:
the depth still to go gets less with every deeper point. -/
theorem exists_backs (above : Above placed mounted path point) :
    ∃ backing, Backs placed mounted path backing := by
  induction left : path.length - (placed point).length using Nat.strong_induction_on
    generalizing point with
  | _ n ih =>
      by_cases deeper : ∃ other, Above placed mounted path other ∧
          (placed point).length < (placed other).length
      · obtain ⟨other, aboveOther, longer⟩ := deeper
        have inside := aboveOther.2.length_le
        exact ih (path.length - (placed other).length) (by omega) aboveOther rfl
      · refine ⟨point, above, ?_⟩
        intro other aboveOther
        by_contra longer
        exact deeper ⟨other, aboveOther, by omega⟩

/-- All points that back a path are good exactly when none shadows it. -/
theorem backs_good_iff (good : Point → Prop) :
    (∀ backing, Backs placed mounted path backing → good backing) ↔
      ∀ point, ¬ Shadows placed mounted good path point := by
  constructor
  · intro allGood point shadows
    obtain ⟨backing, backs⟩ := exists_backs shadows.above
    have above := shadows.covers backing backs.above (allGood backing backs)
    apply shadows.bad
    apply allGood
    refine ⟨shadows.above, ?_⟩
    intro other aboveOther
    have below := backs.deepest other aboveOther
    have shorter := above.length_le
    omega
  · intro unshadowed backing backs
    by_contra bad
    apply unshadowed backing
    refine ⟨backs.above, bad, ?_⟩
    intro other aboveOther _
    exact List.prefix_of_prefix_length_le aboveOther.2 backs.above.2
      (backs.deepest other aboveOther)

end Nixnas.Logic.Mounts
