import Mathlib.Logic.Function.Basic

/-!
# Users of a cursor

What an access of a cursor answers is decided by the position it finds, and
leads to the next position.  Users that each have a position of their own cannot
notice each other, in whatever order they take turns.  Users that share one do
not notice each other exactly when every access finds what it would have found
at the place where the user was left.
-/

set_option autoImplicit false

namespace Nixnas.Logic

universe u v w x

/-- The part of one user in what all of them contributed to. -/
def partOf {User : Type u} {Entry : Type v} [DecidableEq User] (user : User)
    (entries : List (User × Entry)) : List Entry :=
  entries.filterMap fun entry => if entry.1 = user then some entry.2 else none

/-- What is seen of an access at a position tells where it leads. -/
structure Cursor (Position : Type v) (Access : Type w) (Seen : Type x) where
  look : Position → Access → Seen
  leads : Seen → Position

section PartOf

variable {User : Type u} {Entry : Type v} [DecidableEq User]

@[simp] theorem partOf_cons_self (user : User) (entry : Entry) (rest : List (User × Entry)) :
    partOf user ((user, entry) :: rest) = entry :: partOf user rest := by
  simp [partOf]

theorem partOf_cons_other {user other : User} (differs : other ≠ user) (entry : Entry)
    (rest : List (User × Entry)) : partOf user ((other, entry) :: rest) = partOf user rest := by
  simp [partOf, differs]

end PartOf

namespace Cursor

variable {User : Type u} {Position : Type v} {Access : Type w} {Seen : Type x} [DecidableEq User]
variable (cursor : Cursor Position Access Seen)

/-- The run of a single user. -/
def alone : Position → List Access → List Seen
  | _, [] => []
  | position, access :: rest =>
      let seen := cursor.look position access
      seen :: alone (cursor.leads seen) rest

/-- Where it ends. -/
def after : Position → List Access → Position
  | position, [] => position
  | position, access :: rest => after (cursor.leads (cursor.look position access)) rest

/-- Every user has its own position. -/
def apart : (User → Position) → List (User × Access) → List (User × Seen)
  | _, [] => []
  | positions, (user, access) :: rest =>
      let seen := cursor.look (positions user) access
      (user, seen) :: apart (Function.update positions user (cursor.leads seen)) rest

/-- All users have one position. -/
def shared : Position → List (User × Access) → List (User × Seen)
  | _, [] => []
  | position, (user, access) :: rest =>
      let seen := cursor.look position access
      (user, seen) :: shared (cursor.leads seen) rest

/-- Every access of the users of one position finds what it would find where its user
was left. -/
def Unmoved : (User → Position) → Position → List (User × Access) → Prop
  | _, _, [] => True
  | left, position, (user, access) :: rest =>
      let seen := cursor.look position access
      seen = cursor.look (left user) access ∧
        Unmoved (Function.update left user (cursor.leads seen)) (cursor.leads seen) rest

theorem partOf_apart (user : User) (positions : User → Position) (accesses : List (User × Access)) :
    partOf user (cursor.apart positions accesses) =
      cursor.alone (positions user) (partOf user accesses) := by
  induction accesses generalizing positions with
  | nil => rfl
  | cons entry rest ih =>
      obtain ⟨other, access⟩ := entry
      simp only [apart]
      by_cases same : other = user
      · subst same
        rw [partOf_cons_self, partOf_cons_self, ih, Function.update_self]
        rfl
      · rw [partOf_cons_other same, partOf_cons_other same, ih,
          Function.update_of_ne fun is => same is.symm]

theorem partOf_shared_iff (left : User → Position) (position : Position)
    (accesses : List (User × Access)) :
    (∀ user, partOf user (cursor.shared position accesses) =
        cursor.alone (left user) (partOf user accesses)) ↔
      cursor.Unmoved left position accesses := by
  induction accesses generalizing left position with
  | nil => exact ⟨fun _ => trivial, fun _ _ => rfl⟩
  | cons entry rest ih =>
      obtain ⟨user, access⟩ := entry
      simp only [shared, Unmoved, ← ih]
      constructor
      · intro same
        have here := same user
        rw [partOf_cons_self, partOf_cons_self, alone, List.cons.injEq] at here
        refine ⟨here.1, fun other => ?_⟩
        by_cases is : other = user
        · subst is
          rw [Function.update_self, here.2, here.1]
        · have there := same other
          rw [partOf_cons_other fun eq => is eq.symm, partOf_cons_other fun eq => is eq.symm] at there
          rw [Function.update_of_ne is, there]
      · rintro ⟨found, same⟩ other
        by_cases is : other = user
        · subst is
          have here := same other
          rw [Function.update_self] at here
          rw [partOf_cons_self, partOf_cons_self, alone, here, found]
        · have there := same other
          rw [Function.update_of_ne is] at there
          rw [partOf_cons_other fun eq => is eq.symm, partOf_cons_other fun eq => is eq.symm, there]

end Cursor

end Nixnas.Logic
