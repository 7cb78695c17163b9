import Mathlib.Logic.Function.Basic

/-!
# What outlives a stop

Files as they are seen and as they are kept.  A write is seen at once and kept
when it is written back, which happens at any time and for each file by itself;
a stop leaves what is kept at the lasting places, and nothing at the others.
-/

set_option autoImplicit false

namespace Nixnas.Logic.Writeback

variable {Place Content : Type} [DecidableEq Place]

structure Store (Place Content : Type) where
  seen : Place → Option Content
  kept : Place → Option Content

namespace Store

/-- A file is written, or removed. -/
def write (store : Store Place Content) (place : Place) (content : Option Content) :
    Store Place Content :=
  { store with seen := Function.update store.seen place content }

def flush (store : Store Place Content) (place : Place) : Store Place Content :=
  { store with kept := Function.update store.kept place (store.seen place) }

omit [DecidableEq Place] in
def stop (lasting : Place → Bool) (store : Store Place Content) : Store Place Content :=
  { store with seen := fun place => if lasting place then store.kept place else none }

/-- What is seen at the place is kept there. -/
def Safe (store : Store Place Content) (place : Place) (content : Option Content) : Prop :=
  store.seen place = content ∧ store.kept place = content

variable {store : Store Place Content} {place other : Place} {content value : Option Content}

@[simp] theorem seen_write : (store.write place content).seen place = content :=
  Function.update_self _ _ _

theorem seen_write_other (apart : place ≠ other) :
    (store.write other value).seen place = store.seen place :=
  Function.update_of_ne apart _ _

@[simp] theorem kept_flush : (store.flush place).kept place = store.seen place :=
  Function.update_self _ _ _

theorem kept_flush_other (apart : place ≠ other) :
    (store.flush other).kept place = store.kept place :=
  Function.update_of_ne apart _ _

theorem flush_safe (seen : store.seen place = content) : (store.flush place).Safe place content :=
  ⟨seen, kept_flush.trans seen⟩

theorem Safe.write (safe : store.Safe place content) (apart : place ≠ other) :
    (store.write other value).Safe place content :=
  ⟨(seen_write_other apart).trans safe.1, safe.2⟩

theorem Safe.flush (safe : store.Safe place content) : (store.flush other).Safe place content := by
  refine ⟨safe.1, ?_⟩
  by_cases same : place = other
  · subst same
    exact (flush_safe safe.1).2
  · exact (kept_flush_other same).trans safe.2

omit [DecidableEq Place] in
theorem Safe.stop {lasting : Place → Bool} (safe : store.Safe place content)
    (lasts : lasting place = true) : (store.stop lasting).Safe place content := by
  refine ⟨?_, safe.2⟩
  rw [Store.stop, ← safe.2]
  exact if_pos lasts

omit [DecidableEq Place] in
theorem stop_gone {lasting : Place → Bool} (volatile : lasting place = false) :
    (store.stop lasting).seen place = none := by
  rw [stop]
  exact if_neg (by rw [volatile]; exact Bool.false_ne_true)

end Store

end Nixnas.Logic.Writeback
