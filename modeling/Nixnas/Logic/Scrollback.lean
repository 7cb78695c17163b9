import Mathlib.Data.List.DropRight
import Mathlib.Data.List.Infix

/-!
# Logs read through a window

A log that lines are appended to and whose oldest lines are given up, and a
reader who either follows the newest lines or has a line of the log at the top
of the window.  Lines are counted from the first one ever appended, so that a
place in the log is the same place after lines were given up.
-/

set_option autoImplicit false

namespace Nixnas.Logic

universe u

/-- Everything appended so far, of which the first `oldest` lines are given up. -/
structure Scrollback (α : Type u) where
  history : List α
  oldest : Nat
  /-- The line at the top of the window. -/
  top : Nat
  follow : Bool
  held : oldest ≤ history.length
  below : oldest ≤ top

namespace Scrollback

variable {α : Type u}

def kept (log : Scrollback α) : List α := log.history.drop log.oldest

def window (log : Scrollback α) (height : Nat) : List α := (log.history.drop log.top).take height

def append (log : Scrollback α) (lines : List α) : Scrollback α where
  history := log.history ++ lines
  oldest := log.oldest
  top := log.top
  follow := log.follow
  held := by
    have held := log.held
    simp only [List.length_append]
    omega
  below := log.below

/-- Give up all but the newest lines. -/
def forget (log : Scrollback α) (newest : Nat) : Scrollback α where
  history := log.history
  oldest := max log.oldest (log.history.length - newest)
  top := max log.top (log.history.length - newest)
  follow := log.follow
  held := by
    have held := log.held
    omega
  below := by
    have below := log.below
    omega

/-- Give up lines once there are more than `most` of them. -/
def bound (log : Scrollback α) (most newest : Nat) : Scrollback α :=
  if log.kept.length > most then log.forget newest else log

def up (log : Scrollback α) (lines : Nat) : Scrollback α :=
  { log with
    top := max log.oldest (log.top - lines)
    follow := false
    below := by omega }

def down (log : Scrollback α) (lines : Nat) : Scrollback α :=
  { log with
    top := log.top + lines
    below := by
      have below := log.below
      omega }

def tail (log : Scrollback α) : Scrollback α := { log with follow := true }

/-- The window is put where the reader is, and no further down than it must be
to be full. -/
def draw (log : Scrollback α) (height : Nat) : Scrollback α :=
  { log with
    top := max log.oldest
      (if log.follow then log.history.length - height
        else min log.top (log.history.length - height))
    below := by omega }

theorem kept_length (log : Scrollback α) :
    log.kept.length = log.history.length - log.oldest := List.length_drop

@[simp] theorem append_kept (log : Scrollback α) (lines : List α) :
    (log.append lines).kept = log.kept ++ lines :=
  List.drop_append_of_le_length log.held

/-! ## What is kept -/

/-- All of the history is kept, or at least its `newest` lines. -/
def Recent (log : Scrollback α) (newest : Nat) : Prop :=
  log.oldest = 0 ∨ newest ≤ log.kept.length

theorem recent_append {log : Scrollback α} {newest : Nat} (before : log.Recent newest)
    (lines : List α) : (log.append lines).Recent newest := by
  rcases before with all | many
  · exact .inl all
  · refine .inr ?_
    rw [append_kept, List.length_append]
    omega

theorem bound_length {log : Scrollback α} {most newest : Nat} (less : newest ≤ most) :
    (log.bound most newest).kept.length ≤ most := by
  rw [bound]
  split
  · rw [kept_length, forget]
    simp only
    omega
  · omega

theorem recent_bound {log : Scrollback α} {most newest : Nat} (before : log.Recent newest)
    (less : newest ≤ most) : (log.bound most newest).Recent newest := by
  rw [bound]
  split
  next many =>
    refine .inr ?_
    rw [kept_length] at many ⊢
    simp only [forget]
    omega
  next => exact before

theorem bound_history (log : Scrollback α) (most newest : Nat) :
    (log.bound most newest).history = log.history := by
  rw [bound]
  split <;> rfl

/-! ## What the window shows -/

/-- A reader who follows sees the newest lines. -/
theorem following_window {log : Scrollback α} (following : log.follow = true) (height : Nat) :
    (log.draw height).window height = log.kept.rtake height := by
  have held := log.held
  have position : (log.draw height).top = log.oldest + (log.kept.length - height) := by
    rw [kept_length]
    simp only [draw, following, if_true]
    omega
  have enough : (log.kept.drop (log.kept.length - height)).length ≤ height := by
    rw [List.length_drop]
    omega
  rw [window, position, List.rtake, ← List.drop_drop]
  exact List.take_of_length_le enough

/-- A window of this height is no further down than it must be. -/
def Settled (log : Scrollback α) (height : Nat) : Prop :=
  log.top ≤ max log.oldest (log.history.length - height)

theorem draw_settled (log : Scrollback α) (height : Nat) : (log.draw height).Settled height := by
  simp only [Settled, draw]
  split <;> omega

/-- The reader is still at the same line, or at the oldest one if it is given up. -/
structure Still (log later : Scrollback α) : Prop where
  history : log.history <+: later.history
  follow : later.follow = log.follow
  further : log.oldest ≤ later.oldest
  top : later.top = max log.top later.oldest

theorem Still.refl (log : Scrollback α) : Still log log :=
  ⟨List.prefix_rfl, rfl, Nat.le_refl _, (max_eq_left log.below).symm⟩

theorem Still.trans {log middle later : Scrollback α} (first : Still log middle)
    (second : Still middle later) : Still log later where
  history := first.history.trans second.history
  follow := second.follow.trans first.follow
  further := first.further.trans second.further
  top := by
    have further := second.further
    rw [second.top, first.top]
    omega

theorem Still.settled {log later : Scrollback α} {height : Nat} (still : Still log later)
    (settled : log.Settled height) : later.Settled height := by
  have longer := still.history.length_le
  have further := still.further
  rw [Settled] at settled ⊢
  rw [still.top]
  omega

theorem still_append (log : Scrollback α) (lines : List α) : Still log (log.append lines) where
  history := List.prefix_append _ _
  follow := rfl
  further := Nat.le_refl _
  top := (max_eq_left log.below).symm

theorem still_bound (log : Scrollback α) (most newest : Nat) :
    Still log (log.bound most newest) := by
  rw [bound]
  split
  next =>
    have below := log.below
    refine ⟨List.prefix_rfl, rfl, ?_, ?_⟩
    · simp only [forget]
      omega
    · simp only [forget]
      omega
  next => exact Still.refl log

theorem still_draw {log : Scrollback α} {height : Nat} (settled : log.Settled height)
    (reading : log.follow = false) : Still log (log.draw height) where
  history := List.prefix_rfl
  follow := rfl
  further := Nat.le_refl _
  top := by
    have below := log.below
    rw [Settled] at settled
    simp only [draw, reading, Bool.false_eq_true, if_false]
    omega

/-- The window of a reader whose line is kept only gains lines. -/
theorem Still.window_grows {log later : Scrollback α} (still : Still log later)
    (kept : later.oldest ≤ log.top) (height : Nat) :
    log.window height <+: later.window height := by
  have same : later.top = log.top := still.top.trans (max_eq_left kept)
  obtain ⟨lines, history⟩ := still.history
  have dropped : log.history.drop log.top <+: later.history.drop later.top := by
    rw [← history, same, List.drop_append]
    exact List.prefix_append _ _
  exact List.IsPrefix.take dropped height

end Scrollback

end Nixnas.Logic
