import Nixnas.Logic.Total
import Nixnas.Tui.FlashFrame

/-!
# What the grow writes to the device

The answers of the environment, by the time of the operation, decide how far a
grow comes.  A command takes two operations, its start and the wait for its end:
from operation `n` on come `sgdisk -p`, `sgdisk --info`, the move of the backup
header and the recreation of the partition.
-/

set_option autoImplicit false

namespace Nixnas.Tui.Flash

open Nixnas.Logic Nixnas.Logic.Action
open Nixnas.Rust
open Nixnas.Tui.Sudo

/-! ## How far a grow comes -/

/-- What comes back from a command that is started at operation `n`. -/
def captured (env : Env) (n : Nat) : Option Output :=
  if (env.reply n).error.isNone ∧ (env.reply (n + 1)).error.isNone then
    some (env.reply (n + 1)).output
  else none

/-- The partition that `sgdisk -p` lists last. -/
def listedLast (env : Env) (n : Nat) : Option Nat :=
  (captured env n).bind fun out =>
    if out.success then (partitionNumbers out.stdout).max? else none

/-- What `sgdisk --info` tells of it. -/
def toldInfo (env : Env) (n : Nat) : Option PartInfo :=
  (captured env n).bind fun out => if out.success then (parseInfo out.stdout).toOption else none

/-- A grow from operation `n` on starts `sgdisk --move-second-header`. -/
def Moves (env : Env) (n : Nat) : Prop :=
  (listedLast env n).isSome = true ∧ (toldInfo env (n + 2)).isSome = true ∧
    (env.reply (n + 4)).error = none

instance (env : Env) (n : Nat) : Decidable (Moves env n) :=
  inferInstanceAs (Decidable (_ ∧ _ ∧ _))

/-- A command that is started at operation `n` ends with success. -/
def Succeeds (env : Env) (n : Nat) : Prop := ∃ out, captured env n = some out ∧ out.success = true

/-! ## One command -/

section Commands

variable {env : Env} {n : Nat} {dev : String} {medium : Bytes}

/-- Operation `n` is next, and the device holds `medium`. -/
def Poised (dev : String) (n : Nat) (medium : Bytes) (w : FlashWorld) : Prop :=
  w.clock = n ∧ w.devices dev = medium

theorem started_answers (argv : List String) :
    Spec (Poised dev n medium)
      (ioContext ("running " ++ unwords argv) (ask env fun _ => ()) : Step FlashEvent Unit)
      (.onReturn (fun _ w => Poised dev (n + 1) medium w ∧ (env.reply n).error = none)
        fun _ w => w.devices dev = medium ∧ (env.reply n).error ≠ none) := by
  apply Spec.mapError
  apply call_spec fun _ _ => trivial
  rintro w ⟨rfl, held⟩
  cases failed : (env.reply w.clock).error with
  | none => exact ⟨⟨rfl, held⟩, rfl⟩
  | some e => exact ⟨held, fun impossible => by cases impossible⟩

/-- A command that writes to no device. -/
theorem readOnly_answers (argv : List String) :
    Spec (Poised dev n medium) (runCaptured env argv readOnly : Step FlashEvent Output)
      (.onReturn (fun out w => Poised dev (n + 2) medium w ∧ captured env n = some out)
        fun _ w => w.devices dev = medium ∧ captured env n = none) := by
  apply Spec.bind fun _ w => Poised dev (n + 1) medium w ∧ (env.reply n).error = none
  · refine (started_answers argv).weaken (fun _ poised => poised) (fun _ _ poised => poised) ?_
      fun _ _ => trivial
    intro e w failed
    exact ⟨failed.1, if_neg fun both => failed.2 (Option.isNone_iff_eq_none.mp both.1)⟩
  · intro _
    apply Spec.mapError
    apply call_spec fun _ _ => trivial
    rintro w ⟨⟨clock, held⟩, started⟩
    cases failed : (env.reply w.clock).error with
    | none =>
        simp only [readOnly]
        rw [clock] at failed
        refine ⟨⟨congrArg (· + 1) clock, held⟩, ?_⟩
        rw [captured, started, failed, if_pos ⟨rfl, rfl⟩, clock]
    | some e =>
        simp only [readOnly]
        rw [clock] at failed
        refine ⟨held, if_neg fun both => ?_⟩
        rw [failed] at both
        cases both.2

/-- A command that may write to the device; where it was started it has, however it
ends. -/
theorem touching_answers (argv : List String) :
    Spec (Poised dev n medium) (runCaptured env argv (touching dev) : Step FlashEvent Output)
      (.onReturn
        (fun out w => Poised dev (n + 2) ((env.reply (n + 1)).tool medium) w ∧
          (env.reply n).error = none ∧ captured env n = some out)
        fun _ w => captured env n = none ∧
          w.devices dev = if (env.reply n).error = none then (env.reply (n + 1)).tool medium
            else medium) := by
  apply Spec.bind fun _ w => Poised dev (n + 1) medium w ∧ (env.reply n).error = none
  · refine (started_answers argv).weaken (fun _ poised => poised) (fun _ _ poised => poised) ?_
      fun _ _ => trivial
    intro e w failed
    refine ⟨if_neg fun both => failed.2 (Option.isNone_iff_eq_none.mp both.1), ?_⟩
    rw [if_neg failed.2]
    exact failed.1
  · intro _
    apply Spec.mapError
    apply call_spec fun _ _ => trivial
    rintro w ⟨⟨clock, held⟩, started⟩
    have wrote : (World.setDevice { w with clock := w.clock + 1 } dev
        ((env.reply w.clock).tool (w.devices dev))).devices dev =
          (env.reply (n + 1)).tool medium := by
      rw [World.setDevice_self, clock, held]
    cases failed : (env.reply w.clock).error with
    | none =>
        simp only [touching]
        rw [clock] at failed
        refine ⟨⟨congrArg (· + 1) clock, wrote⟩, started, ?_⟩
        rw [captured, started, failed, if_pos ⟨rfl, rfl⟩, clock]
    | some e =>
        simp only [touching]
        rw [clock] at failed
        refine ⟨if_neg fun both => ?_, ?_⟩
        · rw [failed] at both
          cases both.2
        · rw [if_pos started]
          exact wrote

theorem lastPartitionNumber_answers :
    Spec (Poised dev n medium) (lastPartitionNumber env dev)
      (.onReturn (fun part w => Poised dev (n + 2) medium w ∧ listedLast env n = some part)
        fun _ w => w.devices dev = medium ∧ listedLast env n = none) := by
  apply Spec.bind fun out w => Poised dev (n + 2) medium w ∧ captured env n = some out
  · apply Spec.mapError
    refine (readOnly_answers _).weaken (fun _ poised => poised) (fun _ _ poised => poised) ?_
      fun _ _ => trivial
    intro e w failed
    exact ⟨failed.1, by rw [listedLast, failed.2]; rfl⟩
  · intro out
    have told : ∀ w, Poised dev (n + 2) medium w ∧ captured env n = some out →
        listedLast env n = if out.success then (partitionNumbers out.stdout).max? else none :=
      fun w poised => by rw [listedLast, poised.2]; rfl
    cases success : out.success with
    | false =>
        apply Spec.fail
        intro w poised
        refine ⟨poised.1.2, ?_⟩
        rw [told w poised, success]
        rfl
    | true =>
        simp only [Bool.not_true, Bool.false_eq_true, if_false]
        cases last : (partitionNumbers out.stdout).max? with
        | none =>
            apply Spec.fail
            intro w poised
            refine ⟨poised.1.2, ?_⟩
            rw [told w poised, success, if_pos rfl, last]
        | some part =>
            apply Spec.pure
            intro w poised
            refine ⟨poised.1, ?_⟩
            rw [told w poised, success, if_pos rfl, last]

theorem partitionInfo_answers (part : Nat) :
    Spec (Poised dev n medium) (partitionInfo env dev part)
      (.onReturn (fun info w => Poised dev (n + 2) medium w ∧ toldInfo env n = some info)
        fun _ w => w.devices dev = medium ∧ toldInfo env n = none) := by
  apply Spec.bind fun out w => Poised dev (n + 2) medium w ∧ captured env n = some out
  · apply Spec.mapError
    refine (readOnly_answers _).weaken (fun _ poised => poised) (fun _ _ poised => poised) ?_
      fun _ _ => trivial
    intro e w failed
    exact ⟨failed.1, by rw [toldInfo, failed.2]; rfl⟩
  · intro out
    have told : ∀ w, Poised dev (n + 2) medium w ∧ captured env n = some out →
        toldInfo env n = if out.success then (parseInfo out.stdout).toOption else none :=
      fun w poised => by rw [toldInfo, poised.2]; rfl
    cases success : out.success with
    | false =>
        apply Spec.fail
        intro w poised
        refine ⟨poised.1.2, ?_⟩
        rw [told w poised, success]
        rfl
    | true =>
        simp only [Bool.not_true, Bool.false_eq_true, if_false]
        cases parsed : parseInfo out.stdout with
        | error e =>
            apply Spec.fail
            intro w poised
            refine ⟨poised.1.2, ?_⟩
            rw [told w poised, success, if_pos rfl, parsed]
            rfl
        | ok info =>
            apply Spec.pure
            intro w poised
            refine ⟨poised.1, ?_⟩
            rw [told w poised, success, if_pos rfl, parsed]
            rfl

theorem runSgdisk_answers (args : List String) :
    Spec (Poised dev n medium) (runSgdisk env dev args)
      (.onReturn
        (fun _ w => Poised dev (n + 2) ((env.reply (n + 1)).tool medium) w ∧
          (env.reply n).error = none ∧ Succeeds env n)
        fun _ w => ¬ Succeeds env n ∧
          w.devices dev = if (env.reply n).error = none then (env.reply (n + 1)).tool medium
            else medium) := by
  apply Spec.bind fun out w => Poised dev (n + 2) ((env.reply (n + 1)).tool medium) w ∧
    (env.reply n).error = none ∧ captured env n = some out
  · apply Spec.mapError
    refine (touching_answers _).weaken (fun _ poised => poised) (fun _ _ poised => poised) ?_
      fun _ _ => trivial
    intro e w failed
    refine ⟨?_, failed.2⟩
    rintro ⟨out, isOut, -⟩
    rw [failed.1] at isOut
    cases isOut
  · intro out
    cases success : out.success with
    | true =>
        rw [if_pos rfl]
        apply Spec.pure
        exact fun w poised => ⟨poised.1, poised.2.1, out, poised.2.2, success⟩
    | false =>
        rw [if_neg (by decide)]
        apply Spec.fail
        intro w poised
        refine ⟨?_, ?_⟩
        · rintro ⟨other, isOther, ok⟩
          rw [poised.2.2, Option.some.injEq] at isOther
          rw [← isOther, success] at ok
          cases ok
        · rw [if_pos poised.2.1]
          exact poised.1.2

end Commands

/-! ## What the later commands keep -/

section Later

variable {env : Env} {dev : String} {start : Nat} {fact : Bytes → Prop}

/-- Operation `start` is over, and the fact holds of the device. -/
def Since (dev : String) (start : Nat) (fact : Bytes → Prop) (w : FlashWorld) : Prop :=
  start ≤ w.clock ∧ fact (w.devices dev)

/-- An operation that leaves the fact true leaves it true however it ends. -/
theorem call_always {Error α : Type} {before : FlashWorld → Prop}
    {operation : Reply → FlashWorld → Except Error α × FlashWorld}
    (keeps : ∀ w, before w →
      Answers (.always before) (operation (env.reply w.clock) { w with clock := w.clock + 1 })) :
    Spec before (call env operation) (.always before) :=
  call_spec (fun _ holds => holds) keeps

theorem attempt_always {Error α : Type} {before : FlashWorld → Prop}
    {action : Action FlashWorld Error α} (run : Spec before action (.always before)) :
    Spec before (attempt action) (.always before) := Spec.attempt run

theorem ask_since {α : Type} (answer : Reply → α) :
    Spec (Since dev start fact) (ask env answer : Io FlashWorld α)
      (.always (Since dev start fact)) := by
  apply call_always
  intro w since
  cases (env.reply w.clock).error <;> exact ⟨Nat.le_succ_of_le since.1, since.2⟩

/-- No command from operation `start` on makes the fact untrue. -/
def Lasts (env : Env) (start : Nat) (fact : Bytes → Prop) : Prop :=
  ∀ k medium, start ≤ k → fact medium → fact ((env.reply k).tool medium)

variable (lasts : Lasts env start fact)
include lasts

theorem touchingWait_since :
    Spec (Since dev start fact) (waitWithOutput env (touching dev) : Io FlashWorld Output)
      (.always (Since dev start fact)) := by
  apply call_always
  intro w since
  have wrote : Since dev start fact (World.setDevice { w with clock := w.clock + 1 } dev
      ((env.reply w.clock).tool (w.devices dev))) := by
    refine ⟨Nat.le_succ_of_le since.1, ?_⟩
    rw [World.setDevice_self]
    exact lasts _ _ since.1 since.2
  simp only [touching]
  cases (env.reply w.clock).error <;> exact wrote

theorem touching_since (argv : List String) :
    Spec (Since dev start fact) (runCaptured env argv (touching dev) : Step FlashEvent Output)
      (.always (Since dev start fact)) := by
  apply Spec.bind _ (Spec.mapError (ask_since _))
  exact fun _ => Spec.mapError (touchingWait_since lasts)

omit lasts in
theorem readOnly_since (argv : List String) :
    Spec (Since dev start fact) (runCaptured env argv readOnly : Step FlashEvent Output)
      (.always (Since dev start fact)) := by
  apply Spec.bind _ (Spec.mapError (ask_since _))
  intro _
  apply Spec.mapError
  apply call_always
  intro w since
  simp only [readOnly]
  cases (env.reply w.clock).error <;> exact ⟨Nat.le_succ_of_le since.1, since.2⟩

theorem runSgdisk_since (args : List String) :
    Spec (Since dev start fact) (runSgdisk env dev args) (.always (Since dev start fact)) := by
  apply Spec.bind _ (Spec.mapError (touching_since lasts _))
  intro out
  exact Spec.ite (fun _ => Spec.pure fun _ since => since) fun _ => Spec.fail fun _ since => since

omit lasts in
theorem pathExists_since :
    Spec (Since dev start fact) (pathExists env) (.always (Since dev start fact)) := by
  apply call_always
  exact fun w since => ⟨Nat.le_succ_of_le since.1, since.2⟩

omit lasts in
theorem awaitNode_since (tries : Nat) :
    Spec (Since dev start fact) (awaitNode env tries) (.always (Since dev start fact)) := by
  induction tries with
  | zero => exact Spec.pure fun _ since => since
  | succ tries ih =>
      apply Spec.bind _ pathExists_since
      exact fun _ => Spec.ite (fun _ => Spec.pure fun _ since => since) fun _ => ih

omit lasts in
theorem awaitSize_since (name : String) (tries : Nat) : ∀ last,
    Spec (Since dev start fact) (awaitSize env name last tries) (.always (Since dev start fact)) := by
  induction tries with
  | zero => exact fun _ => Spec.pure fun _ since => since
  | succ tries ih =>
      intro last
      have sampled : Spec (Since dev start fact) (partSize env name)
          (.always (Since dev start fact)) := by
        apply Spec.bind _ (attempt_always (readOnly_since _))
        intro answer
        cases answer with
        | ok out => exact Spec.pure fun _ since => since
        | error e => exact Spec.pure fun _ since => since
      apply Spec.bind _ sampled
      exact fun size => Spec.ite (fun _ => Spec.pure fun _ since => since) fun _ => ih size

theorem growF2fsInLuks_since (partNum : Nat) (secret : String) :
    Spec (Since dev start fact) (growF2fsInLuks env dev partNum secret)
      (.always (Since dev start fact)) := by
  have opened : ∀ argv input, Spec (Since dev start fact)
      (runWithInput env argv input (touching dev) : Step FlashEvent Output)
      (.always (Since dev start fact)) := by
    intro argv input
    apply Spec.bind _ (Spec.mapError (ask_since _))
    intro _
    apply Spec.bind _ (Spec.mapError (ask_since _))
    exact fun _ => Spec.mapError (touchingWait_since lasts)
  have failed : ∀ e, Spec (Since dev start fact) (fail e : Step FlashEvent Unit)
      (.always (Since dev start fact)) := fun e => Spec.fail fun _ since => since
  apply Spec.bind _ (attempt_always (readOnly_since _))
  intro _
  apply Spec.bind _ (awaitNode_since 50)
  intro _
  apply Spec.bind _ pathExists_since
  intro present
  apply Spec.ite (fun _ => failed _)
  intro _
  apply Spec.bind _ (awaitSize_since _ 50 0)
  intro _
  apply Spec.bind _ (Spec.mapError (opened _ _))
  intro out
  apply Spec.ite (fun _ => failed _)
  intro _
  apply Spec.bind _ (attempt_always (Spec.mapError (touching_since lasts _)))
  intro resize
  apply Spec.bind _ (attempt_always (touching_since lasts _))
  intro close
  apply Spec.bind _ (attempt_always (touching_since lasts _))
  intro _
  cases resize with
  | error e => exact failed e
  | ok resizeOut =>
      apply Spec.ite (fun _ => failed _)
      intro _
      cases close with
      | error e => exact failed e
      | ok closeOut =>
          exact Spec.ite (fun _ => Spec.pure fun _ since => since) fun _ => failed _

end Later

/-! ## The whole grow -/

/-- From a device that held `medium`, with operation `n` next: nothing is written
where the move is not started, only the move writes where it does not succeed, and
what it has made true of the device lasts if it lasts through the later commands. -/
structure Grew (env : Env) (n : Nat) (medium final : Bytes) : Prop where
  unmoved : ¬ Moves env n → final = medium
  failed : Moves env n → ¬ Succeeds env (n + 4) → final = (env.reply (n + 5)).tool medium
  moved : Moves env n → Succeeds env (n + 4) → ∀ fact, Lasts env (n + 6) fact →
    fact ((env.reply (n + 5)).tool medium) → fact final

section Growing

variable {env : Env} {n : Nat} {dev : String} {medium : Bytes}

theorem Grew.stuck (unmoved : ¬ Moves env n) : Grew env n medium medium where
  unmoved _ := rfl
  failed moves := absurd moves unmoved
  moved moves := absurd moves unmoved

/-- Every fact that lasts and that the move has made true holds. -/
def Rewritten (env : Env) (n : Nat) (medium : Bytes) (w : FlashWorld) (dev : String) : Prop :=
  ∀ fact, Lasts env (n + 6) fact → fact ((env.reply (n + 5)).tool medium) →
    Since dev (n + 6) fact w

/-- The two readings, the move of the backup header, and the recreation: where they
are through, the move has succeeded. -/
theorem growLastPartition_writes :
    Spec (Poised dev n medium) (growLastPartition env dev)
      (.onReturn (fun _ w => (Moves env n ∧ Succeeds env (n + 4)) ∧ Rewritten env n medium w dev)
        fun _ w => Grew env n medium (w.devices dev)) := by
  have stuck : ∀ w : FlashWorld, w.devices dev = medium → ¬ Moves env n →
      Grew env n medium (w.devices dev) := by
    intro w held unmoved
    rw [held]
    exact Grew.stuck unmoved
  apply Spec.bind fun part w => listedLast env n = some part ∧ Poised dev (n + 2) medium w
  · refine lastPartitionNumber_answers.weaken (fun _ poised => poised) (fun _ _ => And.symm) ?_
      fun _ _ => trivial
    intro e w failed
    apply stuck w failed.1
    intro moves
    rw [Moves, failed.2] at moves
    cases moves.1
  intro part
  apply Spec.assume
  intro listed
  apply Spec.bind fun info w => toldInfo env (n + 2) = some info ∧ Poised dev (n + 4) medium w
  · refine (partitionInfo_answers part).weaken (fun _ poised => poised) (fun _ _ => And.symm) ?_
      fun _ _ => trivial
    intro e w failed
    apply stuck w failed.1
    intro moves
    rw [Moves, failed.2] at moves
    cases moves.2.1
  intro info
  apply Spec.assume
  intro told
  have moves : (env.reply (n + 4)).error = none → Moves env n := by
    intro started
    refine ⟨?_, ?_, started⟩
    · rw [listed]
      rfl
    · rw [told]
      rfl
  apply Spec.bind fun _ w => ((env.reply (n + 4)).error = none ∧ Succeeds env (n + 4)) ∧
    Poised dev (n + 6) ((env.reply (n + 5)).tool medium) w
  · refine (runSgdisk_answers _).weaken (fun _ poised => poised) (fun _ _ => And.symm) ?_
      fun _ _ => trivial
    intro e w failed
    by_cases started : (env.reply (n + 4)).error = none
    · rw [if_pos started] at failed
      exact ⟨fun unmoved => absurd (moves started) unmoved, fun _ _ => failed.2,
        fun _ succeeds => absurd succeeds failed.1⟩
    · rw [if_neg started] at failed
      exact stuck w failed.2 fun other => started other.2.2
  intro _
  apply Spec.assume
  rintro ⟨started, succeeds⟩
  -- Only the recreation is left; each fact goes through it on its own.
  have recreated : Spec (Poised dev (n + 6) ((env.reply (n + 5)).tool medium))
      (runSgdisk env dev (recreate part info))
      (.always fun w => Rewritten env n medium w dev) := by
    intro w fuel poised
    have each : ∀ fact, Lasts env (n + 6) fact → fact ((env.reply (n + 5)).tool medium) →
        Since dev (n + 6) fact (runSgdisk env dev (recreate part info) w fuel).world := by
      intro fact lasts made
      apply (runSgdisk_since lasts _).always fuel
      refine ⟨Nat.le_of_eq poised.1.symm, ?_⟩
      rw [poised.2]
      exact made
    cases outcome : runSgdisk env dev (recreate part info) w fuel <;> rw [outcome] at each <;>
      exact each
  apply Spec.bind fun _ w => Rewritten env n medium w dev
  · refine recreated.weaken (fun _ poised => poised) (fun _ _ rewritten => rewritten) ?_
      fun _ _ => trivial
    intro e w rewritten
    exact ⟨fun unmoved => absurd (moves started) unmoved,
      fun _ failed => absurd succeeds failed, fun _ _ fact lasts made => (rewritten fact lasts made).2⟩
  · exact fun _ => Spec.pure fun w rewritten => ⟨⟨moves started, succeeds⟩, rewritten⟩

theorem Grew.of_rewritten {w : FlashWorld} (through : Moves env n ∧ Succeeds env (n + 4))
    (rewritten : Rewritten env n medium w dev) : Grew env n medium (w.devices dev) where
  unmoved unmoved := absurd through.1 unmoved
  failed _ failed := absurd through.2 failed
  moved _ _ fact lasts made := (rewritten fact lasts made).2

theorem growPhase_writes (job : FlashJob) :
    Spec (Poised job.dev n medium) (growPhase env job)
      (.finally fun w => Grew env n medium (w.devices job.dev)) := by
  apply Spec.bind fun _ => Poised job.dev n medium
  · exact Spec.modify fun _ poised => poised
  intro _
  apply Spec.bind fun answer w =>
    (∀ e, answer = .error e → Grew env n medium (w.devices job.dev)) ∧
      ∀ part, answer = .ok part →
        (Moves env n ∧ Succeeds env (n + 4)) ∧ Rewritten env n medium w job.dev
  · refine Spec.attempt (growLastPartition_writes.weaken (fun _ poised => poised) ?_ ?_ ?_)
    · exact fun part w through => ⟨fun _ failed => (by cases failed), fun _ _ => through⟩
    · exact fun e w grew => ⟨fun _ _ => grew, fun _ failed => (by cases failed)⟩
    · exact fun _ _ => trivial
  intro answer
  cases answer with
  | error e => exact Spec.pure fun _ met => met.1 e rfl
  | ok part =>
      refine Spec.weaken (Spec.assume fun through => ?_) (fun _ met => met.2 part rfl)
        (fun _ _ held => held) (fun _ _ held => held) fun _ held => held
      cases job.storePass with
      | none => exact Spec.pure fun w rewritten => Grew.of_rewritten through rewritten
      | some secret =>
          apply Spec.bind fun _ w => Rewritten env n medium w job.dev
          · exact Spec.modify fun _ rewritten => rewritten
          intro _
          apply Spec.bind fun _ w => Rewritten env n medium w job.dev
          · intro w fuel rewritten
            have each : ∀ fact, Lasts env (n + 6) fact → fact ((env.reply (n + 5)).tool medium) →
                Since job.dev (n + 6) fact
                  (attempt (growF2fsInLuks env job.dev part secret) w fuel).world :=
              fun fact lasts made =>
                (attempt_always (growF2fsInLuks_since lasts part secret)).always fuel
                  (rewritten fact lasts made)
            cases outcome : attempt (growF2fsInLuks env job.dev part secret) w fuel with
            | ok value next left =>
                rw [outcome] at each
                exact each
            | error e next left =>
                rw [outcome] at each
                exact Grew.of_rewritten through each
            | stopped next => trivial
          intro answer
          cases answer with
          | ok _ => exact Spec.pure fun w rewritten => Grew.of_rewritten through rewritten
          | error e => exact Spec.pure fun w rewritten => Grew.of_rewritten through rewritten

end Growing

/-! ## The grow comes to an end -/

section Ending

variable (env : Env) (dev : String)

theorem runCaptured_halts (argv : List String)
    (command : Reply → FlashWorld → Output × FlashWorld) :
    Halts (runCaptured env argv command) := by
  apply Halts.bind (Halts.mapError (Halts.perform _))
  exact fun _ => Halts.mapError (Halts.perform _)

theorem runSgdisk_halts (args : List String) : Halts (runSgdisk env dev args) := by
  apply Halts.bind (Halts.mapError (runCaptured_halts env _ _))
  exact fun _ => Halts.ite (Halts.pure _) (Halts.fail _)

theorem growLastPartition_halts : Halts (growLastPartition env dev) := by
  have number : Halts (lastPartitionNumber env dev) := by
    apply Halts.bind (Halts.mapError (runCaptured_halts env _ _))
    intro out
    apply Halts.ite (Halts.fail _)
    cases (partitionNumbers out.stdout).max? with
    | none => exact Halts.fail _
    | some part => exact Halts.pure _
  have info : ∀ part, Halts (partitionInfo env dev part) := by
    intro part
    apply Halts.bind (Halts.mapError (runCaptured_halts env _ _))
    intro out
    apply Halts.ite (Halts.fail _)
    cases parseInfo out.stdout with
    | error e => exact Halts.fail _
    | ok info => exact Halts.pure _
  apply Halts.bind number
  intro part
  apply Halts.bind (info part)
  intro _
  apply Halts.bind (runSgdisk_halts env dev _)
  intro _
  exact Halts.bind (runSgdisk_halts env dev _) fun _ => Halts.pure _

/-- Without a store passphrase the grow returns, whatever the tools answer. -/
theorem growPhase_ends {job : FlashJob} (noPass : job.storePass = none) :
    Ends (fun _ => True) (growPhase env job) fun _ _ => True := by
  apply Ends.bind fun _ _ => True
  · exact Ends.modify fun _ _ => trivial
  intro _
  apply Ends.bind fun _ _ => True
  · intro w _
    obtain ⟨result, after, cost, run⟩ := growLastPartition_halts env job.dev w
    exact ⟨result, after, cost, run, trivial⟩
  intro answer
  cases answer with
  | error e => exact Ends.pure fun _ _ => trivial
  | ok part =>
      simp only [noPass]
      exact Ends.pure fun _ _ => trivial

end Ending

end Nixnas.Tui.Flash
