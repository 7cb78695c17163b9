import Nixnas.Tui.Secrets

/-!
# The checklist of a build

`run_pipeline` marks its steps by hand, next to some of its fallible calls; the
others leave it through `?` without a mark.  A `Stage` is a step with its calls,
what each came to and whether the source marks its failure; `trace` is what a
run over such stages reports.
-/

set_option autoImplicit false

namespace Nixnas.Tui.Build

open Nixnas.Logic Nixnas.Logic.Action
open Nixnas.Rust

/-! ## Marks -/

abbrev Mark := Nat × StepState

def BuildEvent.mark? : BuildEvent → Option Mark
  | .step i state => some (i, state)
  | _ => none

def marks (events : List BuildEvent) : List Mark := events.filterMap BuildEvent.mark?

/-- The states that a step was given, in order. -/
def history (i : Nat) (marks : List Mark) : List StepState :=
  (marks.filter fun mark => mark.1 = i).map Prod.snd

def StepState.final : StepState → Bool
  | .ok | .skipped | .fail => true
  | .pending | .running => false

/-- The steps in the order in which they finished. -/
def finished (marks : List Mark) : List Nat :=
  (marks.filter fun mark => mark.2.final).map Prod.fst

/-! ## Stages -/

/-- A fallible call, as it came out. -/
structure Operation where
  succeeds : Bool
  /-- The source marks the step when the call fails. -/
  marked : Bool

inductive Stage where
  | run (operations : List Operation)
  | skip

def Stage.operations : Stage → List Operation
  | .run operations => operations
  | .skip => []

/-- The first call that fails. -/
def Stage.failure (stage : Stage) : Option Operation :=
  stage.operations.find? fun operation => !operation.succeeds

/-- How the source marks a step that came to the end of its calls. -/
def ending : Option Operation → List StepState
  | none => [.ok]
  | some operation => if operation.marked then [.fail] else []

/-- The states that the source gives the step. -/
def Stage.states (stage : Stage) : List StepState :=
  match stage with
  | .skip => [.skipped]
  | .run _ => .running :: ending stage.failure

/-- The marks of the stages, the first of which is step `i`. -/
def trace (i : Nat) : List Stage → List Mark
  | [] => []
  | stage :: rest =>
      stage.states.map (Prod.mk i) ++ if stage.failure.isSome then [] else trace (i + 1) rest

/-- The step whose call failed. -/
def failedStep (i : Nat) : List Stage → Option Nat
  | [] => none
  | stage :: rest => if stage.failure.isSome then some i else failedStep (i + 1) rest

/-- The first call that fails, if any, is one whose failure the source marks. -/
def FailureMarked (stages : List Stage) : Prop :=
  ∀ operation, (stages.flatMap Stage.operations).find? (fun operation => !operation.succeeds) =
    some operation → operation.marked = true

/-! ## What the pipeline does of a stage, item by item -/

inductive Item where
  | mark (i : Nat) (state : StepState)
  | call (i : Nat) (operation : Operation)

/-- The marks up to the first call that fails, and its step. -/
def play : List Item → List Mark × Option Nat
  | [] => ([], none)
  | .mark i state :: rest => ((i, state) :: (play rest).1, (play rest).2)
  | .call _ ⟨true, _⟩ :: rest => play rest
  | .call i ⟨false, marked⟩ :: _ => (if marked then [(i, .fail)] else [], some i)

def Stage.items (i : Nat) : Stage → List Item
  | .run operations => .mark i .running :: (operations.map (Item.call i) ++ [.mark i .ok])
  | .skip => [.mark i .skipped]

def items (i : Nat) : List Stage → List Item
  | [] => []
  | stage :: rest => stage.items i ++ items (i + 1) rest

theorem play_append (first rest : List Item) :
    play (first ++ rest) =
      if (play first).2 = none then ((play first).1 ++ (play rest).1, (play rest).2)
      else play first := by
  induction first with
  | nil => rfl
  | cons item first ih =>
      cases item with
      | mark i state =>
          simp only [List.cons_append, play, ih]
          by_cases completes : (play first).2 = none
          · simp only [completes, if_true]
          · simp only [completes, if_false]
      | call i operation =>
          obtain ⟨_ | _, marked⟩ := operation
          · rfl
          · exact ih

theorem play_stage (i : Nat) (stage : Stage) :
    play (stage.items i) =
      (stage.states.map (Prod.mk i), if stage.failure.isSome then some i else none) := by
  cases stage with
  | skip => rfl
  | run operations =>
      have calls : play (operations.map (Item.call i) ++ [.mark i .ok]) =
          ((ending (Stage.run operations).failure).map (Prod.mk i),
            if (Stage.run operations).failure.isSome then some i else none) := by
        induction operations with
        | nil => rfl
        | cons operation operations ih =>
            obtain ⟨_ | _, _ | _⟩ := operation
            · rfl
            · rfl
            · exact ih
            · exact ih
      simp only [Stage.items, Stage.states, play, calls, List.map_cons]

theorem play_items (i : Nat) (stages : List Stage) :
    play (items i stages) = (trace i stages, failedStep i stages) := by
  induction stages generalizing i with
  | nil => rfl
  | cons stage rest ih =>
      rw [items, play_append, play_stage, ih, trace, failedStep]
      cases stage.failure with
      | none => rfl
      | some operation => simp

/-! ## A report on stages -/

theorem history_append (i : Nat) (first rest : List Mark) :
    history i (first ++ rest) = history i first ++ history i rest := by
  unfold history
  rw [List.filter_append, List.map_append]

theorem history_same (i : Nat) (states : List StepState) :
    history i (states.map (Prod.mk i)) = states := by
  induction states with
  | nil => rfl
  | cons state rest ih =>
      unfold history at ih ⊢
      simp [ih]

theorem history_other {i j : Nat} (different : j ≠ i) (states : List StepState) :
    history i (states.map (Prod.mk j)) = [] := by
  unfold history
  simp [List.filter_eq_nil_iff, different]

/-- The marks of later stages are about later steps. -/
theorem history_trace_before {k i : Nat} (before : k < i) (stages : List Stage) :
    history k (trace i stages) = [] := by
  induction stages generalizing i with
  | nil => rfl
  | cons stage rest ih =>
      rw [trace, history_append, history_other (by omega)]
      split
      · rfl
      · exact ih (by omega)

theorem history_trace_head (i : Nat) (stage : Stage) (rest : List Stage) :
    history i (trace i (stage :: rest)) = stage.states := by
  rw [trace, history_append, history_same]
  split
  · exact List.append_nil _
  · rw [history_trace_before (by omega), List.append_nil]

theorem history_trace_later {k i : Nat} (later : i < k) (stage : Stage) (rest : List Stage) :
    history k (trace i (stage :: rest)) =
      if stage.failure.isSome then [] else history k (trace (i + 1) rest) := by
  rw [trace, history_append, history_other (by omega), List.nil_append]
  split <;> rfl

theorem finished_append (first rest : List Mark) :
    finished (first ++ rest) = finished first ++ finished rest := by
  unfold finished
  rw [List.filter_append, List.map_append]

theorem failedStep_ge {i j : Nat} {stages : List Stage} (failed : failedStep i stages = some j) :
    i ≤ j := by
  induction stages generalizing i with
  | nil => cases failed
  | cons stage rest ih =>
      rw [failedStep] at failed
      split at failed
      · cases failed
        exact Nat.le_refl _
      · have := ih failed
        omega

/-- A stage none of whose calls fails ends well. -/
theorem states_of_completes {stage : Stage} (completes : stage.failure = none) :
    stage.states = [.running, .ok] ∨ stage.states = [.skipped] := by
  cases stage with
  | skip => exact .inr rfl
  | run operations =>
      left
      simp only [Stage.states, completes, ending]

theorem states_of_failure {stage : Stage} {operation : Operation}
    (failed : stage.failure = some operation) :
    stage.states = if operation.marked then [.running, .fail] else [.running] := by
  cases stage with
  | skip => cases failed
  | run operations =>
      simp only [Stage.states, failed, ending]
      split <;> rfl

theorem failureMarked_cons (stage : Stage) (rest : List Stage) :
    FailureMarked (stage :: rest) ↔
      match stage.failure with
      | some operation => operation.marked = true
      | none => FailureMarked rest := by
  unfold FailureMarked Stage.failure
  rw [List.flatMap_cons, List.find?_append]
  cases stage.operations.find? fun operation => !operation.succeeds with
  | none => rfl
  | some operation => simp

theorem failureMarked_of_completes {i : Nat} {stages : List Stage}
    (completes : failedStep i stages = none) : FailureMarked stages := by
  induction stages generalizing i with
  | nil =>
      intro operation found
      cases found
  | cons stage rest ih =>
      rw [failedStep] at completes
      rw [failureMarked_cons]
      cases fails : stage.failure with
      | none =>
          rw [fails] at completes
          exact ih completes
      | some operation =>
          rw [fails] at completes
          cases completes

/-- Before the failure, and up to the end where nothing fails, every step ends well. -/
theorem history_before_failure {i k : Nat} {stages : List Stage} (starts : i ≤ k)
    (within : k < i + stages.length)
    (before : ∀ j, failedStep i stages = some j → k < j) :
    history k (trace i stages) = [.running, .ok] ∨ history k (trace i stages) = [.skipped] := by
  induction stages generalizing i with
  | nil =>
      rw [List.length_nil] at within
      omega
  | cons stage rest ih =>
      rw [failedStep] at before
      cases failed : stage.failure with
      | some operation =>
          rw [failed] at before
          have early := before i rfl
          omega
      | none =>
          rw [failed] at before
          by_cases here : k = i
          · subst here
            rw [history_trace_head]
            exact states_of_completes failed
          · rw [history_trace_later (by omega), failed]
            rw [List.length_cons] at within
            exact ih (by omega) (by omega) before

theorem history_at_failure {i j : Nat} {stages : List Stage} (failed : failedStep i stages = some j) :
    (FailureMarked stages → history j (trace i stages) = [.running, .fail]) ∧
      (¬ FailureMarked stages → history j (trace i stages) = [.running]) := by
  induction stages generalizing i with
  | nil => cases failed
  | cons stage rest ih =>
      rw [failedStep] at failed
      rw [failureMarked_cons]
      cases fails : stage.failure with
      | some operation =>
          rw [fails] at failed
          cases failed
          rw [history_trace_head, states_of_failure fails]
          constructor
          · intro isMarked
            exact if_pos isMarked
          · intro unmarked
            exact if_neg unmarked
      | none =>
          rw [fails] at failed
          have later : i < j := failedStep_ge failed
          rw [history_trace_later later, fails]
          exact ih failed

theorem history_after_failure {i j k : Nat} {stages : List Stage}
    (failed : failedStep i stages = some j) (after : j < k) : history k (trace i stages) = [] := by
  induction stages generalizing i with
  | nil => rfl
  | cons stage rest ih =>
      have starts := failedStep_ge failed
      rw [history_trace_later (by omega)]
      rw [failedStep] at failed
      cases fails : stage.failure with
      | some operation => rfl
      | none =>
          rw [fails] at failed
          exact ih failed

theorem history_past {i k : Nat} {stages : List Stage} (past : i + stages.length ≤ k) :
    history k (trace i stages) = [] := by
  induction stages generalizing i with
  | nil => rfl
  | cons stage rest ih =>
      rw [List.length_cons] at past
      rw [history_trace_later (by omega), ih (by omega)]
      exact ite_self _

/-- A step finishes once, and the steps finish in their order. -/
theorem finished_trace (i : Nat) (stages : List Stage) :
    (finished (trace i stages)).Pairwise (· < ·) ∧ ∀ k ∈ finished (trace i stages), i ≤ k := by
  induction stages generalizing i with
  | nil => exact ⟨.nil, by simp [trace, finished]⟩
  | cons stage rest ih =>
      obtain ⟨ordered, later⟩ := ih (i + 1)
      have here : finished (stage.states.map (Prod.mk i)) = [] ∨
          finished (stage.states.map (Prod.mk i)) = [i] := by
        cases fails : stage.failure with
        | none =>
            right
            rcases states_of_completes fails with states | states <;> rw [states] <;> rfl
        | some operation =>
            rw [states_of_failure fails]
            cases operation.marked with
            | true => exact .inr rfl
            | false => exact .inl rfl
      have ordered_rest : (finished (if stage.failure.isSome then []
          else trace (i + 1) rest)).Pairwise (· < ·) ∧
          ∀ k ∈ finished (if stage.failure.isSome then [] else trace (i + 1) rest), i + 1 ≤ k := by
        split
        · exact ⟨.nil, by simp [finished]⟩
        · exact ⟨ordered, later⟩
      rw [trace, finished_append]
      rcases here with nothing | itself
      · rw [nothing, List.nil_append]
        exact ⟨ordered_rest.1, fun k member => by have := ordered_rest.2 k member; omega⟩
      · rw [itself]
        refine ⟨List.pairwise_cons.mpr ⟨fun k member => ?_, ordered_rest.1⟩, ?_⟩
        · have := ordered_rest.2 k member
          omega
        · intro k member
          rcases List.mem_cons.mp member with rfl | member
          · exact Nat.le_refl _
          · have := ordered_rest.2 k member
            omega

end Nixnas.Tui.Build
