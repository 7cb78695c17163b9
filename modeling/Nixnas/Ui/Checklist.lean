import Nixnas.Tui.BuildSteps
import Nixnas.Tui.Report
import Nixnas.Ui.Build

/-!
# The checklist on the Build screen

What the step events of a run come to on the screen.  The report is accurate
exactly when the call that fails first, if any, is one whose failure the source
marks: an error that leaves `run_pipeline` through `?` leaves its step running.
-/

set_option autoImplicit false

namespace Nixnas.Ui.Build

open Nixnas.Logic Nixnas.Logic.Action
open Nixnas.Tui.Build

/-! ## The screen -/

/-- The state of a step on a fresh screen that has drained these events. -/
def shown (events : List BuildEvent) (i : Nat) : Option StepState :=
  (foldBuildEvents pendingSteps [] events).1[i]?

/-- A step shows the last state it was given. -/
theorem foldBuildEvents_steps (steps : List StepState) (lines : List String)
    (events : List BuildEvent) (i : Nat) :
    (foldBuildEvents steps lines events).1[i]? =
      steps[i]?.map fun state => (history i (marks events)).getLast?.getD state := by
  induction events generalizing steps lines with
  | nil =>
      change steps[i]? = steps[i]?.map fun state => state
      rw [Option.map_id']
  | cons event rest ih =>
      cases event with
      | step k state =>
          change (foldBuildEvents (steps.set k state) lines rest).1[i]? = _
          rw [ih, List.getElem?_set]
          change _ = steps[i]?.map fun shown =>
            (history i ((k, state) :: marks rest)).getLast?.getD shown
          by_cases same : k = i
          · subst same
            have longer : history k ((k, state) :: marks rest) = state :: history k (marks rest) := by
              simp [history]
            rw [longer, List.getLast?_cons, if_pos rfl]
            by_cases within : k < steps.length
            · rw [if_pos within, List.getElem?_eq_getElem within]
              rfl
            · rw [if_neg within, List.getElem?_eq_none (by omega)]
              rfl
          · have same_history : history i ((k, state) :: marks rest) = history i (marks rest) := by
              simp [history, same]
            rw [same_history, if_neg same]
      | log line => exact ih steps (lines ++ [line])
      | done result => exact ih steps lines

theorem shown_eq {i : Nat} (within : i < stepNames.length) (events : List BuildEvent) :
    shown events i = some ((history i (marks events)).getLast?.getD .pending) := by
  unfold shown
  rw [foldBuildEvents_steps]
  have pending : pendingSteps[i]? = some .pending := by
    unfold pendingSteps
    rw [List.getElem?_replicate, if_pos within]
  rw [pending]
  rfl

/-! ## Accurate reports -/

def Well (state : Option StepState) : Prop := state = some .ok ∨ state = some .skipped

/-- The events of a run that delivered its result, on stages that came out as
these did. -/
structure Accurate (stages : List Stage) (events : List BuildEvent) : Prop where
  single : ∀ i, history i (marks events) ∈ [[], [.skipped], [.running, .ok], [.running, .fail]]
  increasing : (finished (marks events)).Pairwise (· < ·)
  built : ∀ image, .done (.ok image) ∈ events → ∀ i < stepNames.length, Well (shown events i)
  failed : ∀ e, .done (.error e) ∈ events → ∃ j < stepNames.length,
    failedStep 0 stages = some j ∧ shown events j = some .fail ∧ (∀ i < j, Well (shown events i)) ∧
      ∀ i, j < i → i < stepNames.length → shown events i = some .pending

variable {s : Setting} {a : Nixnas.Tui.Build.Answers} {cfg : Config} {passphrase : String}
  {size : SizeOverride} {w after : World} {fuel left : Nat}

/-- The marks and the result of a pipeline that came to its end. -/
theorem runPipeline_report (fresh : w.events = []) {result : Except String String}
    (returned : (runPipeline s a cfg passphrase size w fuel).returned = some result) :
    marks (runPipeline s a cfg passphrase size w fuel).world.events = trace 0 (stages s a cfg w) ∧
      (failedStep 0 (stages s a cfg w) = none ↔ ∃ image, result = .ok image) := by
  have met := runPipeline_trace s a cfg passphrase size w w fuel rfl
  rw [fresh] at met
  cases outcome : runPipeline s a cfg passphrase size w fuel with
  | ok image next left =>
      rw [outcome] at met returned
      cases returned
      exact ⟨met.2.1, fun _ => ⟨image, rfl⟩, fun _ => met.1⟩
  | error e next left =>
      rw [outcome] at met returned
      cases returned
      refine ⟨met.2, fun none_failed => absurd none_failed met.1, fun returned => ?_⟩
      obtain ⟨_, impossible⟩ := returned
      cases impossible
  | stopped next =>
      rw [outcome] at returned
      cases returned

/-- The pipeline leaves the last event to the worker. -/
theorem runPipeline_silent (fresh : w.events = []) (result : Except String String) :
    BuildEvent.done result ∉ (runPipeline s a cfg passphrase size w fuel).world.events := by
  intro member
  have kept : .done result ∈ (runPipeline s a cfg passphrase size w fuel).world.dones :=
    List.mem_filter.mpr ⟨member, rfl⟩
  rw [runPipeline_dones s a cfg passphrase size w fuel, World.dones, fresh] at kept
  cases kept

/-- What a run that delivered its result has sent. -/
theorem spawnBuild_report (fresh : w.events = [])
    (delivered : spawnBuild s a cfg passphrase size w fuel = .ok () after left) :
    ∃ result : Except String String,
      (∀ other, .done other ∈ after.events ↔ other = result) ∧
        marks after.events = trace 0 (stages s a cfg w) ∧
        (failedStep 0 (stages s a cfg w) = none ↔ ∃ image, result = .ok image) := by
  rcases spawnBuild_cases s a cfg passphrase size w fuel with
    ⟨next, _, same⟩ | ⟨result, left', returned, same⟩
  · rw [same] at delivered
    cases delivered
  · rw [same] at delivered
    cases delivered
    obtain ⟨sent, verdict⟩ := runPipeline_report fresh returned
    refine ⟨result, fun other => ?_, ?_, verdict⟩
    · have silent : BuildEvent.done other ∉
          (runPipeline s a cfg passphrase size w fuel).world.events := runPipeline_silent fresh other
      dsimp only
      rw [List.mem_append]
      constructor
      · intro member
        rcases member with early | last
        · exact absurd early silent
        · cases List.mem_singleton.mp last
          rfl
      · intro isResult
        rw [isResult]
        exact .inr (List.mem_singleton.mpr rfl)
    · dsimp only
      unfold marks at sent ⊢
      rw [List.filterMap_append, sent]
      exact List.append_nil _

theorem stages_length : (stages s a cfg w).length = stepNames.length := rfl

theorem failedStep_lt {i j : Nat} {stages : List Stage} (failed : failedStep i stages = some j) :
    j < i + stages.length := by
  induction stages generalizing i with
  | nil => cases failed
  | cons stage rest ih =>
      rw [failedStep] at failed
      rw [List.length_cons]
      split at failed
      · cases failed
        omega
      · have := ih failed
        omega

/-- A step that ended well, and all before it did. -/
theorem well_before {i : Nat} {events : List BuildEvent}
    (sent : marks events = trace 0 (stages s a cfg w)) (within : i < stepNames.length)
    (before : ∀ j, failedStep 0 (stages s a cfg w) = some j → i < j) : Well (shown events i) := by
  have bound : i < 0 + (stages s a cfg w).length := by
    rw [stages_length]
    omega
  rw [shown_eq within, sent]
  rcases history_before_failure (Nat.zero_le i) bound before with states | states <;> rw [states]
  · exact .inl rfl
  · exact .inr rfl

theorem accurate_of_failureMarked {events : List BuildEvent} {result : Except String String}
    (only : ∀ other, .done other ∈ events ↔ other = result)
    (sent : marks events = trace 0 (stages s a cfg w))
    (built : failedStep 0 (stages s a cfg w) = none ↔ ∃ image, result = .ok image)
    (isMarked : FailureMarked (stages s a cfg w)) : Accurate (stages s a cfg w) events where
  single i := by
    rw [sent]
    by_cases past : 0 + (stages s a cfg w).length ≤ i
    · rw [history_past past]
      decide
    · by_cases before : ∀ j, failedStep 0 (stages s a cfg w) = some j → i < j
      · rcases history_before_failure (Nat.zero_le i) (by omega) before with states | states <;>
        · rw [states]
          decide
      · obtain ⟨j, failed, late⟩ : ∃ j, failedStep 0 (stages s a cfg w) = some j ∧ ¬ i < j := by
          simpa only [Classical.not_forall, exists_prop] using before
        by_cases here : i = j
        · subst here
          rw [(history_at_failure failed).1 isMarked]
          decide
        · rw [history_after_failure failed (by omega)]
          decide
  increasing := by
    rw [sent]
    exact (finished_trace 0 _).1
  built image delivered i within := by
    have none_failed := built.mpr ⟨image, ((only _).mp delivered).symm⟩
    refine well_before sent within fun j failed => ?_
    rw [none_failed] at failed
    cases failed
  failed e delivered := by
    have isError := (only _).mp delivered
    cases failed : failedStep 0 (stages s a cfg w) with
    | none =>
        obtain ⟨image, isOk⟩ := built.mp failed
        rw [← isError] at isOk
        cases isOk
    | some j =>
        have within : j < stepNames.length := by
          have := failedStep_lt failed
          rwa [Nat.zero_add, stages_length] at this
        refine ⟨j, within, rfl, ?_, fun i before => ?_, fun i later within' => ?_⟩
        · rw [shown_eq within, sent, (history_at_failure failed).1 isMarked]
          rfl
        · refine well_before sent (by omega) fun j' failed' => ?_
          rw [failed] at failed'
          cases failed'
          exact before
        · rw [shown_eq within', sent, history_after_failure failed later]
          rfl

/-- Without a mark, the step whose call failed is left running. -/
theorem failureMarked_of_accurate {events : List BuildEvent}
    (sent : marks events = trace 0 (stages s a cfg w))
    (accurate : Accurate (stages s a cfg w) events) : FailureMarked (stages s a cfg w) := by
  by_cases isMarked : FailureMarked (stages s a cfg w)
  · exact isMarked
  · cases failed : failedStep 0 (stages s a cfg w) with
    | none => exact failureMarked_of_completes failed
    | some j =>
        have states := accurate.single j
        rw [sent, (history_at_failure failed).2 isMarked] at states
        exact absurd states (by decide)

/-- For every configuration and every outcome of every file operation and child
process: the report of a run that delivered its result is accurate exactly when
the source marks the failure of the call that failed first. -/
theorem spawnBuild_accurate_iff (s : Setting) (a : Nixnas.Tui.Build.Answers) (cfg : Config)
    (passphrase : String) (size : SizeOverride) (w after : World) (fuel left : Nat)
    (fresh : w.events = [])
    (delivered : spawnBuild s a cfg passphrase size w fuel = .ok () after left) :
    Accurate (stages s a cfg w) after.events ↔ FailureMarked (stages s a cfg w) := by
  obtain ⟨result, only, sent, built⟩ := spawnBuild_report fresh delivered
  exact ⟨failureMarked_of_accurate sent, accurate_of_failureMarked only sent built⟩

/-- A build that succeeds, on a host without Secure Boot keys. -/
theorem good_build_accurate :
    Accurate (stages .shm .good .plain World.clear)
        (spawnBuild .shm .good .plain "secret" .fixed World.clear 100).world.events ↔
      FailureMarked (stages .shm .good .plain World.clear) :=
  spawnBuild_accurate_iff .shm .good .plain "secret" .fixed World.clear _ 100 _ rfl rfl

/-- The disk is full when the passphrase is written: the result is an error, and
step 1 still runs. -/
theorem full_disk_not_accurate :
    ¬ ∀ (s : Setting) (a : Nixnas.Tui.Build.Answers) (cfg : Config) (passphrase : String)
      (size : SizeOverride) (w after : World) (fuel left : Nat), w.events = [] →
        spawnBuild s a cfg passphrase size w fuel = .ok () after left →
          Accurate (stages s a cfg w) after.events := by
  intro accurate
  have full := accurate .shm .full .plain "secret" .fixed World.clear _ 100 _ rfl rfl
  have states : [StepState.running] ∈
      [[], [.skipped], [.running, .ok], [StepState.running, .fail]] := full.single 1
  exact absurd states (by decide)

end Nixnas.Ui.Build
