import Mathlib.Algebra.Ring.Nat
import Mathlib.Logic.Function.Basic
import Nixnas.Logic.Machine
import Nixnas.Systemd.Cryptsetup

/-!
# Start transactions

The start jobs of a set of units, under the ordering systemd promises for
`After=`: a job begins only when every unit it is after has either no job or a
job that came to its end, however it ended.  A job that waits can be cancelled
because something its unit requires did not appear.

A cancelled job releases what is ordered after it at once.  Along a chain of
units this is the one way for two of them to run together, so the running units
of a chain are at most one more than its cancelled ones.
-/

set_option autoImplicit false

namespace Nixnas.Systemd

open Nixnas.Logic

universe u

/-- Where a start job stands.  `dependency` is a job cancelled before it ran. -/
inductive Phase where
  | waiting
  | running
  | active
  | failed
  | dependency
  deriving DecidableEq, Repr

/-- The job is over. -/
def Phase.settled : Phase → Bool
  | .waiting | .running => false
  | .active | .failed | .dependency => true

/-- The job ran, or runs. -/
def Phase.begun : Phase → Bool
  | .waiting | .dependency => false
  | .running | .active | .failed => true

/-- What is left to do on a job. -/
def Phase.left : Phase → Nat
  | .waiting => 2
  | .running => 1
  | .active | .failed | .dependency => 0

inductive JobEvent (Unit : Type u) where
  | begin (unit : Unit)
  | finish (unit : Unit) (success : Bool)
  | cancel (unit : Unit)
  deriving DecidableEq, Repr

structure Transaction (Unit : Type u) where
  jobs : List Unit
  after : Unit → List Unit

namespace Transaction

variable {Unit : Type u} [DecidableEq Unit] (transaction : Transaction Unit)

/-- Nothing the unit is after has a job that is still to end. -/
def Ready (phases : Unit → Phase) (unit : Unit) : Prop :=
  ∀ earlier ∈ transaction.after unit, earlier ∈ transaction.jobs →
    (phases earlier).settled = true

instance (phases : Unit → Phase) (unit : Unit) : Decidable (transaction.Ready phases unit) :=
  inferInstanceAs (Decidable (∀ earlier ∈ transaction.after unit, _))

/-- The phase the event puts its unit in. -/
def outcome (phases : Unit → Phase) : JobEvent Unit → Option (Unit × Phase)
  | .begin unit =>
      if phases unit = .waiting ∧ transaction.Ready phases unit then some (unit, .running) else none
  | .finish unit success =>
      if phases unit = .running then some (unit, if success then .active else .failed) else none
  | .cancel unit => if phases unit = .waiting then some (unit, .dependency) else none

def step (phases : Unit → Phase) (event : JobEvent Unit) : Option (Unit → Phase) :=
  match transaction.outcome phases event with
  | some (unit, phase) =>
      if unit ∈ transaction.jobs then some (Function.update phases unit phase) else none
  | none => none

def queued : Unit → Phase := fun _ => .waiting

def machine : Machine (Unit → Phase) (JobEvent Unit) :=
  .ofStep (fun phases => phases = queued) transaction.step

def Complete (phases : Unit → Phase) : Prop :=
  ∀ unit ∈ transaction.jobs, (phases unit).settled = true

/-- What the jobs of the transaction have left. -/
def work (phases : Unit → Phase) : Nat :=
  (transaction.jobs.map fun unit => (phases unit).left).sum

variable {transaction}

/-! ## One step -/

theorem step_begin_iff {phases next : Unit → Phase} {unit : Unit} :
    transaction.step phases (.begin unit) = some next ↔
      unit ∈ transaction.jobs ∧ phases unit = .waiting ∧ transaction.Ready phases unit ∧
        next = Function.update phases unit .running := by
  by_cases enabled : phases unit = .waiting ∧ transaction.Ready phases unit
  · simp [step, outcome, enabled, eq_comm]
  · simp only [step, outcome, if_neg enabled]
    constructor
    · simp
    · rintro ⟨_, waits, ready, _⟩
      exact absurd ⟨waits, ready⟩ enabled

theorem step_finish_iff {phases next : Unit → Phase} {unit : Unit} {success : Bool} :
    transaction.step phases (.finish unit success) = some next ↔
      unit ∈ transaction.jobs ∧ phases unit = .running ∧
        next = Function.update phases unit (if success then .active else .failed) := by
  by_cases runs : phases unit = .running
  · simp [step, outcome, runs, eq_comm]
  · simp [step, outcome, runs]

theorem step_cancel_iff {phases next : Unit → Phase} {unit : Unit} :
    transaction.step phases (.cancel unit) = some next ↔
      unit ∈ transaction.jobs ∧ phases unit = .waiting ∧
        next = Function.update phases unit .dependency := by
  by_cases waits : phases unit = .waiting
  · simp [step, outcome, waits, eq_comm]
  · simp [step, outcome, waits]

/-- A step moves one job: into its run once it is ready, from its run to an end,
or from the queue to a cancelled end. -/
theorem step_cases {phases next : Unit → Phase} {event : JobEvent Unit}
    (taken : transaction.step phases event = some next) :
    ∃ unit ∈ transaction.jobs, ∃ phase, next = Function.update phases unit phase ∧
      ((phases unit = .waiting ∧ transaction.Ready phases unit ∧ phase = .running) ∨
        (∃ success : Bool, phases unit = .running ∧ phase = if success then .active else .failed) ∨
        (phases unit = .waiting ∧ phase = .dependency)) := by
  cases event with
  | begin unit =>
      obtain ⟨member, waits, ready, same⟩ := step_begin_iff.mp taken
      exact ⟨unit, member, _, same, .inl ⟨waits, ready, rfl⟩⟩
  | finish unit success =>
      obtain ⟨member, runs, same⟩ := step_finish_iff.mp taken
      exact ⟨unit, member, _, same, .inr (.inl ⟨success, runs, rfl⟩)⟩
  | cancel unit =>
      obtain ⟨member, waits, same⟩ := step_cancel_iff.mp taken
      exact ⟨unit, member, _, same, .inr (.inr ⟨waits, rfl⟩)⟩

theorem settled_kept {phases next : Unit → Phase} {event : JobEvent Unit}
    (taken : transaction.step phases event = some next) (unit : Unit)
    (isOver : (phases unit).settled = true) : next unit = phases unit := by
  obtain ⟨moved, _, phase, rfl, kinds⟩ := step_cases taken
  by_cases same : unit = moved
  · subst same
    rcases kinds with ⟨waits, _⟩ | ⟨_, runs, _⟩ | ⟨waits, _⟩
    · simp [waits, Phase.settled] at isOver
    · simp [runs, Phase.settled] at isOver
    · simp [waits, Phase.settled] at isOver
  · exact Function.update_of_ne same _ _

theorem sum_update_lt {jobs : List Unit} {phases : Unit → Phase} {unit : Unit} {phase : Phase}
    (member : unit ∈ jobs) (less : phase.left < (phases unit).left) :
    (jobs.map fun job => (Function.update phases unit phase job).left).sum <
      (jobs.map fun job => (phases job).left).sum := by
  have pointwise : ∀ job, (Function.update phases unit phase job).left ≤ (phases job).left := by
    intro job
    by_cases same : job = unit
    · subst same
      rw [Function.update_self]
      exact less.le
    · rw [Function.update_of_ne same]
  exact List.sum_lt_sum _ _ (fun job _ => pointwise job)
    ⟨unit, member, by rwa [Function.update_self]⟩

/-- Every step uses up some of the work. -/
theorem work_decreases {phases next : Unit → Phase} {event : JobEvent Unit}
    (taken : transaction.step phases event = some next) :
    transaction.work next < transaction.work phases := by
  obtain ⟨unit, member, phase, rfl, kinds⟩ := step_cases taken
  refine sum_update_lt member ?_
  rcases kinds with ⟨waits, _, rfl⟩ | ⟨success, runs, rfl⟩ | ⟨waits, rfl⟩
  · simp [waits, Phase.left]
  · cases success <;> simp [runs, Phase.left]
  · simp [waits, Phase.left]

/-! ## Runs -/

/-- What has begun waited for everything it is after. -/
def Ordered (transaction : Transaction Unit) (phases : Unit → Phase) : Prop :=
  ∀ unit, (phases unit).begun = true → unit ∈ transaction.jobs ∧ transaction.Ready phases unit

theorem ready_kept {phases next : Unit → Phase} {event : JobEvent Unit}
    (taken : transaction.step phases event = some next) {unit : Unit}
    (ready : transaction.Ready phases unit) : transaction.Ready next unit := by
  intro earlier isAfter hasJob
  rw [settled_kept taken earlier (ready earlier isAfter hasJob)]
  exact ready earlier isAfter hasJob

theorem ordered_step {phases next : Unit → Phase} {event : JobEvent Unit}
    (ordered : transaction.Ordered phases) (taken : transaction.step phases event = some next) :
    transaction.Ordered next := by
  intro unit begun
  have before : unit ∈ transaction.jobs ∧ transaction.Ready phases unit := by
    obtain ⟨moved, member, phase, rfl, kinds⟩ := step_cases taken
    by_cases same : unit = moved
    · subst same
      refine ⟨member, ?_⟩
      rw [Function.update_self] at begun
      rcases kinds with ⟨_, ready, _⟩ | ⟨_, runs, _⟩ | ⟨_, rfl⟩
      · exact ready
      · exact (ordered unit (by rw [runs]; rfl)).2
      · simp [Phase.begun] at begun
    · rw [Function.update_of_ne same] at begun
      exact ordered unit begun
  exact ⟨before.1, ready_kept taken before.2⟩

/-- In every run, a unit begins only after everything it is after came to an end. -/
theorem ordered_of_reachable : ∀ phases : Unit → Phase,
    transaction.machine.Reachable phases → transaction.Ordered phases := by
  refine Machine.invariant ?_ ?_
  · rintro phases rfl unit begun
    simp [queued, Phase.begun] at begun
  · intro phases event next _ ordered taken
    exact ordered_step ordered taken

/-! ## Chains -/

section Chain

variable {phases : Unit → Phase}

omit [DecidableEq Unit] in
theorem chainEdge_cons {units : List Unit} {first later earlier : Unit}
    (edge : ChainEdge units later earlier) : ChainEdge (first :: units) later earlier := by
  obtain ⟨i, atLater, atEarlier⟩ := edge
  exact ⟨i + 1, by simpa using atLater, by simpa using atEarlier⟩

def running (phases : Unit → Phase) (units : List Unit) : Nat :=
  units.countP fun unit => phases unit = .running

def cancelled (phases : Unit → Phase) (units : List Unit) : Nat :=
  units.countP fun unit => phases unit = .dependency

omit [DecidableEq Unit] in
/-- Behind a unit that is still to end, something runs only past a cancelled one. -/
theorem chain_bounds (units : List Unit)
    (inOrder : ∀ later earlier, ChainEdge units later earlier →
      (phases later).begun = true → (phases earlier).settled = true) :
    running phases units ≤ cancelled phases units + 1 ∧
      ∀ first rest, units = first :: rest →
        ((phases first).settled = false →
          running phases rest ≤ cancelled phases rest) ∧
        (phases first = .dependency → running phases units ≤ cancelled phases units) := by
  induction units with
  | nil => exact ⟨Nat.zero_le _, by simp⟩
  | cons first rest ih =>
      obtain ⟨restBound, restHead⟩ := ih fun later earlier edge =>
        inOrder later earlier (chainEdge_cons edge)
      have behind : (phases first).settled = false →
          running phases rest ≤ cancelled phases rest := by
        intro notOver
        cases rest with
        | nil => exact Nat.zero_le _
        | cons second tail =>
            have notBegun : (phases second).begun = false := by
              by_contra begun
              have isOver := inOrder second first ⟨0, rfl, rfl⟩ (by simpa using begun)
              simp [notOver] at isOver
            obtain ⟨past, dropped⟩ := restHead second tail rfl
            cases phase : phases second with
            | waiting =>
                have tailBound := past (by rw [phase]; rfl)
                simpa [running, cancelled, phase] using tailBound
            | dependency => exact dropped phase
            | running | active | failed => simp [phase, Phase.begun] at notBegun
      have whole : running phases (first :: rest) ≤ cancelled phases (first :: rest) + 1 := by
        cases phase : phases first with
        | running =>
            have tailBound := behind (by rw [phase]; rfl)
            simp only [running, cancelled] at tailBound
            simp only [running, cancelled, List.countP_cons, phase]
            simpa using tailBound
        | waiting | active | failed | dependency =>
            simp only [running, cancelled] at restBound
            simp only [running, cancelled, List.countP_cons, phase]
            simp
            omega
      refine ⟨whole, ?_⟩
      rintro _ _ ⟨rfl, rfl⟩
      refine ⟨behind, fun phase => ?_⟩
      simp only [running, cancelled] at restBound
      simp only [running, cancelled, List.countP_cons, phase]
      simpa using restBound

/-- Along a chain, at most one unit more runs than was cancelled. -/
theorem running_le_cancelled {units : List Unit} (reached : transaction.machine.Reachable phases)
    (members : ∀ unit ∈ units, unit ∈ transaction.jobs)
    (chained : ∀ later earlier, ChainEdge units later earlier → earlier ∈ transaction.after later) :
    running phases units ≤ cancelled phases units + 1 := by
  refine (chain_bounds units fun later earlier edge begun => ?_).1
  have ready := (ordered_of_reachable phases reached later begun).2
  have isAfter := chained later earlier edge
  obtain ⟨i, _, atEarlier⟩ := edge
  exact ready earlier isAfter (members earlier (List.mem_of_getElem? atEarlier))

end Chain

/-! ## Progress -/

/-- Where every unit outranks what it is after, a transaction that is not
complete has a job that can begin or is running. -/
theorem progress (transaction : Transaction Unit) {rank : Unit → Nat}
    (ranked : ∀ unit ∈ transaction.jobs, ∀ earlier ∈ transaction.after unit,
      earlier ∈ transaction.jobs → rank earlier < rank unit)
    {phases : Unit → Phase} (unfinished : ¬ transaction.Complete phases) :
    ∃ unit ∈ transaction.jobs, phases unit = .running ∨
      (phases unit = .waiting ∧ transaction.Ready phases unit) := by
  have pending : ∃ unit ∈ transaction.jobs, (phases unit).settled = false := by
    simpa [Complete] using unfinished
  obtain ⟨start, member, notOver⟩ := pending
  -- Induction on the rank: what holds a job up has a smaller one.
  induction level : rank start using Nat.strong_induction_on generalizing start with
  | _ level ih =>
      cases phase : phases start with
      | running => exact ⟨start, member, .inl phase⟩
      | waiting =>
          by_cases ready : transaction.Ready phases start
          · exact ⟨start, member, .inr ⟨phase, ready⟩⟩
          · simp only [Ready, not_forall, Bool.not_eq_true] at ready
            obtain ⟨earlier, isAfter, hasJob, holds⟩ := ready
            have lower := ranked start member earlier isAfter hasJob
            exact ih (rank earlier) (level ▸ lower) earlier hasJob holds rfl
      | active | failed | dependency => simp [phase, Phase.settled] at notOver

end Transaction

end Nixnas.Systemd
