import Mathlib.Logic.Relation

/-!
# Labelled transition systems

A `Machine` has a set of first states and labelled steps.  `Reachable` is the
set of states some run of it visits; `Machine.invariant` packages the induction
over runs, so that a safety proof is one fact about first states and one about
a single step.  `Machine.restrict` keeps the steps that meet a condition on the
state they start from, which is how a law that only some runs obey is stated.
-/

set_option autoImplicit false

namespace Nixnas.Logic

universe u v

structure Machine (State : Type u) (Label : Type v) where
  initial : State → Prop
  step : State → Label → State → Prop

namespace Machine

variable {State : Type u} {Label : Type v}

inductive Reachable (machine : Machine State Label) : State → Prop where
  | initial {state : State} : machine.initial state → Reachable machine state
  | step {state next : State} (label : Label) :
      Reachable machine state → machine.step state label next → Reachable machine next

/-- `Steps machine state final`: some run leads from `state` to `final`. -/
def Steps (machine : Machine State Label) : State → State → Prop :=
  Relation.ReflTransGen fun state next => ∃ label, machine.step state label next

def restrict (machine : Machine State Label) (allowed : State → Label → Prop) :
    Machine State Label where
  initial := machine.initial
  step state label next := allowed state label ∧ machine.step state label next

/-- The machine of a step function: an event that is not enabled answers `none`. -/
def ofStep (initial : State → Prop) (step : State → Label → Option State) :
    Machine State Label where
  initial := initial
  step state label next := step state label = some next

/-- A fact about every first state that each step from a reachable state keeps
holds in every reachable state. -/
theorem invariant {machine : Machine State Label} {fact : State → Prop}
    (first : ∀ state, machine.initial state → fact state)
    (kept : ∀ state label next, machine.Reachable state → fact state →
      machine.step state label next → fact next) :
    ∀ state, machine.Reachable state → fact state := by
  intro state reached
  induction reached with
  | initial start => exact first _ start
  | step label reached taken held => exact kept _ label _ reached held taken

theorem Reachable.steps {machine : Machine State Label} {state final : State}
    (reached : machine.Reachable state) (run : machine.Steps state final) :
    machine.Reachable final := by
  induction run with
  | refl => exact reached
  | tail _ taken held =>
      obtain ⟨label, taken⟩ := taken
      exact held.step label taken

theorem Steps.single {machine : Machine State Label} {state next : State} (label : Label)
    (taken : machine.step state label next) : machine.Steps state next :=
  Relation.ReflTransGen.single ⟨label, taken⟩

theorem restrict_reachable {machine : Machine State Label} {allowed : State → Label → Prop}
    {state : State} (reached : (machine.restrict allowed).Reachable state) :
    machine.Reachable state := by
  induction reached with
  | initial start => exact .initial start
  | step label _ taken held => exact held.step label taken.2

theorem restrict_restrict {machine : Machine State Label} {first second : State → Label → Prop}
    {state : State}
    (reached : (machine.restrict fun state label => first state label ∧ second state label).Reachable
      state) : ((machine.restrict first).restrict second).Reachable state := by
  induction reached with
  | initial start => exact .initial start
  | step label _ taken held => exact held.step label ⟨taken.1.2, taken.1.1, taken.2⟩

/-- Folding an executable step over a list of events is a run. -/
def replay (step : State → Label → Option State) : State → List Label → Option State
  | state, [] => some state
  | state, label :: rest =>
      match step state label with
      | none => none
      | some next => replay step next rest

theorem replay_append {step : State → Label → Option State} (state : State)
    (first second : List Label) :
    replay step state (first ++ second) =
      (replay step state first).bind fun middle => replay step middle second := by
  induction first generalizing state with
  | nil => rfl
  | cons label rest ih =>
      simp only [List.cons_append, replay]
      cases step state label with
      | none => rfl
      | some next => exact ih next

theorem steps_of_replay {initial : State → Prop} {step : State → Label → Option State}
    (labels : List Label) (state final : State)
    (success : replay step state labels = some final) :
    (ofStep initial step).Steps state final := by
  induction labels generalizing state with
  | nil =>
      simp only [replay, Option.some.injEq] at success
      subst final
      exact .refl
  | cons label rest ih =>
      simp only [replay] at success
      cases taken : step state label with
      | none => simp [taken] at success
      | some next =>
          simp only [taken] at success
          exact .head ⟨label, taken⟩ (ih next success)

/-- A replay whose labels are allowed in every state is a run of the restriction. -/
theorem restrict_steps_of_replay {initial : State → Prop} {step : State → Label → Option State}
    {allowed : State → Label → Prop} (labels : List Label)
    (lets : ∀ state, ∀ label ∈ labels, allowed state label) (state final : State)
    (success : replay step state labels = some final) :
    ((ofStep initial step).restrict allowed).Steps state final := by
  induction labels generalizing state with
  | nil =>
      simp only [replay, Option.some.injEq] at success
      subst final
      exact .refl
  | cons label rest ih =>
      simp only [replay] at success
      cases taken : step state label with
      | none => simp [taken] at success
      | some next =>
          simp only [taken] at success
          have first := lets state label List.mem_cons_self
          exact .head ⟨label, first, taken⟩
            (ih (fun state other member => lets state other (List.mem_cons_of_mem _ member)) next
              success)

/-- A fact that every label of a replay keeps holds at its end. -/
theorem replay_keeps {step : State → Label → Option State} {fact : State → Prop}
    (labels : List Label)
    (kept : ∀ state next, ∀ label ∈ labels, fact state → step state label = some next → fact next)
    (state final : State) (held : fact state) (success : replay step state labels = some final) :
    fact final := by
  induction labels generalizing state with
  | nil =>
      simp only [replay, Option.some.injEq] at success
      subst final
      exact held
  | cons label rest ih =>
      simp only [replay] at success
      cases taken : step state label with
      | none => simp [taken] at success
      | some next =>
          simp only [taken] at success
          exact ih (fun state next other member => kept state next other (List.mem_cons_of_mem _ member))
            next (kept state next label List.mem_cons_self held taken) success

/-- A replay is followed by one of a related system that leaves out the labels that
do nothing to it. -/
theorem replay_filter {Other : Type u} {step : State → Label → Option State}
    {follow : Other → Label → Option Other} {related : State → Other → Prop} (seen : Label → Bool)
    (follows : ∀ state other label next, related state other → seen label = true →
      step state label = some next → ∃ moved, follow other label = some moved ∧ related next moved)
    (stays : ∀ state other label next, related state other → seen label = false →
      step state label = some next → related next other)
    (labels : List Label) (state : State) (other : Other) (final : State) (held : related state other)
    (success : replay step state labels = some final) :
    ∃ last, replay follow other (labels.filter seen) = some last ∧ related final last := by
  induction labels generalizing state other with
  | nil =>
      simp only [replay, Option.some.injEq] at success
      subst final
      exact ⟨other, rfl, held⟩
  | cons label rest ih =>
      simp only [replay] at success
      cases taken : step state label with
      | none => simp [taken] at success
      | some next =>
          simp only [taken] at success
          cases isSeen : seen label with
          | true =>
              obtain ⟨moved, followed, kept⟩ := follows state other label next held isSeen taken
              obtain ⟨last, run, ended⟩ := ih next moved kept success
              refine ⟨last, ?_, ended⟩
              rw [List.filter_cons_of_pos isSeen, replay, followed]
              exact run
          | false =>
              obtain ⟨last, run, ended⟩ :=
                ih next other (stays state other label next held isSeen taken) success
              refine ⟨last, ?_, ended⟩
              rw [List.filter_cons_of_neg (by simp [isSeen])]
              exact run

/-- The events of a run that use up some of a measure are no more than it, when
no other event adds to it. -/
theorem replay_countP_le {step : State → Label → Option State} {fact : State → Prop}
    (measure : State → Nat) (counted : Label → Bool) (labels : List Label)
    (kept : ∀ state label next, fact state → step state label = some next → fact next)
    (less : ∀ state label next, fact state → step state label = some next →
      measure next + (if counted label then 1 else 0) ≤ measure state)
    (state final : State) (held : fact state) (success : replay step state labels = some final) :
    labels.countP counted + measure final ≤ measure state := by
  induction labels generalizing state with
  | nil =>
      simp only [replay, Option.some.injEq] at success
      subst final
      simp
  | cons label rest ih =>
      simp only [replay] at success
      cases taken : step state label with
      | none => simp [taken] at success
      | some next =>
          simp only [taken] at success
          have shorter := ih next (kept state label next held taken) success
          have spent := less state label next held taken
          rw [List.countP_cons]
          omega

/-- A replay whose every state has a fact, and each of whose steps passes a check
that lets it through then, stays inside the restriction. -/
theorem restrict_reachable_of_checked {initial : State → Prop}
    {step : State → Label → Option State} {allowed : State → Label → Prop}
    (check : State → Label → Bool) (fact : State → Prop) (labels : List Label)
    (lets : ∀ state, ∀ label ∈ labels, fact state → check state label = true →
      allowed state label)
    (kept : ∀ state next, ∀ label ∈ labels, fact state → step state label = some next →
      fact next)
    (state final : State) (reached : ((ofStep initial step).restrict allowed).Reachable state)
    (held : fact state)
    (success : replay (fun state label => if check state label then step state label else none)
      state labels = some final) :
    ((ofStep initial step).restrict allowed).Reachable final := by
  induction labels generalizing state with
  | nil =>
      simp only [replay, Option.some.injEq] at success
      subst final
      exact reached
  | cons label rest ih =>
      simp only [replay] at success
      cases checked : check state label with
      | false => simp [checked] at success
      | true =>
          simp only [checked, if_true] at success
          cases taken : step state label with
          | none => simp [taken] at success
          | some next =>
              simp only [taken] at success
              have head := lets state label List.mem_cons_self held checked
              exact ih (fun state other member => lets state other (List.mem_cons_of_mem _ member))
                (fun state next other member => kept state next other (List.mem_cons_of_mem _ member))
                next (reached.step label ⟨head, taken⟩)
                (kept state next label List.mem_cons_self held taken) success

/-- A replay whose every state has a fact that lets each step through stays
inside the restriction. -/
theorem restrict_reachable_of_replay {initial : State → Prop}
    {step : State → Label → Option State} {allowed : State → Label → Prop}
    (fact : State → Prop) (labels : List Label)
    (lets : ∀ state, ∀ label ∈ labels, fact state → allowed state label)
    (kept : ∀ state next, ∀ label ∈ labels, fact state → step state label = some next →
      fact next)
    (state final : State) (reached : ((ofStep initial step).restrict allowed).Reachable state)
    (held : fact state) (success : replay step state labels = some final) :
    ((ofStep initial step).restrict allowed).Reachable final :=
  restrict_reachable_of_checked (fun _ _ => true) fact labels
    (fun state label member holds _ => lets state label member holds) kept state final reached held
    (by simpa using success)

end Machine

end Nixnas.Logic
