/-!
# Programs against an environment

An `Action` is a program that changes a world one operation at a time, may
return an error at any of them, and may be stopped before any of them: its
second argument is how many operations it still gets to perform.  `guarded`
runs a destructor when its body returns or fails, but not when it is stopped.

`Spec` is the triple of a program: what holds of the world when it returns, when
it fails and when it is stopped.  `Preserves` says that a part of the world is
never changed, whatever the outcome.
-/

set_option autoImplicit false

namespace Nixnas.Logic

inductive Outcome (World Error α : Type) where
  | ok (value : α) (world : World) (fuel : Nat)
  | error (error : Error) (world : World) (fuel : Nat)
  | stopped (world : World)

def Outcome.world {World Error α : Type} : Outcome World Error α → World
  | .ok _ world _ => world
  | .error _ world _ => world
  | .stopped world => world

/-- The program came to its end, with a value or with an error. -/
def Outcome.returned {World Error α : Type} : Outcome World Error α → Option (Except Error α)
  | .ok value _ _ => some (.ok value)
  | .error e _ _ => some (.error e)
  | .stopped _ => none

def Action (World Error α : Type) := World → Nat → Outcome World Error α

namespace Action

variable {World Error α β σ Part : Type}

protected def pure (value : α) : Action World Error α := fun world fuel => .ok value world fuel

def fail (error : Error) : Action World Error α := fun world fuel => .error error world fuel

protected def bind (first : Action World Error α) (next : α → Action World Error β) :
    Action World Error β := fun world fuel =>
  match first world fuel with
  | .ok value world fuel => next value world fuel
  | .error error world fuel => .error error world fuel
  | .stopped world => .stopped world

instance : Monad (Action World Error) where
  pure := Action.pure
  bind := Action.bind

/-- A change of the world that nothing can come in between of. -/
def modify (f : World → World) : Action World Error Unit := fun world fuel => .ok () (f world) fuel

def get : Action World Error World := fun world fuel => .ok world world fuel

/-- One operation; the program may be stopped right before it. -/
def perform (operation : World → Except Error α × World) : Action World Error α
  | world, 0 => .stopped world
  | world, fuel + 1 =>
      match operation world with
      | (.ok value, world) => .ok value world fuel
      | (.error error, world) => .error error world fuel

/-- `body`, with a destructor that runs when it returns or fails.  Errors of the
destructor are swallowed. -/
def guarded (destructor : Action World Error Unit) (body : Action World Error α) :
    Action World Error α := fun world fuel =>
  match body world fuel with
  | .ok value world fuel =>
      match destructor world fuel with
      | .ok _ world fuel | .error _ world fuel => .ok value world fuel
      | .stopped world => .stopped world
  | .error error world fuel =>
      match destructor world fuel with
      | .ok _ world fuel | .error _ world fuel => .error error world fuel
      | .stopped world => .stopped world
  | .stopped world => .stopped world

/-- `action`, with its error as a value. -/
def attempt (action : Action World Error α) : Action World Error (Except Error α) :=
  fun world fuel =>
    match action world fuel with
    | .ok value world fuel => .ok (.ok value) world fuel
    | .error error world fuel => .ok (.error error) world fuel
    | .stopped world => .stopped world

/-- `action`, with its error in other words. -/
def mapError {Error' : Type} (f : Error → Error') (action : Action World Error α) :
    Action World Error' α := fun world fuel =>
  match action world fuel with
  | .ok value world fuel => .ok value world fuel
  | .error error world fuel => .error (f error) world fuel
  | .stopped world => .stopped world

def iterate (body : σ → Action World Error (σ ⊕ α)) : Nat → σ → Action World Error α
  | 0, _ => fun world _ => .stopped world
  | turns + 1, state => (body state).bind fun
      | .inl next => iterate body turns next
      | .inr value => .pure value

/-- `loop { … }`: the body continues with a new state or breaks with a value.
It performs at least one operation a turn, so `fuel` bounds the turns. -/
def loop (body : σ → Action World Error (σ ⊕ α)) (state : σ) : Action World Error α :=
  fun world fuel => iterate body (fuel + 1) state world fuel

/-! ## Triples -/

structure Post (World Error α : Type) where
  ok : α → World → Prop
  error : Error → World → Prop
  stopped : World → Prop

def Post.Met (post : Post World Error α) : Outcome World Error α → Prop
  | .ok value world _ => post.ok value world
  | .error e world _ => post.error e world
  | .stopped world => post.stopped world

def Spec (before : World → Prop) (action : Action World Error α) (post : Post World Error α) :
    Prop :=
  ∀ world fuel, before world → post.Met (action world fuel)

/-- What holds when the program returns or fails. -/
def Post.onReturn (ok : α → World → Prop) (error : Error → World → Prop) : Post World Error α :=
  ⟨ok, error, fun _ => True⟩

/-- What holds of the world either way. -/
def Post.finally (fact : World → Prop) : Post World Error α := .onReturn (fun _ => fact) fun _ => fact

/-- What holds of the world either way, of a program that is never stopped. -/
def Post.certainly (fact : World → Prop) : Post World Error α :=
  ⟨fun _ => fact, fun _ => fact, fun _ => False⟩

variable {before : World → Prop} {post : Post World Error α}

theorem Spec.weaken {before' : World → Prop} {post' : Post World Error α}
    {action : Action World Error α} (spec : Spec before' action post')
    (enter : ∀ world, before world → before' world)
    (ok : ∀ value world, post'.ok value world → post.ok value world)
    (error : ∀ error world, post'.error error world → post.error error world)
    (stopped : ∀ world, post'.stopped world → post.stopped world) : Spec before action post := by
  intro world fuel holds
  have met := spec world fuel (enter world holds)
  cases outcome : action world fuel with
  | ok value next fuel =>
      rw [outcome] at met
      exact ok value next met
  | error e next fuel =>
      rw [outcome] at met
      exact error e next met
  | stopped next =>
      rw [outcome] at met
      exact stopped next met

theorem Spec.and {before₁ before₂ : World → Prop} {post₁ post₂ : Post World Error α}
    {action : Action World Error α} (first : Spec before₁ action post₁)
    (second : Spec before₂ action post₂) :
    Spec (fun world => before₁ world ∧ before₂ world) action
      ⟨fun value world => post₁.ok value world ∧ post₂.ok value world,
        fun e world => post₁.error e world ∧ post₂.error e world,
        fun world => post₁.stopped world ∧ post₂.stopped world⟩ := by
  intro world fuel holds
  have one := first world fuel holds.1
  have two := second world fuel holds.2
  cases outcome : action world fuel <;> rw [outcome] at one two <;> exact ⟨one, two⟩

theorem Spec.pure {value : α} (done : ∀ world, before world → post.ok value world) :
    Spec before (pure value : Action World Error α) post :=
  fun world _ holds => done world holds

theorem Spec.fail {error : Error} (done : ∀ world, before world → post.error error world) :
    Spec before (fail error : Action World Error α) post :=
  fun world _ holds => done world holds

theorem Spec.modify {post : Post World Error Unit} {f : World → World}
    (done : ∀ world, before world → post.ok () (f world)) : Spec before (modify f) post :=
  fun world _ holds => done world holds

theorem Spec.get {post : Post World Error World}
    (done : ∀ world, before world → post.ok world world) : Spec before get post :=
  fun world _ holds => done world holds

theorem Spec.bind {first : Action World Error β} {next : β → Action World Error α}
    (mid : β → World → Prop) (head : Spec before first ⟨mid, post.error, post.stopped⟩)
    (tail : ∀ value, Spec (mid value) (next value) post) : Spec before (first >>= next) post := by
  intro world fuel holds
  have met := head world fuel holds
  change post.Met (Action.bind first next world fuel)
  unfold Action.bind
  cases outcome : first world fuel with
  | ok value world fuel =>
      rw [outcome] at met
      exact tail value world fuel met
  | error error world fuel =>
      rw [outcome] at met
      exact met
  | stopped world =>
      rw [outcome] at met
      exact met

theorem Spec.perform {operation : World → Except Error α × World}
    (stopped : ∀ world, before world → post.stopped world)
    (ok : ∀ world value next, before world → operation world = (.ok value, next) →
      post.ok value next)
    (error : ∀ world error next, before world → operation world = (.error error, next) →
      post.error error next) : Spec before (perform operation) post := by
  intro world fuel holds
  cases fuel with
  | zero => exact stopped world holds
  | succ fuel =>
      cases result : operation world with
      | mk answer next =>
          simp only [Action.perform, result]
          cases answer with
          | ok value => exact ok world value next holds result
          | error e => exact error world e next holds result

/-- What an operation that was not stopped leads to. -/
def Post.Answered (post : Post World Error α) : Except Error α × World → Prop
  | (.ok value, world) => post.ok value world
  | (.error e, world) => post.error e world

theorem Spec.answered {operation : World → Except Error α × World}
    (stopped : ∀ world, before world → post.stopped world)
    (answers : ∀ world, before world → post.Answered (operation world)) :
    Spec before (Action.perform operation) post := by
  apply Spec.perform stopped
  · intro world value next holds result
    have met := answers world holds
    rw [result] at met
    exact met
  · intro world e next holds result
    have met := answers world holds
    rw [result] at met
    exact met

theorem Spec.guarded {destructor : Action World Error Unit} {body : Action World Error α}
    (ok : α → World → Prop) (error : Error → World → Prop)
    (run : Spec before body ⟨ok, error, post.stopped⟩)
    (afterOk : ∀ value, Spec (ok value) destructor
      ⟨fun _ => post.ok value, fun _ => post.ok value, post.stopped⟩)
    (afterError : ∀ e, Spec (error e) destructor
      ⟨fun _ => post.error e, fun _ => post.error e, post.stopped⟩) :
    Spec before (guarded destructor body) post := by
  intro world fuel holds
  have met := run world fuel holds
  cases outcome : body world fuel with
  | ok value world fuel =>
      rw [outcome] at met
      have cleaned := afterOk value world fuel met
      simp only [Action.guarded, outcome]
      cases dropped : destructor world fuel <;> rw [dropped] at cleaned <;> exact cleaned
  | error e world fuel =>
      rw [outcome] at met
      have cleaned := afterError e world fuel met
      simp only [Action.guarded, outcome]
      cases dropped : destructor world fuel <;> rw [dropped] at cleaned <;> exact cleaned
  | stopped world =>
      rw [outcome] at met
      simp only [Action.guarded, outcome]
      exact met

theorem Spec.attempt {action : Action World Error α} {post : Post World Error (Except Error α)}
    (run : Spec before action
      ⟨fun value => post.ok (.ok value), fun e => post.ok (.error e), post.stopped⟩) :
    Spec before (attempt action) post := by
  intro world fuel holds
  have met := run world fuel holds
  unfold Action.attempt
  cases outcome : action world fuel <;> rw [outcome] at met <;> exact met

theorem Spec.mapError {Error' : Type} {f : Error → Error'} {action : Action World Error α}
    {post : Post World Error' α}
    (run : Spec before action ⟨post.ok, fun e => post.error (f e), post.stopped⟩) :
    Spec before (mapError f action) post := by
  intro world fuel holds
  have met := run world fuel holds
  unfold Action.mapError
  cases outcome : action world fuel <;> rw [outcome] at met <;> exact met

theorem Spec.ite {condition : Prop} [Decidable condition] {yes no : Action World Error α}
    (whenYes : condition → Spec before yes post) (whenNo : ¬ condition → Spec before no post) :
    Spec before (if condition then yes else no) post := by
  by_cases holds : condition
  · rw [if_pos holds]
    exact whenYes holds
  · rw [if_neg holds]
    exact whenNo holds

/-- The rule of `loop`: an invariant of the loop state and the world. -/
theorem Spec.loop {body : σ → Action World Error (σ ⊕ α)} (invariant : σ → World → Prop)
    (stopped : ∀ state world, invariant state world → post.stopped world)
    (turn : ∀ state, Spec (invariant state) (body state)
      ⟨fun
        | .inl next => invariant next
        | .inr value => post.ok value, post.error, post.stopped⟩)
    (state : σ) : Spec (invariant state) (loop body state) post := by
  have turns : ∀ (turns : Nat) (state : σ), Spec (invariant state) (iterate body turns state) post := by
    intro turns
    induction turns with
    | zero => exact fun state world _ holds => stopped state world holds
    | succ turns ih =>
        intro state
        refine Spec.bind _ (turn state) fun result => ?_
        cases result with
        | inl next => exact ih next
        | inr value => exact Spec.pure fun _ holds => holds
  exact fun world fuel holds => turns (fuel + 1) state world fuel holds

/-! ## Parts that stay as they are -/

def Preserves (part : World → Part) (action : Action World Error α) : Prop :=
  ∀ world fuel, part (action world fuel).world = part world

variable {part : World → Part}

theorem Preserves.spec {action : Action World Error α} (keeps : Preserves part action)
    (kept : Part) : Spec (fun world => part world = kept) action
      ⟨fun _ world => part world = kept, fun _ world => part world = kept,
        fun world => part world = kept⟩ := by
  intro world fuel holds
  have same := keeps world fuel
  cases outcome : action world fuel <;> rw [outcome] at same <;> exact same.trans holds

theorem Preserves.returns {action : Action World Error α} (keeps : Preserves part action)
    (kept : Part) : Spec (fun world => part world = kept) action
      (.onReturn (fun _ world => part world = kept) fun _ _ => True) :=
  (keeps.spec kept).weaken (fun _ holds => holds) (fun _ _ holds => holds) (fun _ _ _ => trivial)
    fun _ _ => trivial

theorem Preserves.comp {Coarse : Type} {action : Action World Error α} (coarsen : Part → Coarse)
    (keeps : Preserves part action) : Preserves (fun world => coarsen (part world)) action :=
  fun world fuel => congrArg coarsen (keeps world fuel)

theorem Preserves.pure (value : α) : Preserves part (pure value : Action World Error α) :=
  fun _ _ => rfl

theorem Preserves.fail (error : Error) : Preserves part (fail error : Action World Error α) :=
  fun _ _ => rfl

theorem Preserves.get : Preserves part (get : Action World Error World) := fun _ _ => rfl

theorem Preserves.modify {f : World → World} (keeps : ∀ world, part (f world) = part world) :
    Preserves part (modify f : Action World Error Unit) := fun world _ => keeps world

theorem Preserves.perform {operation : World → Except Error α × World}
    (keeps : ∀ world, part (operation world).2 = part world) :
    Preserves part (perform operation) := by
  intro world fuel
  cases fuel with
  | zero => rfl
  | succ fuel =>
      have same := keeps world
      cases result : operation world with
      | mk answer next =>
          rw [result] at same
          simp only [Action.perform, result]
          cases answer <;> exact same

theorem Preserves.bind {first : Action World Error β} {next : β → Action World Error α}
    (head : Preserves part first) (tail : ∀ value, Preserves part (next value)) :
    Preserves part (first >>= next) := by
  intro world fuel
  have same := head world fuel
  change part (Action.bind first next world fuel).world = part world
  unfold Action.bind
  cases outcome : first world fuel with
  | ok value middle fuel =>
      rw [outcome] at same
      exact (tail value middle fuel).trans same
  | error error middle fuel =>
      rw [outcome] at same
      exact same
  | stopped middle =>
      rw [outcome] at same
      exact same

theorem Preserves.ite {condition : Prop} [Decidable condition] {yes no : Action World Error α}
    (whenYes : Preserves part yes) (whenNo : Preserves part no) :
    Preserves part (if condition then yes else no) := by
  split
  · exact whenYes
  · exact whenNo

theorem Preserves.forM {items : List β} {action : β → Action World Error PUnit}
    (each : ∀ item, Preserves part (action item)) : Preserves part (items.forM action) := by
  induction items with
  | nil => exact Preserves.pure _
  | cons item rest ih => exact Preserves.bind (each item) fun _ => ih

theorem Preserves.guarded {destructor : Action World Error Unit} {body : Action World Error α}
    (cleanup : Preserves part destructor) (run : Preserves part body) :
    Preserves part (guarded destructor body) := by
  intro world fuel
  have same := run world fuel
  cases outcome : body world fuel with
  | ok value middle fuel | error e middle fuel =>
      rw [outcome] at same
      have dropped := cleanup middle fuel
      simp only [Action.guarded, outcome]
      cases after : destructor middle fuel <;> rw [after] at dropped <;> exact dropped.trans same
  | stopped middle =>
      rw [outcome] at same
      simp only [Action.guarded, outcome]
      exact same

theorem Preserves.attempt {action : Action World Error α} (run : Preserves part action) :
    Preserves part (attempt action) := by
  intro world fuel
  have same := run world fuel
  unfold Action.attempt
  cases outcome : action world fuel <;> rw [outcome] at same <;> exact same

theorem Preserves.mapError {Error' : Type} {f : Error → Error'} {action : Action World Error α}
    (run : Preserves part action) : Preserves part (mapError f action) := by
  intro world fuel
  have same := run world fuel
  unfold Action.mapError
  cases outcome : action world fuel <;> rw [outcome] at same <;> exact same

theorem Preserves.loop {body : σ → Action World Error (σ ⊕ α)}
    (turn : ∀ state, Preserves part (body state)) (state : σ) :
    Preserves part (loop body state) := by
  have turns : ∀ (turns : Nat) (state : σ), Preserves part (iterate body turns state) := by
    intro turns
    induction turns with
    | zero => exact fun _ _ _ => rfl
    | succ turns ih =>
        intro state
        refine Preserves.bind (turn state) fun result => ?_
        cases result with
        | inl next => exact ih next
        | inr value => exact Preserves.pure value
  exact fun world fuel => turns (fuel + 1) state world fuel

/-! ## Derived rules -/

/-- The same fact, whatever the outcome. -/
def Post.always (fact : World → Prop) : Post World Error α := ⟨fun _ => fact, fun _ => fact, fact⟩

theorem Spec.always {fact : World → Prop} {action : Action World Error α}
    (spec : Spec before action (.always fact)) {world : World} (fuel : Nat) (holds : before world) :
    fact (action world fuel).world := by
  have met := spec world fuel holds
  cases outcome : action world fuel <;> rw [outcome] at met <;> exact met

theorem Preserves.always {action : Action World Error α} (keeps : Preserves part action)
    (fact : Part → Prop) :
    Spec (fun world => fact (part world)) action (.always fun world => fact (part world)) := by
  intro world fuel holds
  have same := keeps world fuel
  cases outcome : action world fuel with
  | ok _ next _ | error _ next _ | stopped next =>
      rw [outcome] at same
      change fact (part next)
      rw [show part next = part world from same]
      exact holds

/-- A sequence that came to its end came through its middle. -/
theorem bind_ok {first : Action World Error β} {next : β → Action World Error α} {world final : World}
    {fuel left : Nat} {value : α} (returned : (first >>= next) world fuel = .ok value final left) :
    ∃ mid middle fuel', first world fuel = .ok mid middle fuel' ∧
      next mid middle fuel' = .ok value final left := by
  change Action.bind first next world fuel = _ at returned
  unfold Action.bind at returned
  cases outcome : first world fuel with
  | ok mid middle fuel' =>
      rw [outcome] at returned
      exact ⟨mid, middle, fuel', rfl, returned⟩
  | error e middle fuel' =>
      rw [outcome] at returned
      cases returned
  | stopped middle =>
      rw [outcome] at returned
      cases returned

/-- A sequence fails where its first part does. -/
theorem bind_error {first : Action World Error β} {next : β → Action World Error α}
    {world after : World} {fuel left : Nat} {e : Error}
    (failed : first world fuel = .error e after left) :
    (first >>= next) world fuel = .error e after left := by
  change Action.bind first next world fuel = _
  unfold Action.bind
  rw [failed]

/-- A sequence is stopped where its first part is. -/
theorem bind_stopped {first : Action World Error β} {next : β → Action World Error α}
    {world after : World} {fuel : Nat} (stopped : first world fuel = .stopped after) :
    (first >>= next) world fuel = .stopped after := by
  change Action.bind first next world fuel = _
  unfold Action.bind
  rw [stopped]

theorem Spec.at_ok {action : Action World Error α} (spec : Spec before action post)
    {world final : World} {fuel left : Nat} {value : α} (holds : before world)
    (returned : action world fuel = .ok value final left) : post.ok value final := by
  have met := spec world fuel holds
  rw [returned] at met
  exact met

theorem Spec.at_return {fact : World → Prop} {action : Action World Error α}
    (spec : Spec before action (.finally fact)) {world : World} {fuel : Nat} (holds : before world)
    (returned : (action world fuel).returned ≠ none) : fact (action world fuel).world := by
  have met := spec world fuel holds
  cases outcome : action world fuel with
  | ok _ next _ | error _ next _ =>
      rw [outcome] at met
      exact met
  | stopped next =>
      rw [outcome] at returned
      exact absurd rfl returned

/-- What a program returns, when nothing is asked of its failure. -/
theorem Spec.imp {ok : α → World → Prop} {action : Action World Error α}
    (spec : Spec before action post) (leads : ∀ value world, post.ok value world → ok value world) :
    Spec before action (.onReturn ok fun _ _ => True) :=
  spec.weaken (fun _ holds => holds) leads (fun _ _ _ => trivial) fun _ _ => trivial

/-- Of a program that does not fail, whatever its failure would mean. -/
theorem Spec.unfailing {ok : α → World → Prop} {error : Error → World → Prop}
    {action : Action World Error α} (spec : Spec before action (.onReturn ok fun _ _ => False)) :
    Spec before action (.onReturn ok error) :=
  spec.weaken (fun _ holds => holds) (fun _ _ met => met) (fun _ _ never => never.elim)
    fun _ _ => trivial

/-- What holds of a program from each world holds of it from all. -/
theorem Spec.pointwise {action : Action World Error α}
    (each : ∀ world, before world → Spec (fun other => other = world) action post) :
    Spec before action post :=
  fun world fuel holds => each world holds world fuel rfl

/-- A program that is never stopped, world by world. -/
theorem Spec.each {start fact : World → Prop} {reaches : World → World → Prop}
    {action : Action World Error α}
    (run : ∀ world, start world →
      Spec (fun other => other = world) action (.certainly (reaches world)))
    (leads : ∀ world after, start world → reaches world after → fact after) :
    Spec start action (.certainly fact) := by
  apply Spec.pointwise
  intro world holds
  exact (run world holds).weaken (fun _ same => same) (fun _ after met => leads world after holds met)
    (fun _ after met => leads world after holds met) fun _ never => never

theorem Spec.at_end {fact : World → Prop} {action : Action World Error α}
    (spec : Spec before action (.certainly fact)) {world : World} (holds : before world)
    (fuel : Nat) : (action world fuel).returned.isSome ∧ fact (action world fuel).world := by
  have met := spec world fuel holds
  cases outcome : action world fuel with
  | ok value next left =>
      rw [outcome] at met
      exact ⟨rfl, met⟩
  | error e next left =>
      rw [outcome] at met
      exact ⟨rfl, met⟩
  | stopped next =>
      rw [outcome] at met
      exact met.elim

/-- A precondition that no world decides. -/
theorem Spec.assume {fact : Prop} {action : Action World Error α}
    (spec : fact → Spec before action post) :
    Spec (fun world => fact ∧ before world) action post :=
  fun world fuel holds => spec holds.1 world fuel holds.2

theorem Spec.forM {items : List β} {action : β → Action World Error PUnit}
    {post : Post World Error PUnit} (each : ∀ item, Spec before (action item)
      ⟨fun _ => before, post.error, post.stopped⟩)
    (done : ∀ world, before world → post.ok () world) :
    Spec before (items.forM action) post := by
  induction items with
  | nil => exact Spec.pure done
  | cons item rest ih => exact Spec.bind _ (each item) fun _ => ih

/-- A destructor that keeps a part keeps what the body made of it. -/
theorem Spec.guarded_frame (part : World → Part) (fact : Part → Prop)
    {destructor : Action World Error Unit} {body : Action World Error α} (run : Spec before body (.finally fun world => fact (part world)))
    (keeps : Preserves part destructor) :
    Spec before (Action.guarded destructor body) (.finally fun world => fact (part world)) := by
  have drop : Spec (fun world => fact (part world)) destructor
      (.finally fun world => fact (part world)) := by
    intro world fuel holds
    have kept : fact (part (destructor world fuel).world) := by
      rw [keeps world fuel]
      exact holds
    cases outcome : destructor world fuel with
    | ok _ next _ | error _ next _ =>
        rw [outcome] at kept
        exact kept
    | stopped _ => trivial
  exact Spec.guarded (fun _ world => fact (part world)) (fun _ world => fact (part world)) run
    (fun _ => drop) fun _ => drop

/-! ## Scoped resources

A resource is made, possibly in several operations, and only then is the guard
that removes it armed. -/

/-- `make` comes to its end: `reached` says that it created the resource, and
`finished` that it got past every operation after the creation. -/
def Post.makes (part : World → Part) (absent : Part → Prop) (start : Part)
    (reached finished : Prop) : Post World Error α :=
  .onReturn (fun _ world => ¬ absent (part world) ∧ reached ∧ finished)
    fun _ world => (part world = start ∧ ¬ reached) ∨
      (¬ absent (part world) ∧ reached ∧ ¬ finished)

/-- A resource that was absent is absent again exactly when, once created, it
was finished and its guard removes it. -/
theorem Spec.scoped {make : Action World Error β} {destructor : Action World Error Unit}
    {rest : β → Action World Error α} {absent : Part → Prop} {start : Part}
    {reached finished removed : Prop} (fresh : reached → absent start)
    (made : Spec before make (.makes part absent start reached finished))
    (keeps : ∀ value, Preserves part (rest value))
    (drop : Spec (fun world => ¬ absent (part world)) destructor
      (.finally fun world => absent (part world) ↔ removed)) :
    Spec before (make >>= fun value => Action.guarded destructor (rest value))
      (.finally fun world =>
        (absent start → absent (part world)) ↔ (reached → finished ∧ removed)) := by
  refine Spec.bind (fun _ world => reached ∧ finished ∧ ¬ absent (part world)) ?_ fun value => ?_
  · refine made.weaken (fun _ holds => holds) ?_ ?_ fun _ _ => trivial
    · exact fun _ _ ⟨present, isReached, isFinished⟩ => ⟨isReached, isFinished, present⟩
    · rintro _ world (⟨same, unreached⟩ | ⟨present, isReached, unfinished⟩)
      · exact ⟨fun _ isReached => absurd isReached unreached, fun _ gone => same ▸ gone⟩
      · refine ⟨fun gone => absurd (gone (fresh isReached)) present, fun covered => ?_⟩
        exact absurd (covered isReached).1 unfinished
  · refine Spec.assume fun isReached => Spec.assume fun isFinished => ?_
    have body : Spec (fun world => ¬ absent (part world)) (rest value)
        (.finally fun world => ¬ absent (part world)) := by
      intro world fuel present
      have same := keeps value world fuel
      cases outcome : rest value world fuel with
      | ok _ next _ | error _ next _ =>
          rw [outcome] at same
          change ¬ absent (part next)
          rw [show part next = part world from same]
          exact present
      | stopped _ => trivial
    have dropped : Spec (fun world => ¬ absent (part world)) destructor
        (.finally fun world =>
          (absent start → absent (part world)) ↔ (reached → finished ∧ removed)) := by
      refine drop.weaken (fun _ holds => holds) ?_ ?_ fun _ _ => trivial <;>
      · intro _ world exact
        change absent (part world) ↔ removed at exact
        exact ⟨fun gone _ => ⟨isFinished, exact.mp (gone (fresh isReached))⟩,
          fun covered _ => exact.mpr (covered isReached).2⟩
    exact Spec.guarded (fun _ world => ¬ absent (part world)) (fun _ world => ¬ absent (part world))
      body (fun _ => dropped) fun _ => dropped

end Action

end Nixnas.Logic
