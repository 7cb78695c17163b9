import Nixnas.Logic.Effect

/-!
# Programs that come to their end

`Runs` is one complete run of a program, with a bound on the operations it
needs; however many more it is given, it returns the same.  `Ends` is the total
triple: from every world of the precondition the program returns a value, given
enough operations.
-/

set_option autoImplicit false

namespace Nixnas.Logic.Action

variable {World Error α β σ : Type}

/-- Given `cost` operations or more, the program returns, and needs no more than
these. -/
def Runs (action : Action World Error α) (world : World) (value : α) (after : World) (cost : Nat) :
    Prop :=
  ∀ fuel, cost ≤ fuel → ∃ left, fuel ≤ left + cost ∧ action world fuel = .ok value after left

def Ends (before : World → Prop) (action : Action World Error α) (ok : α → World → Prop) : Prop :=
  ∀ world, before world → ∃ value after cost, Runs action world value after cost ∧ ok value after

/-! ## Runs -/

theorem Runs.pure (value : α) (world : World) :
    Runs (pure value : Action World Error α) world value world 0 :=
  fun fuel _ => ⟨fuel, Nat.le_refl _, rfl⟩

theorem Runs.modify (f : World → World) (world : World) :
    Runs (modify f : Action World Error Unit) world () (f world) 0 :=
  fun fuel _ => ⟨fuel, Nat.le_refl _, rfl⟩

theorem Runs.bind {first : Action World Error β} {next : β → Action World Error α}
    {world middle after : World} {mid : β} {value : α} {cost cost' : Nat}
    (head : Runs first world mid middle cost) (tail : Runs (next mid) middle value after cost') :
    Runs (first >>= next) world value after (cost + cost') := by
  intro fuel enough
  obtain ⟨left, spent, returned⟩ := head fuel (by omega)
  obtain ⟨left', spent', returned'⟩ := tail left (by omega)
  refine ⟨left', by omega, ?_⟩
  change Action.bind first next world fuel = _
  unfold Action.bind
  rw [returned]
  exact returned'

theorem Runs.perform {operation : World → Except Error α × World} {world after : World} {value : α}
    (result : operation world = (.ok value, after)) :
    Runs (perform operation) world value after 1 := by
  intro fuel enough
  cases fuel with
  | zero => omega
  | succ fuel =>
      refine ⟨fuel, Nat.le_refl _, ?_⟩
      simp only [Action.perform, result]

theorem Runs.mapError {Error' : Type} {f : Error → Error'} {action : Action World Error α}
    {world after : World} {value : α} {cost : Nat} (run : Runs action world value after cost) :
    Runs (mapError f action) world value after cost := by
  intro fuel enough
  obtain ⟨left, spent, returned⟩ := run fuel enough
  refine ⟨left, spent, ?_⟩
  unfold Action.mapError
  rw [returned]

theorem Runs.attempt {action : Action World Error α} {world after : World} {value : α} {cost : Nat}
    (run : Runs action world value after cost) :
    Runs (attempt action) world (.ok value) after cost := by
  intro fuel enough
  obtain ⟨left, spent, returned⟩ := run fuel enough
  refine ⟨left, spent, ?_⟩
  unfold Action.attempt
  rw [returned]

/-- One operation under `attempt` goes through whatever it answers. -/
theorem Runs.attempt_perform (operation : World → Except Error α × World) (world : World) :
    Runs (Action.attempt (Action.perform operation)) world (operation world).1 (operation world).2 1 := by
  intro fuel enough
  cases fuel with
  | zero => omega
  | succ fuel =>
      refine ⟨fuel, Nat.le_refl _, ?_⟩
      cases result : operation world with
      | mk answer after => cases answer <;> simp only [Action.attempt, Action.perform, result]

/-- A run of the turns of a loop; a turn need not perform an operation. -/
def Turns (body : σ → Action World Error (σ ⊕ α)) (turns : Nat) (state : σ) (world : World)
    (value : α) (after : World) (cost : Nat) : Prop :=
  ∀ bound, turns ≤ bound → Runs (iterate body bound state) world value after cost

theorem Turns.last {body : σ → Action World Error (σ ⊕ α)} {state : σ} {world after : World}
    {value : α} {cost : Nat} (turn : Runs (body state) world (.inr value) after cost) :
    Turns body 1 state world value after cost := by
  intro bound enough
  cases bound with
  | zero => omega
  | succ bound =>
      change Runs (body state >>= _) world value after (cost + 0)
      refine Runs.bind turn ?_
      exact Runs.pure value after

theorem Turns.next {body : σ → Action World Error (σ ⊕ α)} {state next : σ} {turns : Nat}
    {world middle after : World} {value : α} {cost cost' : Nat}
    (turn : Runs (body state) world (.inl next) middle cost)
    (rest : Turns body turns next middle value after cost') :
    Turns body (turns + 1) state world value after (cost + cost') := by
  intro bound enough
  cases bound with
  | zero => omega
  | succ bound =>
      change Runs (body state >>= _) world value after (cost + cost')
      refine Runs.bind turn ?_
      exact rest bound (by omega)

/-- The operations a loop is given bound its turns. -/
theorem Turns.loop {body : σ → Action World Error (σ ⊕ α)} {state : σ} {turns : Nat}
    {world after : World} {value : α} {cost : Nat} (run : Turns body turns state world value after cost) :
    Runs (loop body state) world value after (turns + cost) := by
  intro fuel enough
  obtain ⟨left, spent, returned⟩ := run (fuel + 1) (by omega) fuel (by omega)
  exact ⟨left, by omega, returned⟩

/-! ## Total triples -/

variable {before : World → Prop} {ok : α → World → Prop}

theorem Ends.weaken {before' : World → Prop} {ok' : α → World → Prop}
    {action : Action World Error α} (ends : Ends before' action ok')
    (enter : ∀ world, before world → before' world)
    (leave : ∀ value world, ok' value world → ok value world) : Ends before action ok := by
  intro world holds
  obtain ⟨value, after, cost, run, met⟩ := ends world (enter world holds)
  exact ⟨value, after, cost, run, leave value after met⟩

theorem Ends.pure {value : α} (done : ∀ world, before world → ok value world) :
    Ends before (pure value : Action World Error α) ok :=
  fun world holds => ⟨value, world, 0, Runs.pure value world, done world holds⟩

theorem Ends.modify {ok : Unit → World → Prop} {f : World → World}
    (done : ∀ world, before world → ok () (f world)) :
    Ends before (modify f : Action World Error Unit) ok :=
  fun world holds => ⟨(), f world, 0, Runs.modify f world, done world holds⟩

theorem Ends.bind {first : Action World Error β} {next : β → Action World Error α}
    (mid : β → World → Prop) (head : Ends before first mid)
    (tail : ∀ value, Ends (mid value) (next value) ok) : Ends before (first >>= next) ok := by
  intro world holds
  obtain ⟨value, middle, cost, run, met⟩ := head world holds
  obtain ⟨final, after, cost', run', met'⟩ := tail value middle met
  exact ⟨final, after, cost + cost', run.bind run', met'⟩

theorem Ends.mapError {Error' : Type} {f : Error → Error'} {action : Action World Error α}
    (ends : Ends before action ok) : Ends before (mapError f action) ok := by
  intro world holds
  obtain ⟨value, after, cost, run, met⟩ := ends world holds
  exact ⟨value, after, cost, run.mapError, met⟩

/-- An attempt of a program that ends is answered by its value. -/
theorem Ends.attempt_bind {action : Action World Error β}
    {next : Except Error β → Action World Error α} (mid : β → World → Prop)
    (head : Ends before action mid) (tail : ∀ value, Ends (mid value) (next (.ok value)) ok) :
    Ends before (attempt action >>= next) ok := by
  intro world holds
  obtain ⟨value, middle, cost, run, met⟩ := head world holds
  obtain ⟨final, after, cost', run', met'⟩ := tail value middle met
  exact ⟨final, after, cost + cost', run.attempt.bind run', met'⟩

theorem Ends.attempt_perform {ok : Except Error α → World → Prop}
    {operation : World → Except Error α × World}
    (done : ∀ world, before world → ok (operation world).1 (operation world).2) :
    Ends before (attempt (perform operation)) ok :=
  fun world holds => ⟨_, _, 1, Runs.attempt_perform operation world, done world holds⟩

/-- What a program that ends leads to, a triple says. -/
theorem Ends.with_spec {post : Post World Error α} {action : Action World Error α}
    (ends : Ends before action ok) (spec : Spec before action post) :
    Ends before action fun value world => ok value world ∧ post.ok value world := by
  intro world holds
  obtain ⟨value, after, cost, run, met⟩ := ends world holds
  obtain ⟨left, _, returned⟩ := run cost (Nat.le_refl _)
  exact ⟨value, after, cost, run, met, spec.at_ok holds returned⟩

/-- A precondition that no world decides. -/
theorem Ends.assume {fact : Prop} {action : Action World Error α}
    (ends : fact → Ends before action ok) : Ends (fun world => fact ∧ before world) action ok :=
  fun world holds => ends holds.1 world holds.2

theorem Ends.forM {items : List β} {action : β → Action World Error PUnit}
    (each : ∀ item, Ends before (action item) fun _ => before) :
    Ends before (items.forM action) fun _ => before := by
  induction items with
  | nil => exact Ends.pure fun _ holds => holds
  | cons item rest ih => exact Ends.bind _ (each item) fun _ => ih

/-- The rule of `loop`: an invariant, and a measure of the loop state and the world
that every turn decreases. -/
theorem Ends.loop_measured {body : σ → Action World Error (σ ⊕ α)} (invariant : σ → World → Prop)
    (measure : σ → World → Nat)
    (turn : ∀ state size, Ends (fun world => measure state world = size ∧ invariant state world)
      (body state) fun
        | .inl next => fun world => invariant next world ∧ measure next world < size
        | .inr value => ok value)
    (state : σ) : Ends (invariant state) (loop body state) ok := by
  have turns : ∀ (bound : Nat) (state : σ) (world : World), measure state world < bound →
      invariant state world →
      ∃ turns value after cost, Turns body turns state world value after cost ∧ ok value after := by
    intro bound
    induction bound with
    | zero =>
        intro state world small
        omega
    | succ bound ih =>
        intro state world small holds
        obtain ⟨result, middle, cost, run, met⟩ := turn state _ world ⟨rfl, holds⟩
        cases result with
        | inr value => exact ⟨1, value, middle, cost, Turns.last run, met⟩
        | inl next =>
            obtain ⟨kept, smaller⟩ := met
            obtain ⟨turns, value, after, cost', rest, final⟩ := ih next middle (by omega) kept
            exact ⟨turns + 1, value, after, cost + cost', Turns.next run rest, final⟩
  intro world holds
  obtain ⟨count, value, after, cost, run, met⟩ :=
    turns (measure state world + 1) state world (by omega) holds
  exact ⟨value, after, count + cost, run.loop, met⟩

/-- The same with a measure of the loop state alone. -/
theorem Ends.loop {body : σ → Action World Error (σ ⊕ α)} (invariant : σ → World → Prop)
    (measure : σ → Nat)
    (turn : ∀ state, Ends (invariant state) (body state) fun
      | .inl next => fun world => invariant next world ∧ measure next < measure state
      | .inr value => ok value)
    (state : σ) : Ends (invariant state) (loop body state) ok := by
  apply Ends.loop_measured invariant (fun state _ => measure state)
  intro state size
  apply Ends.assume
  intro isSize
  subst isSize
  exact turn state

/-- Two complete runs from one world are the same run. -/
theorem Runs.unique {action : Action World Error α} {world after after' : World} {value value' : α}
    {cost cost' : Nat} (one : Runs action world value after cost)
    (other : Runs action world value' after' cost') : value = value' ∧ after = after' := by
  obtain ⟨left, _, returned⟩ := one (cost + cost') (by omega)
  obtain ⟨left', _, returned'⟩ := other (cost + cost') (by omega)
  rw [returned] at returned'
  cases returned'
  exact ⟨rfl, rfl⟩

/-! ## Programs that come to some end -/

/-- From every world the program returns or fails, given enough operations. -/
def Halts (action : Action World Error α) : Prop :=
  ∀ world, ∃ result after cost, Runs (attempt action) world result after cost

theorem Runs.fails {action : Action World Error α} {world after : World} {error : Error} {cost : Nat}
    (run : ∀ fuel, cost ≤ fuel → ∃ left, fuel ≤ left + cost ∧ action world fuel = .error error after left) :
    Runs (Action.attempt action) world (.error error) after cost := by
  intro fuel enough
  obtain ⟨left, spent, failed⟩ := run fuel enough
  refine ⟨left, spent, ?_⟩
  unfold Action.attempt
  rw [failed]

/-- What an attempt is answered by is what the program comes to. -/
theorem attempt_cases {action : Action World Error α} {world after : World} {fuel left : Nat}
    {result : Except Error α} (answered : attempt action world fuel = .ok result after left) :
    (∃ value, result = .ok value ∧ action world fuel = .ok value after left) ∨
      ∃ e, result = .error e ∧ action world fuel = .error e after left := by
  unfold Action.attempt at answered
  cases outcome : action world fuel with
  | ok value middle left' =>
      rw [outcome] at answered
      cases answered
      exact .inl ⟨value, rfl, rfl⟩
  | error e middle left' =>
      rw [outcome] at answered
      cases answered
      exact .inr ⟨e, rfl, rfl⟩
  | stopped middle =>
      rw [outcome] at answered
      cases answered

theorem Runs.of_attempt {action : Action World Error α} {world after : World} {value : α} {cost : Nat}
    (run : Runs (Action.attempt action) world (.ok value) after cost) :
    Runs action world value after cost := by
  intro fuel enough
  obtain ⟨left, spent, answered⟩ := run fuel enough
  rcases attempt_cases answered with ⟨_, same, returned⟩ | ⟨_, impossible, _⟩
  · cases same
    exact ⟨left, spent, returned⟩
  · cases impossible

theorem Runs.error_of_attempt {action : Action World Error α} {world after : World} {error : Error}
    {cost : Nat} (run : Runs (Action.attempt action) world (.error error) after cost) (fuel : Nat)
    (enough : cost ≤ fuel) :
    ∃ left, fuel ≤ left + cost ∧ action world fuel = .error error after left := by
  obtain ⟨left, spent, answered⟩ := run fuel enough
  rcases attempt_cases answered with ⟨_, impossible, _⟩ | ⟨_, same, failed⟩
  · cases impossible
  · cases same
    exact ⟨left, spent, failed⟩

theorem Halts.pure (value : α) : Halts (pure value : Action World Error α) :=
  fun world => ⟨.ok value, world, 0, (Runs.pure value world).attempt⟩

theorem Halts.fail (error : Error) : Halts (fail error : Action World Error α) :=
  fun world => ⟨.error error, world, 0, Runs.fails fun fuel _ => ⟨fuel, Nat.le_refl _, rfl⟩⟩

theorem Halts.modify (f : World → World) : Halts (modify f : Action World Error Unit) :=
  fun world => ⟨.ok (), f world, 0, (Runs.modify f world).attempt⟩

theorem Halts.get : Halts (get : Action World Error World) :=
  fun world => ⟨.ok world, world, 0, fun fuel _ => ⟨fuel, Nat.le_refl _, rfl⟩⟩

theorem Halts.perform (operation : World → Except Error α × World) : Halts (perform operation) :=
  fun world => ⟨_, _, 1, Runs.attempt_perform operation world⟩

/-- A bind whose first part has failed. -/
theorem Runs.bind_fails {first : Action World Error β} {next : β → Action World Error α}
    {world after : World} {e : Error} {cost : Nat}
    (run : Runs (Action.attempt first) world (.error e) after cost) :
    Runs (Action.attempt (first >>= next)) world (.error e) after cost := by
  refine Runs.fails fun fuel enough => ?_
  obtain ⟨left, spent, failed⟩ := run.error_of_attempt fuel enough
  exact ⟨left, spent, bind_error failed⟩

/-- A bind whose first part has returned comes to what the rest comes to. -/
theorem Runs.bind_attempt {first : Action World Error β} {next : β → Action World Error α}
    {world middle after : World} {mid : β} {result : Except Error α} {cost cost' : Nat}
    (head : Runs first world mid middle cost)
    (tail : Runs (Action.attempt (next mid)) middle result after cost') :
    Runs (Action.attempt (first >>= next)) world result after (cost + cost') := by
  cases result with
  | ok value => exact (head.bind tail.of_attempt).attempt
  | error e =>
      refine Runs.fails fun fuel enough => ?_
      obtain ⟨left, spent, returned⟩ := head fuel (by omega)
      obtain ⟨left', spent', failed⟩ := tail.error_of_attempt left (by omega)
      refine ⟨left', by omega, ?_⟩
      change Action.bind first next world fuel = _
      unfold Action.bind
      rw [returned]
      exact failed

theorem Halts.bind {first : Action World Error β} {next : β → Action World Error α}
    (head : Halts first) (tail : ∀ value, Halts (next value)) : Halts (first >>= next) := by
  intro world
  obtain ⟨result, middle, cost, run⟩ := head world
  cases result with
  | error e => exact ⟨.error e, middle, cost, run.bind_fails⟩
  | ok value =>
      obtain ⟨result', after, cost', run'⟩ := tail value middle
      exact ⟨result', after, cost + cost', run.of_attempt.bind_attempt run'⟩

theorem Halts.forM {items : List β} {action : β → Action World Error PUnit}
    (each : ∀ item, Halts (action item)) : Halts (items.forM action) := by
  induction items with
  | nil => exact Halts.pure _
  | cons item rest ih => exact Halts.bind (each item) fun _ => ih

/-- A destructor that comes to an end, however, leaves the result of the body. -/
theorem Halts.guarded {destructor : Action World Error Unit} {body : Action World Error α}
    (cleanup : Halts destructor) (run : Halts body) : Halts (guarded destructor body) := by
  intro world
  obtain ⟨result, middle, cost, returns⟩ := run world
  obtain ⟨dropped, after, cost', drops⟩ := cleanup middle
  refine ⟨result, after, cost + cost', fun fuel enough => ?_⟩
  obtain ⟨left, spent, answered⟩ := returns fuel (by omega)
  obtain ⟨left', spent', cleaned⟩ := drops left (by omega)
  refine ⟨left', by omega, ?_⟩
  unfold Action.attempt Action.guarded
  rcases attempt_cases answered with ⟨value, rfl, outcome⟩ | ⟨e, rfl, outcome⟩ <;>
  · rw [outcome]
    dsimp only
    rcases attempt_cases cleaned with ⟨_, _, drop⟩ | ⟨_, _, drop⟩ <;> rw [drop]

theorem Halts.mapError {Error' : Type} {f : Error → Error'} {action : Action World Error α}
    (halts : Halts action) : Halts (mapError f action) := by
  intro world
  obtain ⟨result, after, cost, run⟩ := halts world
  cases result with
  | ok value => exact ⟨.ok value, after, cost, run.of_attempt.mapError.attempt⟩
  | error e =>
      refine ⟨.error (f e), after, cost, Runs.fails fun fuel enough => ?_⟩
      obtain ⟨left, spent, failed⟩ := run.error_of_attempt fuel enough
      refine ⟨left, spent, ?_⟩
      unfold Action.mapError
      rw [failed]

theorem Halts.attempt {action : Action World Error α} (halts : Halts action) :
    Halts (attempt action) := by
  intro world
  obtain ⟨result, after, cost, run⟩ := halts world
  exact ⟨.ok result, after, cost, run.attempt⟩

theorem Halts.ite {condition : Prop} [Decidable condition] {yes no : Action World Error α}
    (first : Halts yes) (second : Halts no) : Halts (if condition then yes else no) := by
  by_cases holds : condition
  · rw [if_pos holds]
    exact first
  · rw [if_neg holds]
    exact second

/-! ## Total triples of programs that may fail -/

/-- From every world of the precondition the program returns or fails, given enough
operations, and the postcondition says with what. -/
def Finishes (before : World → Prop) (action : Action World Error α) (post : Post World Error α) :
    Prop :=
  ∀ world, before world → ∃ result after cost,
    Runs (attempt action) world result after cost ∧ post.Answered (result, after)

variable {post : Post World Error α}

theorem Ends.finishes {action : Action World Error α} (ends : Ends before action post.ok) :
    Finishes before action post := by
  intro world holds
  obtain ⟨value, after, cost, run, met⟩ := ends world holds
  exact ⟨.ok value, after, cost, run.attempt, met⟩

theorem Halts.finishes {action : Action World Error α} (halts : Halts action)
    (spec : Spec before action post) : Finishes before action post := by
  intro world holds
  obtain ⟨result, after, cost, run⟩ := halts world
  refine ⟨result, after, cost, run, ?_⟩
  obtain ⟨left, _, answered⟩ := run cost (Nat.le_refl _)
  have met := spec world cost holds
  rcases attempt_cases answered with ⟨value, rfl, returned⟩ | ⟨e, rfl, failed⟩
  · rw [returned] at met
    exact met
  · rw [failed] at met
    exact met

theorem Finishes.weaken {before' : World → Prop} {post' : Post World Error α}
    {action : Action World Error α} (finishes : Finishes before' action post')
    (enter : ∀ world, before world → before' world)
    (ok : ∀ value world, post'.ok value world → post.ok value world)
    (error : ∀ e world, post'.error e world → post.error e world) : Finishes before action post := by
  intro world holds
  obtain ⟨result, after, cost, run, met⟩ := finishes world (enter world holds)
  refine ⟨result, after, cost, run, ?_⟩
  cases result with
  | ok value => exact ok value after met
  | error e => exact error e after met

/-- The same program, with more said of its failure. -/
theorem Finishes.imp_error {error : Error → World → Prop} {stopped : World → Prop}
    {action : Action World Error α} (finishes : Finishes before action post)
    (leads : ∀ e world, post.error e world → error e world) :
    Finishes before action ⟨post.ok, error, stopped⟩ :=
  finishes.weaken (fun _ holds => holds) (fun _ _ met => met) leads

theorem Finishes.pure {value : α} (done : ∀ world, before world → post.ok value world) :
    Finishes before (pure value : Action World Error α) post :=
  fun world holds => ⟨.ok value, world, 0, (Runs.pure value world).attempt, done world holds⟩

theorem Finishes.fail {e : Error} (done : ∀ world, before world → post.error e world) :
    Finishes before (fail e : Action World Error α) post :=
  fun world holds => ⟨.error e, world, 0, Runs.fails fun fuel _ => ⟨fuel, Nat.le_refl _, rfl⟩,
    done world holds⟩

theorem Finishes.modify {post : Post World Error Unit} {f : World → World}
    (done : ∀ world, before world → post.ok () (f world)) :
    Finishes before (modify f : Action World Error Unit) post :=
  fun world holds => ⟨.ok (), f world, 0, (Runs.modify f world).attempt, done world holds⟩

theorem Finishes.perform {operation : World → Except Error α × World}
    (answers : ∀ world, before world → post.Answered (operation world)) :
    Finishes before (perform operation) post :=
  fun world holds => ⟨_, _, 1, Runs.attempt_perform operation world, answers world holds⟩

theorem Finishes.bind {first : Action World Error β} {next : β → Action World Error α}
    (mid : β → World → Prop) (head : Finishes before first ⟨mid, post.error, post.stopped⟩)
    (tail : ∀ value, Finishes (mid value) (next value) post) :
    Finishes before (first >>= next) post := by
  intro world holds
  obtain ⟨result, middle, cost, run, met⟩ := head world holds
  cases result with
  | error e => exact ⟨.error e, middle, cost, run.bind_fails, met⟩
  | ok value =>
      obtain ⟨result', after, cost', run', met'⟩ := tail value middle met
      exact ⟨result', after, cost + cost', run.of_attempt.bind_attempt run', met'⟩

/-- An attempt of a program that ends is answered by its value. -/
theorem Finishes.attempt_bind {action : Action World Error β}
    {next : Except Error β → Action World Error α} (mid : β → World → Prop)
    (head : Ends before action mid)
    (tail : ∀ value, Finishes (mid value) (next (.ok value)) post) :
    Finishes before (Action.attempt action >>= next) post := by
  intro world holds
  obtain ⟨value, middle, cost, run, met⟩ := head world holds
  obtain ⟨result, after, cost', run', met'⟩ := tail value middle met
  exact ⟨result, after, cost + cost', run.attempt.bind_attempt run', met'⟩

theorem Finishes.mapError {Error' : Type} {f : Error → Error'} {action : Action World Error α}
    {post : Post World Error' α}
    (finishes : Finishes before action ⟨post.ok, fun e => post.error (f e), post.stopped⟩) :
    Finishes before (mapError f action) post := by
  intro world holds
  obtain ⟨result, after, cost, run, met⟩ := finishes world holds
  cases result with
  | ok value => exact ⟨.ok value, after, cost, run.of_attempt.mapError.attempt, met⟩
  | error e =>
      refine ⟨.error (f e), after, cost, Runs.fails fun fuel enough => ?_, met⟩
      obtain ⟨left, spent, failed⟩ := run.error_of_attempt fuel enough
      refine ⟨left, spent, ?_⟩
      unfold Action.mapError
      rw [failed]

/-- What it comes to, a triple says too. -/
theorem Finishes.with_spec {before' : World → Prop} {post' : Post World Error α}
    {action : Action World Error α} (finishes : Finishes before action post)
    (spec : Spec before' action post') :
    Finishes (fun world => before world ∧ before' world) action
      (.onReturn (fun value world => post.ok value world ∧ post'.ok value world)
        fun e world => post.error e world ∧ post'.error e world) := by
  intro world holds
  obtain ⟨result, after, cost, run, met⟩ := finishes world holds.1
  refine ⟨result, after, cost, run, ?_⟩
  obtain ⟨left, _, answered⟩ := run cost (Nat.le_refl _)
  have met' := spec world cost holds.2
  rcases attempt_cases answered with ⟨value, rfl, returned⟩ | ⟨e, rfl, failed⟩
  · rw [returned] at met'
    exact ⟨met, met'⟩
  · rw [failed] at met'
    exact ⟨met, met'⟩

/-- A program that does not fail returns. -/
theorem Finishes.ends {action : Action World Error α} (finishes : Finishes before action post)
    (never : ∀ e world, ¬ post.error e world) : Ends before action post.ok := by
  intro world holds
  obtain ⟨result, after, cost, run, met⟩ := finishes world holds
  cases result with
  | error e => exact absurd met (never e after)
  | ok value => exact ⟨value, after, cost, run.of_attempt, met⟩

/-- A precondition that no world decides. -/
theorem Finishes.assume {fact : Prop} {action : Action World Error α}
    (finishes : fact → Finishes before action post) :
    Finishes (fun world => fact ∧ before world) action post :=
  fun world holds => finishes holds.1 world holds.2

/-- How a turn of a loop ends that goes on with a smaller state, or breaks. -/
def Post.ofTurn (invariant : σ → World → Prop) (measure : σ → Nat) (size : Nat)
    (post : Post World Error α) : Post World Error (σ ⊕ α) where
  ok turn world :=
    match turn with
    | .inl next => invariant next world ∧ measure next < size
    | .inr value => post.ok value world
  error := post.error
  stopped := post.stopped

/-- The rule of `loop`: an invariant, and a measure of the loop state that every turn
decreases. -/
theorem Finishes.loop {body : σ → Action World Error (σ ⊕ α)} (invariant : σ → World → Prop)
    (measure : σ → Nat)
    (turn : ∀ state, Finishes (invariant state) (body state)
      (Post.ofTurn invariant measure (measure state) post))
    (state : σ) : Finishes (invariant state) (loop body state) post := by
  have turns : ∀ (bound : Nat) (state : σ) (world : World), measure state < bound →
      invariant state world → ∃ result after cost, (∀ more, bound ≤ more →
        Runs (Action.attempt (iterate body more state)) world result after cost) ∧
          post.Answered (result, after) := by
    intro bound
    induction bound with
    | zero =>
        intro state world small
        omega
    | succ bound ih =>
        intro state world small holds
        obtain ⟨answer, middle, cost, run, met⟩ := turn state world holds
        cases answer with
        | error e =>
            refine ⟨.error e, middle, cost, fun more enough => ?_, met⟩
            obtain ⟨more, rfl⟩ : ∃ n, more = n + 1 := ⟨more - 1, by omega⟩
            exact run.bind_fails
        | ok answer =>
            cases answer with
            | inr value =>
                refine ⟨.ok value, middle, cost + 0, fun more enough => ?_, met⟩
                obtain ⟨more, rfl⟩ : ∃ n, more = n + 1 := ⟨more - 1, by omega⟩
                exact run.of_attempt.bind_attempt (Runs.pure value middle).attempt
            | inl next =>
                obtain ⟨kept, less⟩ := met
                obtain ⟨result, after, cost', rest, final⟩ := ih next middle (by omega) kept
                refine ⟨result, after, cost + cost', fun more enough => ?_, final⟩
                obtain ⟨more, rfl⟩ : ∃ n, more = n + 1 := ⟨more - 1, by omega⟩
                exact run.of_attempt.bind_attempt (rest more (by omega))
  intro world holds
  obtain ⟨result, after, cost, run, met⟩ := turns (measure state + 1) state world (by omega) holds
  refine ⟨result, after, measure state + 1 + cost, fun fuel enough => ?_, met⟩
  obtain ⟨left, spent, answered⟩ := run (fuel + 1) (by omega) fuel (by omega)
  exact ⟨left, by omega, answered⟩

/-- A turn of a loop that goes on does so with a smaller state. -/
def Below (measure : σ → Nat) (size : Nat) : σ ⊕ α → Prop
  | .inl next => measure next < size
  | .inr _ => True

/-- A loop whose turns come to an end and decrease a measure of its state. -/
theorem Halts.loop {body : σ → Action World Error (σ ⊕ α)} (measure : σ → Nat)
    (each : ∀ state, Halts (body state))
    (smaller : ∀ state, Spec (fun _ => True) (body state)
      (.onReturn (fun turn _ => Below measure (measure state) turn) fun _ _ => True))
    (state : σ) : Halts (loop body state) := by
  have finishes : Finishes (fun _ => True) (Action.loop body state)
      (.onReturn (fun _ _ => True) fun _ _ => True) := by
    refine Finishes.loop (fun _ _ => True) measure ?_ state
    intro state
    refine ((each state).finishes (smaller state)).weaken (fun _ holds => holds) ?_ fun _ _ met => met
    intro turn world below
    cases turn with
    | inl next => exact ⟨trivial, below⟩
    | inr value => trivial
  intro world
  obtain ⟨result, after, cost, run, -⟩ := finishes world trivial
  exact ⟨result, after, cost, run⟩

end Nixnas.Logic.Action
