import Nixnas.Ui.Workers

/-!
# The passphrase of a build

The passphrase is typed twice, on two separately written copies of the same
prompts.  What the operator types is recorded beside the screen, prompt by
prompt and without looking into its buffers: a build gets a passphrase only when
both prompts of one attempt spelled it out.
-/

set_option autoImplicit false

namespace Nixnas.Ui

open Nixnas.Logic
open Nixnas.Rust
open Nixnas.Tui.Build (BuildEvent Config)
open Nixnas.Tui.Flash (FlashEvent)

/-! ## Typing -/

def edit (typed : String) : KeyCode → String
  | .char c => typed.push c
  | .backspace => pop typed
  | _ => typed

/-- What a sequence of keys spells out in an empty prompt. -/
def spelled (keys : List KeyCode) : String := keys.foldl edit ""

theorem spelled_append (keys : List KeyCode) (key : KeyCode) :
    spelled (keys ++ [key]) = edit (spelled keys) key := by
  unfold spelled
  rw [List.foldl_append]
  rfl

inductive Prompt where
  | first
  | confirm
  | elsewhere
  deriving DecidableEq, Repr

/-- The keys of one attempt: an attempt starts when the first prompt opens. -/
structure Attempt where
  first : List KeyCode
  second : List KeyCode
  /-- A build was spawned and its last event has not arrived. -/
  running : Bool

def Attempt.fresh : Attempt := ⟨[], [], false⟩

/-- A key on a prompt, and the prompt that shows after it. -/
def Attempt.key (attempt : Attempt) (before after : Prompt) (key : KeyCode) : Attempt :=
  match before with
  | .first =>
      if key = .enter then
        if after = .confirm then { attempt with second := [] }
        else { Attempt.fresh with running := attempt.running }
      else { attempt with first := attempt.first ++ [key] }
  | .confirm =>
      if key = .enter then { Attempt.fresh with running := attempt.running }
      else { attempt with second := attempt.second ++ [key] }
  | .elsewhere => { Attempt.fresh with running := attempt.running }

/-! ## The prompts of a screen -/

/-- The prompt that is shown, with its buffers. -/
inductive Entry where
  | first (buf : String)
  | confirm (first buf : String)
  | elsewhere

def Entry.prompt : Entry → Prompt
  | .first _ => .first
  | .confirm _ _ => .confirm
  | .elsewhere => .elsewhere

/-- What a key leads to: the screen is left, another entry is shown, or a build
starts. -/
inductive Effect where
  | leave
  | shows (entry : Entry)
  | starts (passphrase : String)

/-- The two prompts, as both screens have them. -/
def Entry.press (entry : Entry) (key : KeyCode) : Effect :=
  match entry with
  | .first buf =>
      if key = .esc then .leave
      else if key = .enter then .shows (if buf.isEmpty then .first "" else .confirm buf "")
      else .shows (.first (edit buf key))
  | .confirm typed buf =>
      if key = .esc then .leave
      else if key = .enter then if typed = buf then .starts typed else .shows (.first "")
      else .shows (.confirm typed (edit buf key))
  | .elsewhere => .shows .elsewhere

def Turn.passphrase {Screen : Type} (turn : Turn Screen) : Option String :=
  match turn.spawned with
  | some (.build job) => some job.passphrase
  | _ => none

structure PassphraseScreen where
  State : Type
  Events : Type
  opens : Answers → State
  onKey : Answers → State → KeyCode → Turn State
  drain : Answers → State → Events → State
  /-- The live channel of a build yields its last event. -/
  ended : State → Events → Bool
  entry : State → Entry

namespace PassphraseScreen

variable (screen : PassphraseScreen)

def prompt (st : screen.State) : Prompt := (screen.entry st).prompt

/-- The screen and the record of the attempt, under any keys, events and answers. -/
def machine : Machine (screen.State × Attempt) (Answers × Input screen.Events) where
  initial s := ∃ a, s = (screen.opens a, Attempt.fresh)
  step s label next :=
    match label with
    | (a, .key key) =>
        let turn := screen.onKey a s.1 key
        ∃ st, turn.next = .stay st ∧
          next = (st, { s.2.key (screen.prompt s.1) (screen.prompt st) key with
            running := s.2.running || turn.passphrase.isSome })
    | (a, .drain events) =>
        next = (screen.drain a s.1 events,
          { s.2 with running := s.2.running && !screen.ended s.1 events })

/-- The key starts no worker and leads back to an empty first prompt. -/
def StartsOver (turn : Turn screen.State) : Prop :=
  turn.spawned = none ∧ ∃ next, turn.next = .stay next ∧ screen.entry next = .first ""

/-- Every build gets what both prompts of its attempt spell out; an empty or a
mismatched entry starts over; a running build keeps the screen and every other build
away. -/
structure Careful : Prop where
  confirmed : ∀ st attempt, screen.machine.Reachable (st, attempt) → ∀ a key job,
    (screen.onKey a st key).spawned = some (.build job) →
      job.passphrase ≠ "" ∧ job.passphrase = spelled attempt.first ∧
        job.passphrase = spelled attempt.second
  empty : ∀ st attempt, screen.machine.Reachable (st, attempt) → screen.prompt st = .first →
    spelled attempt.first = "" → ∀ a, screen.StartsOver (screen.onKey a st .enter)
  mismatch : ∀ st attempt, screen.machine.Reachable (st, attempt) → screen.prompt st = .confirm →
    spelled attempt.first ≠ spelled attempt.second → ∀ a,
      screen.StartsOver (screen.onKey a st .enter)
  exclusive : ∀ st attempt, screen.machine.Reachable (st, attempt) → attempt.running = true →
    ∀ a key, (screen.onKey a st key).spawned = none ∧
      ∃ next, (screen.onKey a st key).next = .stay next

/-- What the screen does with a key, as its entry says; `waits` tells that it shows a
running build. -/
def Takes (waits : screen.State → Prop) (turn : Turn screen.State) : Effect → Prop
  | .leave => turn.next = .home ∧ turn.spawned = none
  | .shows entry => turn.spawned = none ∧ ∃ next, turn.next = .stay next ∧ screen.entry next = entry
  | .starts passphrase => ∃ job next, turn.spawned = some (.build job) ∧
      job.passphrase = passphrase ∧ turn.next = .stay next ∧ screen.entry next = .elsewhere ∧
        waits next

/-- A screen with the prompts above that opens the first one empty and waits for the
build it started. -/
structure Prompts (coherent waits : screen.State → Prop) : Prop where
  opens : ∀ a, coherent (screen.opens a) ∧
    (screen.entry (screen.opens a) = .first "" ∨ screen.entry (screen.opens a) = .elsewhere)
  kept : ∀ a st key next, coherent st → (screen.onKey a st key).next = .stay next → coherent next
  presses : ∀ a st key, screen.entry st ≠ .elsewhere →
    screen.Takes waits (screen.onKey a st key) ((screen.entry st).press key)
  elsewhere : ∀ a st key, screen.entry st = .elsewhere →
    (screen.onKey a st key).passphrase = none ∧
      ∀ next, (screen.onKey a st key).next = .stay next →
        screen.entry next = .first "" ∨ screen.entry next = .elsewhere
  busy : ∀ a st key, waits st → screen.entry st = .elsewhere ∧
    (screen.onKey a st key).spawned = none ∧
      ∃ next, (screen.onKey a st key).next = .stay next ∧ waits next
  drains : ∀ a st events, coherent st → coherent (screen.drain a st events) ∧
    screen.entry (screen.drain a st events) = screen.entry st
  goesOn : ∀ a st events, coherent st → waits st → screen.ended st events = false →
    waits (screen.drain a st events)

end PassphraseScreen

/-! ## The record and the buffers -/

/-- The buffers hold what was typed. -/
def Agrees (attempt : Attempt) : Entry → Prop
  | .first buf => buf = spelled attempt.first
  | .confirm first buf =>
      first ≠ "" ∧ first = spelled attempt.first ∧ buf = spelled attempt.second
  | .elsewhere => True

theorem agrees_fresh (running : Bool) :
    Agrees { Attempt.fresh with running := running } (.first "") := rfl

/-- A key that shows another entry keeps the record in step. -/
theorem agrees_press {attempt : Attempt} {entry next : Entry} {key : KeyCode}
    (agrees : Agrees attempt entry) (prompts : entry ≠ .elsewhere)
    (shows_ : entry.press key = .shows next) :
    Agrees (attempt.key entry.prompt next.prompt key) next := by
  cases entry with
  | elsewhere => exact absurd rfl prompts
  | first buf =>
      have same : buf = spelled attempt.first := agrees
      unfold Entry.press at shows_
      dsimp only at shows_
      split at shows_
      · cases shows_
      · split at shows_
        · rename_i isEnter
          cases shows_
          subst isEnter
          by_cases empty : buf.isEmpty = true
          · rw [if_pos empty]
            exact agrees_fresh _
          · rw [if_neg empty]
            exact ⟨by simpa using empty, same, rfl⟩
        · rename_i notEnter
          cases shows_
          change edit buf key = spelled (Attempt.key attempt .first .first key).first
          unfold Attempt.key
          rw [if_neg notEnter, spelled_append, same]
  | confirm typed buf =>
      obtain ⟨present, one, two⟩ := agrees
      unfold Entry.press at shows_
      dsimp only at shows_
      split at shows_
      · cases shows_
      · split at shows_
        · rename_i isEnter
          subst isEnter
          split at shows_
          · cases shows_
          · cases shows_
            exact agrees_fresh _
        · rename_i notEnter
          cases shows_
          have kept : attempt.key .confirm .confirm key =
              { attempt with second := attempt.second ++ [key] } := if_neg notEnter
          change Agrees (attempt.key .confirm .confirm key) (.confirm typed (edit buf key))
          rw [kept]
          refine ⟨present, one, ?_⟩
          dsimp only
          rw [spelled_append, two]

theorem agrees_running {attempt : Attempt} {entry : Entry} (agrees : Agrees attempt entry)
    (running : Bool) : Agrees { attempt with running := running } entry := by
  cases entry <;> exact agrees

/-- A build starts only where both buffers hold its passphrase. -/
theorem press_starts {entry : Entry} {key : KeyCode} {passphrase : String}
    (starts : entry.press key = .starts passphrase) : entry = .confirm passphrase passphrase := by
  unfold Entry.press at starts
  cases entry with
  | elsewhere => cases starts
  | first buf =>
      dsimp only at starts
      split at starts
      · cases starts
      · split at starts <;> cases starts
  | confirm typed buf =>
      dsimp only at starts
      split at starts
      · cases starts
      · split at starts
        · split at starts
          · rename_i same
            cases starts
            rw [same]
          · cases starts
        · cases starts

theorem passphrase_of_idle {Screen : Type} {turn : Turn Screen} (idle : turn.spawned = none) :
    turn.passphrase = none := by
  unfold Turn.passphrase
  rw [idle]

theorem passphrase_of_build {Screen : Type} {turn : Turn Screen} {job : BuildJob}
    (spawned : turn.spawned = some (.build job)) : turn.passphrase = some job.passphrase := by
  unfold Turn.passphrase
  rw [spawned]

namespace PassphraseScreen

variable {screen : PassphraseScreen} {coherent waits : screen.State → Prop}

/-- What holds of the screen and the record together. -/
structure Follows (coherent waits : screen.State → Prop) (s : screen.State × Attempt) : Prop where
  coherent : coherent s.1
  agrees : Agrees s.2 (screen.entry s.1)
  waits : s.2.running = true → waits s.1

theorem agrees_opened {attempt : Attempt} {entry : Entry} (fresh : attempt.first = [])
    (opened : entry = .first "" ∨ entry = .elsewhere) : Agrees attempt entry := by
  rcases opened with rfl | rfl
  · change "" = spelled attempt.first
    rw [fresh]
    rfl
  · trivial

/-- The turn in which a build starts. -/
theorem Prompts.spawns (prompts : screen.Prompts coherent waits) {a : Answers} {st : screen.State}
    {key : KeyCode} {passphrase : String}
    (spawned : (screen.onKey a st key).passphrase = some passphrase) :
    screen.entry st = .confirm passphrase passphrase ∧
      ∃ next, (screen.onKey a st key).next = .stay next ∧ waits next := by
  by_cases elsewhere : screen.entry st = .elsewhere
  · rw [(prompts.elsewhere a st key elsewhere).1] at spawned
    cases spawned
  · have takes := prompts.presses a st key elsewhere
    cases effect : (screen.entry st).press key with
    | leave =>
        rw [effect] at takes
        rw [passphrase_of_idle takes.2] at spawned
        cases spawned
    | shows entry =>
        rw [effect] at takes
        rw [passphrase_of_idle takes.1] at spawned
        cases spawned
    | starts typed =>
        rw [effect] at takes
        obtain ⟨job, next, started, same, stays, _, waiting⟩ := takes
        rw [passphrase_of_build started, same] at spawned
        cases spawned
        exact ⟨press_starts effect, next, stays, waiting⟩

/-- A key that the entry answers with an empty first prompt starts over. -/
theorem Prompts.startsOver (prompts : screen.Prompts coherent waits) (a : Answers)
    {st : screen.State} {key : KeyCode} (prompting : screen.entry st ≠ .elsewhere)
    (again : (screen.entry st).press key = .shows (.first "")) :
    screen.StartsOver (screen.onKey a st key) := by
  have takes := prompts.presses a st key prompting
  rw [again] at takes
  exact takes

theorem Prompts.follows_key (prompts : screen.Prompts coherent waits) {a : Answers}
    {st next : screen.State} {attempt : Attempt} {key : KeyCode}
    (follows : Follows coherent waits (st, attempt))
    (stays : (screen.onKey a st key).next = .stay next) :
    Follows coherent waits (next, { attempt.key (screen.prompt st) (screen.prompt next) key with
      running := attempt.running || (screen.onKey a st key).passphrase.isSome }) where
  coherent := prompts.kept a st key next follows.coherent stays
  agrees := by
    apply agrees_running
    by_cases elsewhere : screen.entry st = .elsewhere
    · refine agrees_opened ?_ ((prompts.elsewhere a st key elsewhere).2 next stays)
      unfold prompt
      rw [elsewhere]
      rfl
    · have takes := prompts.presses a st key elsewhere
      cases effect : (screen.entry st).press key with
      | leave =>
          rw [effect] at takes
          rw [takes.1] at stays
          cases stays
      | shows entry =>
          rw [effect] at takes
          obtain ⟨_, shown, stays', same⟩ := takes
          rw [stays] at stays'
          cases stays'
          subst same
          exact agrees_press follows.agrees elsewhere effect
      | starts passphrase =>
          rw [effect] at takes
          obtain ⟨_, shown, _, _, stays', away, _⟩ := takes
          rw [stays] at stays'
          cases stays'
          rw [away]
          trivial
  waits running := by
    by_cases before : attempt.running = true
    · obtain ⟨_, _, shown, stays', still⟩ := prompts.busy a st key (follows.waits before)
      rw [stays] at stays'
      cases stays'
      exact still
    · have spawned : (screen.onKey a st key).passphrase.isSome = true := by
        simpa [before] using running
      obtain ⟨passphrase, started⟩ := Option.isSome_iff_exists.mp spawned
      obtain ⟨_, shown, stays', waiting⟩ := prompts.spawns started
      rw [stays] at stays'
      cases stays'
      exact waiting

theorem Prompts.follows_reachable (prompts : screen.Prompts coherent waits) :
    ∀ s, screen.machine.Reachable s → Follows coherent waits s := by
  apply Machine.invariant
  · rintro _ ⟨a, rfl⟩
    obtain ⟨kept, opened⟩ := prompts.opens a
    exact ⟨kept, agrees_opened rfl opened, fun running => by cases running⟩
  · rintro ⟨st, attempt⟩ ⟨a, input⟩ next _ follows taken
    cases input with
    | key key =>
        obtain ⟨shown, stays, rfl⟩ := taken
        exact prompts.follows_key follows stays
    | drain events =>
        cases taken
        obtain ⟨kept, same⟩ := prompts.drains a st events follows.coherent
        refine ⟨kept, ?_, fun running => ?_⟩
        · apply agrees_running
          change Agrees attempt (screen.entry (screen.drain a st events))
          rw [same]
          exact follows.agrees
        · obtain ⟨running, ended⟩ := Bool.and_eq_true_iff.mp running
          exact prompts.goesOn a st events follows.coherent (follows.waits running)
            (by simpa using ended)

theorem Prompts.careful (prompts : screen.Prompts coherent waits) : screen.Careful where
  confirmed st attempt reached a key job spawned := by
    have agrees := (prompts.follows_reachable _ reached).agrees
    obtain ⟨confirming, _⟩ := prompts.spawns (passphrase_of_build spawned)
    dsimp only at agrees
    rw [confirming] at agrees
    exact agrees
  empty st attempt reached shown blank a := by
    have agrees := (prompts.follows_reachable _ reached).agrees
    unfold prompt at shown
    dsimp only at agrees
    cases entry : screen.entry st with
    | first buf =>
        rw [entry] at agrees
        have same : buf = spelled attempt.first := agrees
        refine prompts.startsOver a (by rw [entry]; exact Entry.noConfusion) ?_
        rw [entry, same, blank]
        rfl
    | confirm typed buf | elsewhere =>
        rw [entry] at shown
        cases shown
  mismatch st attempt reached shown different a := by
    have agrees := (prompts.follows_reachable _ reached).agrees
    unfold prompt at shown
    dsimp only at agrees
    cases entry : screen.entry st with
    | confirm typed buf =>
        rw [entry] at agrees
        obtain ⟨_, one, two⟩ := agrees
        refine prompts.startsOver a (by rw [entry]; exact Entry.noConfusion) ?_
        rw [entry]
        have unequal : typed ≠ buf := by
          rw [one, two]
          exact different
        exact if_neg unequal
    | first buf | elsewhere =>
        rw [entry] at shown
        cases shown
  exclusive st attempt reached running a key := by
    have follows := prompts.follows_reachable _ reached
    obtain ⟨_, idle, next, stays, _⟩ := prompts.busy a st key (follows.waits running)
    exact ⟨idle, next, stays⟩

end PassphraseScreen

/-! ## The two screens -/

namespace Build

def BuildScreen.entry (st : BuildScreen) : Entry :=
  match st.phase with
  | .passFirst buf _ => .first buf
  | .passConfirm first buf => .confirm first buf
  | .running | .done _ => .elsewhere

abbrev passphraseScreen (cfg : Config) : PassphraseScreen where
  State := BuildScreen
  Events := List BuildEvent
  opens _ := .new cfg
  onKey := onKey cfg
  drain _ st events := (st.drainEvents events).1
  ended st events := st.rx && events.any Nixnas.Tui.Build.BuildEvent.isDone
  entry := BuildScreen.entry

theorem scrollKey_phase (st : BuildScreen) (key : KeyCode) : (st.scrollKey key).phase = st.phase := by
  unfold BuildScreen.scrollKey
  split <;> rfl

theorem takes_first (cfg : Config) {st : BuildScreen} {buf : String} {error : Option String}
    (key : KeyCode) (shown : st.entry = .first buf) :
    (passphraseScreen cfg).Takes (·.phase = .running) (onKeyPassFirst st buf error key)
      ((Entry.first buf).press key) := by
  cases key with
  | esc => exact ⟨rfl, rfl⟩
  | enter =>
      refine ⟨rfl, _, rfl, ?_⟩
      change BuildScreen.entry _ = if buf.isEmpty then _ else _
      cases buf.isEmpty <;> rfl
  | char c | backspace => exact ⟨rfl, _, rfl, rfl⟩
  | delete | up | down | pageUp | pageDown | «end» | other => exact ⟨rfl, st, rfl, shown⟩

theorem takes_confirm (cfg : Config) (a : Answers) {st : BuildScreen} {typed buf : String}
    (key : KeyCode) (shown : st.entry = .confirm typed buf) :
    (passphraseScreen cfg).Takes (·.phase = .running) (onKeyPassConfirm cfg a st typed buf key)
      ((Entry.confirm typed buf).press key) := by
  cases key with
  | esc => exact ⟨rfl, rfl⟩
  | enter =>
      by_cases same : typed = buf
      · have turn : onKeyPassConfirm cfg a st typed buf .enter = st.startBuild cfg a typed :=
          if_pos same
        have effect : (Entry.confirm typed buf).press .enter = .starts typed := if_pos same
        rw [turn, effect]
        exact ⟨_, _, rfl, rfl, rfl, rfl, rfl⟩
      · have turn : onKeyPassConfirm cfg a st typed buf .enter = .stay
            { st with phase := .passFirst "" (some "Passphrases do not match — try again") } :=
          if_neg same
        have effect : (Entry.confirm typed buf).press .enter = .shows (.first "") := if_neg same
        rw [turn, effect]
        exact ⟨rfl, _, rfl, rfl⟩
  | char c | backspace => exact ⟨rfl, _, rfl, rfl⟩
  | delete | up | down | pageUp | pageDown | «end» | other => exact ⟨rfl, st, rfl, shown⟩

theorem entry_of_phase {st next : BuildScreen} (same : next.phase = st.phase) :
    next.entry = st.entry := by
  unfold BuildScreen.entry
  rw [same]

/-- Only a running build has events, and it shows no prompt. -/
theorem entry_of_drain {st : BuildScreen} (waits : st.Waits) (events : List BuildEvent) :
    (st.drainEvents events).1.entry = st.entry := by
  unfold BuildScreen.drainEvents
  by_cases live : st.rx = true
  · have away : st.entry = .elsewhere := by
      unfold BuildScreen.entry
      rw [waits.mp live]
    rw [if_pos live]
    generalize st.pane.drain events = drained
    obtain ⟨pane, calls, verdict⟩ := drained
    cases verdict with
    | none => exact entry_of_phase rfl
    | some result => cases result <;> exact away.symm
  · rw [if_neg live]

theorem waits_of_drain {st : BuildScreen} (waits : st.Waits) (events : List BuildEvent) :
    (st.drainEvents events).1.Waits := by
  by_cases live : st.rx = true
  · exact (drains waits live events).kept
  · unfold BuildScreen.drainEvents
    rw [if_neg live]
    exact waits

/-- Without the last event the build goes on. -/
theorem running_of_drain {st : BuildScreen} (waits : st.Waits) (running : st.phase = .running)
    {events : List BuildEvent} (goesOn : events.any Nixnas.Tui.Build.BuildEvent.isDone = false) :
    (st.drainEvents events).1.phase = .running := by
  have drained := drains waits (waits.mpr running) events
  rw [goesOn] at drained
  generalize st.drainEvents events = after at drained
  cases drained with
  | goesOn next calls kept same =>
      have held : next.receiver = some .build := same.trans (if_pos running)
      by_contra idle
      have silent : next.receiver = none := held_of_idle _ idle
      rw [silent] at held
      cases held

theorem prompts (cfg : Config) :
    (passphraseScreen cfg).Prompts BuildScreen.Waits (·.phase = .running) where
  opens a := ⟨(new_waits cfg).1, .inl rfl⟩
  kept a st key next waits stays := (orderly_onKey cfg a waits key).kept stays
  presses a st key prompting := by
    change (passphraseScreen cfg).Takes _ (onKey cfg a st key) (st.entry.press key)
    change st.entry ≠ .elsewhere at prompting
    unfold onKey
    cases phase : st.phase with
    | passFirst buf error =>
        have shown : st.entry = .first buf := by
          unfold BuildScreen.entry
          rw [phase]
        rw [shown]
        exact takes_first cfg key shown
    | passConfirm typed buf =>
        have shown : st.entry = .confirm typed buf := by
          unfold BuildScreen.entry
          rw [phase]
        rw [shown]
        exact takes_confirm cfg a key shown
    | running | done ok =>
        unfold BuildScreen.entry at prompting
        rw [phase] at prompting
        exact absurd rfl prompting
  elsewhere a st key away := by
    change (onKey cfg a st key).passphrase = none ∧
      ∀ next, (onKey cfg a st key).next = .stay next → next.entry = .first "" ∨ next.entry = .elsewhere
    change st.entry = .elsewhere at away
    have scrolled : (st.scrollKey key).entry = .elsewhere :=
      (entry_of_phase (scrollKey_phase st key)).trans away
    unfold onKey
    cases phase : st.phase with
    | passFirst buf error | passConfirm typed buf =>
        unfold BuildScreen.entry at away
        rw [phase] at away
        cases away
    | running =>
        refine ⟨rfl, fun next stays => ?_⟩
        cases stays
        exact .inr scrolled
    | done ok =>
        dsimp only
        split
        · exact ⟨rfl, fun _ stays => by cases stays⟩
        · exact ⟨rfl, fun _ stays => by cases stays⟩
        · refine ⟨rfl, fun next stays => ?_⟩
          cases stays
          exact .inr scrolled
  busy a st key running := by
    change st.phase = .running at running
    have turn : onKey cfg a st key = .stay (st.scrollKey key) := by
      unfold onKey
      rw [running]
    refine ⟨?_, ?_, st.scrollKey key, ?_, (scrollKey_phase st key).trans running⟩
    · change st.entry = .elsewhere
      unfold BuildScreen.entry
      rw [running]
    · exact congrArg Turn.spawned turn
    · exact congrArg Turn.next turn
  drains a st events waits := ⟨waits_of_drain waits events, entry_of_drain waits events⟩
  goesOn a st events waits running ended := by
    refine running_of_drain waits running ?_
    have live : st.rx = true := waits.mpr running
    have quiet : (st.rx && events.any Nixnas.Tui.Build.BuildEvent.isDone) = false := ended
    rwa [live, Bool.true_and] at quiet

end Build

namespace BuildFlash

def BuildFlowScreen.entry (st : BuildFlowScreen) : Entry :=
  match st.stage with
  | .passFirst buf _ => .first buf
  | .passConfirm first buf => .confirm first buf
  | _ => .elsewhere

abbrev passphraseScreen (configDir : String) (cfg : Config) : PassphraseScreen where
  State := BuildFlowScreen
  Events := List BuildEvent × List FlashEvent
  opens := .new cfg
  onKey := onKey configDir cfg
  drain a st events := (st.drainEvents a events).1
  ended st events := st.buildRx && events.1.any Nixnas.Tui.Build.BuildEvent.isDone
  entry := BuildFlowScreen.entry

section Flow

variable (configDir : String) (cfg : Config)

theorem takes_first {st : BuildFlowScreen} {buf : String} {error : Option String} (key : KeyCode)
    (shown : st.entry = .first buf) :
    (passphraseScreen configDir cfg).Takes (·.stage = .building) (onKeyPassFirst st buf error key)
      ((Entry.first buf).press key) := by
  cases key with
  | esc => exact ⟨rfl, rfl⟩
  | enter =>
      refine ⟨rfl, _, rfl, ?_⟩
      change BuildFlowScreen.entry _ = if buf.isEmpty then _ else _
      cases buf.isEmpty <;> rfl
  | char c | backspace => exact ⟨rfl, _, rfl, rfl⟩
  | delete | up | down | pageUp | pageDown | «end» | other => exact ⟨rfl, st, rfl, shown⟩

theorem takes_confirm (a : Answers) {st : BuildFlowScreen} {typed buf : String} (key : KeyCode)
    (shown : st.entry = .confirm typed buf) :
    (passphraseScreen configDir cfg).Takes (·.stage = .building)
      (onKeyPassConfirm cfg a st typed buf key) ((Entry.confirm typed buf).press key) := by
  cases key with
  | esc => exact ⟨rfl, rfl⟩
  | enter =>
      by_cases same : typed = buf
      · have turn : onKeyPassConfirm cfg a st typed buf .enter = st.startBuild cfg a typed :=
          if_pos same
        have effect : (Entry.confirm typed buf).press .enter = .starts typed := if_pos same
        rw [turn, effect]
        exact ⟨_, _, rfl, rfl, rfl, rfl, rfl⟩
      · have turn : onKeyPassConfirm cfg a st typed buf .enter = .stay
            { st with stage := .passFirst "" (some "Passphrases do not match — try again") } :=
          if_neg same
        have effect : (Entry.confirm typed buf).press .enter = .shows (.first "") := if_neg same
        rw [turn, effect]
        exact ⟨rfl, _, rfl, rfl⟩
  | char c | backspace => exact ⟨rfl, _, rfl, rfl⟩
  | delete | up | down | pageUp | pageDown | «end» | other => exact ⟨rfl, st, rfl, shown⟩

/-- The turn starts no build, and a prompt that it opens is the first one, empty. -/
def Aside (turn : Turn BuildFlowScreen) : Prop :=
  turn.passphrase = none ∧ ∀ next, turn.next = .stay next →
    next.entry = .first "" ∨ next.entry = .elsewhere

theorem aside_home : Aside .home := ⟨rfl, fun _ stays => by cases stays⟩

theorem aside_stay {next : BuildFlowScreen}
    (entry : next.entry = .first "" ∨ next.entry = .elsewhere) : Aside (.stay next) := by
  refine ⟨rfl, fun shown stays => ?_⟩
  cases stays
  exact entry

theorem aside_armFlash (a : Answers) {st : BuildFlowScreen} (elev : Nixnas.Tui.Sudo.Elevation)
    (away : st.entry = .elsewhere) : Aside (st.armFlash configDir a elev) := by
  unfold BuildFlowScreen.armFlash
  split
  · refine ⟨rfl, fun next stays => ?_⟩
    cases stays
    exact .inr rfl
  · exact aside_stay (.inr away)

theorem aside_pickDevice (a : Answers) {st : BuildFlowScreen} (key : KeyCode)
    (picking : st.stage = .pickDevice) : Aside (onKeyPickDevice a st key) := by
  have kept : ∀ next : BuildFlowScreen, next.stage = st.stage → Aside (.stay next) := by
    intro next same
    refine aside_stay (.inr ?_)
    unfold BuildFlowScreen.entry
    rw [same, picking]
  unfold onKeyPickDevice
  split
  · exact aside_home
  · exact kept _ rfl
  · exact kept _ rfl
  · exact kept _ rfl
  · exact kept _ rfl
  · exact kept _ rfl
  · split
    · exact kept _ rfl
    · split
      · exact kept _ rfl
      · split
        · exact aside_stay (.inl rfl)
        · exact kept _ rfl
  · exact kept _ rfl

theorem aside_submit (a : Answers) {st : BuildFlowScreen} (typed : String) (error : Option String) :
    Aside (submitFlashConfirm configDir a st typed error) := by
  unfold submitFlashConfirm
  split
  · exact aside_stay (.inr rfl)
  · split
    · split
      · exact aside_armFlash configDir a _ rfl
      · exact aside_stay (.inr rfl)
      · exact aside_stay (.inr rfl)
    · exact aside_stay (.inr rfl)

theorem aside_sudo (a : Answers) {st : BuildFlowScreen} (buf : String) (error : Option String)
    (key : KeyCode) (away : st.entry = .elsewhere) :
    Aside (onKeyFlashSudo configDir a st buf error key) := by
  unfold onKeyFlashSudo
  split
  · exact aside_stay (.inr rfl)
  · split
    · exact aside_armFlash configDir a _ rfl
    · exact aside_stay (.inr rfl)
    · exact aside_stay (.inr rfl)
    · exact aside_stay (.inr rfl)
  · exact aside_stay (.inr rfl)
  · exact aside_stay (.inr rfl)
  · exact aside_stay (.inr away)

theorem aside_onKey (a : Answers) {st : BuildFlowScreen} (key : KeyCode)
    (away : st.entry = .elsewhere) : Aside (onKey configDir cfg a st key) := by
  unfold onKey
  cases stage : st.stage with
  | passFirst buf error | passConfirm typed buf =>
      unfold BuildFlowScreen.entry at away
      rw [stage] at away
      cases away
  | unavailable | done ok =>
      cases key <;> first | exact aside_home | exact aside_stay (.inr away)
  | pickDevice => exact aside_pickDevice a key stage
  | building =>
      obtain ⟨follow, scroll, same⟩ := onKeyBuilding_scrolls st key
      dsimp only
      rw [same]
      exact aside_stay (.inr away)
  | flashReview =>
      cases key with
      | esc => exact aside_home
      | enter =>
          refine aside_stay (.inr ?_)
          split
          · rfl
          · exact away
      | _ => exact aside_stay (.inr away)
  | flashBackupAsk =>
      dsimp only
      unfold onKeyFlashBackupAsk
      split <;> first | exact aside_stay (.inr rfl) | exact aside_stay (.inr away)
  | flashConfirm typed error =>
      cases key with
      | enter => exact aside_submit configDir a typed error
      | esc | backspace | char c => exact aside_stay (.inr rfl)
      | _ => exact aside_stay (.inr away)
  | flashSudo buf error => exact aside_sudo configDir a buf error key away
  | flashing => exact aside_stay (.inr away)

end Flow

theorem drainFlash_of_silent {st : BuildFlowScreen} (silent : st.flashRx = false)
    (events : List FlashEvent) : (st.drainFlash events).1 = st := by
  unfold BuildFlowScreen.drainFlash
  rw [silent]
  rfl

/-- A drain is about the one worker that runs, if any. -/
theorem drainEvents_cases (a : Answers) {st : BuildFlowScreen} (waits : st.Waits)
    (events : List BuildEvent × List FlashEvent) :
    (st.buildRx = true ∧ (st.drainEvents a events).1 = (st.drainBuild a events.1).1) ∨
    (st.flashRx = true ∧ (st.drainEvents a events).1 = (st.drainFlash events.2).1) ∨
    (st.drainEvents a events).1 = st := by
  have whole : (st.drainEvents a events).1 = ((st.drainBuild a events.1).1.drainFlash events.2).1 := rfl
  rw [whole]
  cases build : st.buildRx with
  | true =>
      have silent : st.flashRx = false := by
        by_contra both
        have flashing := waits.flash.mp (by simpa using both)
        rw [waits.build.mp build] at flashing
        cases flashing
      refine .inl ⟨rfl, drainFlash_of_silent ?_ events.2⟩
      rw [drainBuild_flashRx]
      exact silent
  | false =>
      have same : (st.drainBuild a events.1).1 = st := by
        unfold BuildFlowScreen.drainBuild
        rw [build]
        rfl
      rw [same]
      cases flash : st.flashRx with
      | true => exact .inr (.inl ⟨rfl, rfl⟩)
      | false => exact .inr (.inr (drainFlash_of_silent flash events.2))

theorem entry_of_drain (a : Answers) {st : BuildFlowScreen} (waits : st.Waits)
    (events : List BuildEvent × List FlashEvent) :
    (st.drainEvents a events).1.entry = st.entry := by
  rcases drainEvents_cases a waits events with ⟨live, whole⟩ | ⟨live, whole⟩ | whole
  · have away : st.entry = .elsewhere := by
      unfold BuildFlowScreen.entry
      rw [waits.build.mp live]
    rw [whole, away]
    obtain ⟨_, pane, same⟩ | ⟨_, pane, ⟨image, size, same⟩ | ⟨e, same⟩⟩ :=
      drainBuild_cases a st events.1 <;> rw [same]
    · exact away
    · rfl
    · rfl
  · have away : st.entry = .elsewhere := by
      unfold BuildFlowScreen.entry
      rw [waits.flash.mp live]
    rw [whole, away]
    obtain ⟨_, title, progress, same⟩ | ⟨_, title, progress, msg, ok, same⟩ :=
      drainFlash_cases st events.2 <;> rw [same]
    · exact away
    · rfl
  · rw [whole]

theorem waits_of_drain (a : Answers) {st : BuildFlowScreen} (waits : st.Waits)
    (events : List BuildEvent × List FlashEvent) : (st.drainEvents a events).1.Waits := by
  rcases drainEvents_cases a waits events with ⟨live, whole⟩ | ⟨live, whole⟩ | whole
  · rw [whole]
    exact (drainsBuild a waits live events.1).kept
  · rw [whole]
    exact (drainsFlash waits live events.2).kept
  · rw [whole]
    exact waits

/-- Without the last event the build goes on. -/
theorem building_of_drain (a : Answers) {st : BuildFlowScreen} (waits : st.Waits)
    (building : st.stage = .building) {events : List BuildEvent × List FlashEvent}
    (goesOn : (st.buildRx && events.1.any Nixnas.Tui.Build.BuildEvent.isDone) = false) :
    (st.drainEvents a events).1.stage = .building := by
  rcases drainEvents_cases a waits events with ⟨live, whole⟩ | ⟨live, whole⟩ | whole
  · rw [whole]
    rcases drainBuild_cases a st events.1 with ⟨_, pane, same⟩ | ⟨ended, _⟩
    · rw [same]
      exact building
    · rw [goesOn] at ended
      cases ended
  · rw [waits.flash.mp live] at building
    cases building
  · rw [whole]
    exact building

theorem prompts (configDir : String) (cfg : Config) :
    (passphraseScreen configDir cfg).Prompts BuildFlowScreen.Waits (·.stage = .building) where
  opens a := by
    refine ⟨(new_waits cfg a).1, .inr ?_⟩
    change BuildFlowScreen.entry (.new cfg a) = .elsewhere
    unfold BuildFlowScreen.new BuildFlowScreen.entry
    cases cfg.hostAttr.isSome <;> rfl
  kept a st key next waits stays := (orderly_onKey configDir cfg a waits key).kept stays
  presses a st key prompting := by
    change (passphraseScreen configDir cfg).Takes _ (onKey configDir cfg a st key) (st.entry.press key)
    change st.entry ≠ .elsewhere at prompting
    unfold onKey
    cases stage : st.stage with
    | passFirst buf error =>
        have shown : st.entry = .first buf := by
          unfold BuildFlowScreen.entry
          rw [stage]
        rw [shown]
        exact takes_first configDir cfg key shown
    | passConfirm typed buf =>
        have shown : st.entry = .confirm typed buf := by
          unfold BuildFlowScreen.entry
          rw [stage]
        rw [shown]
        exact takes_confirm configDir cfg a key shown
    | _ =>
        unfold BuildFlowScreen.entry at prompting
        rw [stage] at prompting
        exact absurd rfl prompting
  elsewhere a st key away := aside_onKey configDir cfg a key away
  busy a st key building := by
    change st.stage = .building at building
    obtain ⟨follow, scroll, scrolls⟩ := onKeyBuilding_scrolls st key
    have dispatched : onKey configDir cfg a st key = onKeyBuilding st key := by
      unfold onKey
      rw [building]
    have turn := dispatched.trans scrolls
    refine ⟨?_, ?_, { st with follow := follow, scroll := scroll }, ?_, building⟩
    · change st.entry = .elsewhere
      unfold BuildFlowScreen.entry
      rw [building]
    · exact congrArg Turn.spawned turn
    · exact congrArg Turn.next turn
  drains a st events waits := ⟨waits_of_drain a waits events, entry_of_drain a waits events⟩
  goesOn a st events waits building ended := building_of_drain a waits building ended

end BuildFlash

/-- On both screens a build gets exactly what was typed twice, and nothing else starts
one or comes in between. -/
theorem passphrases_careful (configDir : String) (cfg : Config) :
    (Build.passphraseScreen cfg).Careful ∧ (BuildFlash.passphraseScreen configDir cfg).Careful :=
  ⟨(Build.prompts cfg).careful, (BuildFlash.prompts configDir cfg).careful⟩

end Nixnas.Ui
