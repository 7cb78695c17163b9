import Nixnas.Ui.BuildFlashGate
import Nixnas.Ui.Process

/-!
# Quitting during a build

A build worker that has not reported its end keeps its screen on display, with
Esc inert, so that HOME and its ways to quit are out of reach.  What remains is
Ctrl+C, which stops the worker between two operations and leaves its secrets.
-/

set_option autoImplicit false

namespace Nixnas.Ui

open Nixnas.Logic Nixnas.Logic.Action
open Nixnas.Tui.Build
open Nixnas.Tui.Flash

/-! ## The screens of a running build -/

/-- The one key of the Build screen that spawns: Enter on two equal entries. -/
theorem Build.spawned_cases {cfg : Config} {a : Answers} {st : Build.BuildScreen} {key : KeyCode}
    {worker : Worker} (spawns : (Build.onKey cfg a st key).spawned = some worker) :
    ∃ passphrase, st.phase = .passConfirm passphrase passphrase ∧ key = .enter ∧
      Build.onKey cfg a st key = st.startBuild cfg a passphrase := by
  unfold Build.onKey at spawns
  split at spawns
  · unfold Build.onKeyPassFirst at spawns
    split at spawns <;> cases spawns
  · rename_i first buf typing
    unfold Build.onKeyPassConfirm at spawns
    split at spawns <;> try cases spawns
    split at spawns
    · rename_i same
      subst same
      refine ⟨first, typing, rfl, ?_⟩
      unfold Build.onKey
      rw [typing]
      exact if_pos rfl
    · cases spawns
  · cases spawns
  · split at spawns <;> cases spawns

/-- The same of the Build & Flash screen. -/
theorem BuildFlash.build_spawned_cases {configDir : String} {cfg : Config} {a : Answers}
    {st : BuildFlash.BuildFlowScreen} {key : KeyCode} {job : BuildJob}
    (spawns : (BuildFlash.onKey configDir cfg a st key).spawned = some (.build job)) :
    ∃ passphrase, st.stage = .passConfirm passphrase passphrase ∧ key = .enter ∧
      BuildFlash.onKey configDir cfg a st key = st.startBuild cfg a passphrase := by
  have flashes : ∀ elev st, (BuildFlash.BuildFlowScreen.armFlash configDir a st elev).spawned ≠
      some (.build job) := by
    intro elev st armed
    obtain ⟨_, _, _, _, _, _, made⟩ := BuildFlash.armFlash_spawned configDir a armed
    cases made
  unfold BuildFlash.onKey at spawns
  split at spawns
  · split at spawns <;> cases spawns
  · split at spawns <;> cases spawns
  · unfold BuildFlash.onKeyPickDevice at spawns
    split at spawns <;> try cases spawns
    split at spawns <;> try cases spawns
    split at spawns <;> try cases spawns
    split at spawns <;> cases spawns
  · unfold BuildFlash.onKeyPassFirst at spawns
    split at spawns <;> cases spawns
  · rename_i first buf typing
    unfold BuildFlash.onKeyPassConfirm at spawns
    split at spawns <;> try cases spawns
    split at spawns
    · rename_i same
      subst same
      refine ⟨first, typing, rfl, ?_⟩
      unfold BuildFlash.onKey
      rw [typing]
      exact if_pos rfl
    · cases spawns
  · unfold BuildFlash.onKeyBuilding at spawns
    split at spawns <;> cases spawns
  · unfold BuildFlash.onKeyFlashReview at spawns
    split at spawns <;> cases spawns
  · unfold BuildFlash.onKeyFlashBackupAsk at spawns
    split at spawns <;> cases spawns
  · obtain ⟨rfl, submits⟩ := BuildFlash.onKeyFlashConfirm_spawned configDir a spawns
    unfold BuildFlash.submitFlashConfirm at submits
    split at submits <;> try cases submits
    split at submits <;> try cases submits
    split at submits <;> try cases submits
    exact absurd submits (flashes _ _)
  · unfold BuildFlash.onKeyFlashSudo at spawns
    split at spawns <;> try cases spawns
    split at spawns <;> try cases spawns
    exact absurd spawns (flashes _ _)
  · cases spawns

theorem BuildFlash.drainBuild_building (a : Answers) {st : BuildFlash.BuildFlowScreen}
    {events : List BuildEvent} (building : st.stage = .building)
    (goesOn : (st.buildRx && events.any BuildEvent.isDone) = false) :
    (st.drainBuild a events).1.stage = .building := by
  rcases BuildFlash.drainBuild_cases a st events with ⟨_, pane, same⟩ | ⟨ended, _⟩
  · rw [same]
    exact building
  · rw [goesOn] at ended
    cases ended

theorem Build.drainEvents_running {st : Build.BuildScreen} {events : List BuildEvent}
    (running : st.phase = .running)
    (goesOn : (st.rx && events.any BuildEvent.isDone) = false) :
    (st.drainEvents events).1.phase = .running := by
  unfold Build.BuildScreen.drainEvents
  by_cases live : st.rx = true
  · rw [live, Bool.true_and, ← Build.foldBuildEvents_verdict st.steps st.log] at goesOn
    rw [if_pos live]
    unfold Build.Pane.drain Build.BuildScreen.pane
    simp only
    revert goesOn
    generalize Build.foldBuildEvents st.steps st.log events = folded
    obtain ⟨steps, lines, calls, verdict⟩ := folded
    intro goesOn
    cases verdict with
    | none => exact running
    | some result => cases goesOn
  · rw [if_neg live]
    exact running

section App

variable {Configure Verify S : Type}

/-- The screen of a running build is shown. -/
def Attended (app : App Configure Verify) : Prop :=
  (app.screen = .build ∧ ∃ st, app.build = some st ∧ st.phase = .running) ∨
    (app.screen = .buildFlash ∧ ∃ st, app.buildflash = some st ∧ st.stage = .building)

/-- Every Build & Flash screen is one that its gates reach. -/
def Sound (app : App Configure Verify) : Prop :=
  ∀ st, app.buildflash = some st → ∃ w, BuildFlash.Follows st w

theorem takeTurn_ok {app next : App Configure Verify} {a : Answers}
    {put : App Configure Verify → Option S → App Configure Verify} {turn : Turn S}
    {spawned : Option Worker} (taken : app.takeTurn a put turn = .ok (next, spawned)) :
    spawned = turn.spawned ∧
      ((∃ st, turn.next = .stay st ∧ next = put (app.logged a turn.calls) (some st)) ∨
        (turn.next = .home ∧ next = { put (app.logged a turn.calls) none with screen := .home })) := by
  unfold App.takeTurn at taken
  cases shown : turn.next with
  | stay st =>
      rw [shown] at taken
      cases taken
      exact ⟨rfl, Or.inl ⟨st, rfl, rfl⟩⟩
  | home =>
      rw [shown] at taken
      cases taken
      exact ⟨rfl, Or.inr ⟨rfl, rfl⟩⟩
  | panic message =>
      rw [shown] at taken
      cases taken

/-- A turn that stays. -/
theorem takeTurn_stay {app : App Configure Verify} {a : Answers}
    {put : App Configure Verify → Option S → App Configure Verify} {turn : Turn S} {st : S}
    (stays : turn.next = .stay st) :
    app.takeTurn a put turn = .ok (put (app.logged a turn.calls) (some st), turn.spawned) := by
  unfold App.takeTurn
  rw [stays]

variable {others : Others Configure Verify} {configDir : String} {a : Answers}
  {app next : App Configure Verify} {key : KeyCode} {control : Bool}

/-- A key that starts a build leaves its screen on display. -/
theorem attended_of_spawn {job : BuildJob}
    (reacts : app.screenKey others configDir a key = .ok (next, some (.build job))) :
    Attended next := by
  unfold App.screenKey at reacts
  split at reacts
  · cases reacts
  · split at reacts
    · cases reacts
    · obtain ⟨spawned, -⟩ := takeTurn_ok reacts
      cases spawned
  · rename_i shown
    split at reacts
    · cases reacts
    · rename_i st _
      obtain ⟨spawned, kept⟩ := takeTurn_ok reacts
      obtain ⟨_, _, _, turn⟩ := BuildFlash.build_spawned_cases spawned.symm
      rcases kept with ⟨after, stays, rfl⟩ | ⟨leaves, -⟩
      · rw [turn] at stays
        cases stays
        exact Or.inr ⟨shown, _, rfl, rfl⟩
      · rw [turn] at leaves
        cases leaves
  · rename_i shown
    split at reacts
    · cases reacts
    · rename_i st _
      obtain ⟨spawned, kept⟩ := takeTurn_ok reacts
      obtain ⟨_, _, _, turn⟩ := Build.spawned_cases spawned.symm
      rcases kept with ⟨after, stays, rfl⟩ | ⟨leaves, -⟩
      · rw [turn] at stays
        cases stays
        exact Or.inl ⟨shown, _, rfl, rfl⟩
      · rw [turn] at leaves
        cases leaves
  · split at reacts
    · cases reacts
    · obtain ⟨spawned, -⟩ := takeTurn_ok reacts
      obtain ⟨_, _, _, _, _, _, made, _⟩ := Flash.spawned_cases configDir a spawned.symm
      cases made
  · split at reacts
    · cases reacts
    · obtain ⟨spawned, -⟩ := takeTurn_ok reacts
      cases spawned

/-- The keys of the screen of a running build keep it on display, spawn nothing
and leave the flag alone. -/
theorem attended_screenKey (others : Others Configure Verify) (configDir : String) (a : Answers)
    (key : KeyCode) (attended : Attended app) :
    ∃ next, app.screenKey others configDir a key = .ok (next, none) ∧ Attended next ∧
      next.quit = app.quit := by
  rcases attended with ⟨shown, st, open_, running⟩ | ⟨shown, st, open_, building⟩
  · have turn : Build.onKey app.cfg a st key = .stay (st.scrollKey key) := by
      unfold Build.onKey
      rw [running]
    have same : (st.scrollKey key).phase = .running := by
      unfold Build.BuildScreen.scrollKey
      split <;> exact running
    refine ⟨{ app.logged a [] with build := some (st.scrollKey key) }, ?_,
      Or.inl ⟨shown, st.scrollKey key, rfl, same⟩, rfl⟩
    unfold App.screenKey
    simp only [shown, open_]
    rw [turn]
    exact takeTurn_stay rfl
  · have turn : BuildFlash.onKey configDir app.cfg a st key = BuildFlash.onKeyBuilding st key := by
      unfold BuildFlash.onKey
      rw [building]
    obtain ⟨follow, scroll, stays⟩ := BuildFlash.onKeyBuilding_scrolls st key
    refine ⟨{ app.logged a [] with
      buildflash := some { st with follow := follow, scroll := scroll } }, ?_,
      Or.inr ⟨shown, _, rfl, building⟩, rfl⟩
    unfold App.screenKey
    simp only [shown, open_]
    rw [turn, stays]
    exact takeTurn_stay rfl

theorem requestQuit_home (shown : app.screen = .home) : app.requestQuit.screen = .home := by
  unfold App.requestQuit
  split <;> exact shown

theorem openEntry_cases :
    (app.openEntry others configDir a).quit = app.quit ∨
      app.openEntry others configDir a = app.requestQuit := by
  unfold App.openEntry
  split
  · exact Or.inl rfl
  · exact Or.inl rfl
  · exact Or.inl rfl
  · exact Or.inl rfl
  · split <;> exact Or.inl rfl
  · split <;> exact Or.inl rfl
  · exact Or.inr rfl

theorem logged_quit (calls : List LogCall) : (app.logged a calls).quit = app.quit := rfl

/-- Only HOME sets the flag for the menu. -/
theorem home_of_menu {spawned : Option Worker} (open_ : app.quit = none)
    (reacts : app.screenKey others configDir a key = .ok (next, spawned))
    (left : next.quit = some .menu) : next.screen = .home := by
  have unmoved : ∀ {S : Type} {st : App Configure Verify}
      {put : App Configure Verify → Option S → App Configure Verify} {turn : Turn S},
      st.quit = none → (∀ app slot, (put app slot).quit = app.quit) →
      st.takeTurn a put turn ≠ .ok (next, spawned) := by
    intro S st put turn running keeps taken
    obtain ⟨-, ⟨after, -, rfl⟩ | ⟨-, rfl⟩⟩ := takeTurn_ok taken
    · rw [keeps, logged_quit, running] at left
      cases left
    · change (put (st.logged a turn.calls) none).quit = some .menu at left
      rw [keeps, logged_quit, running] at left
      cases left
  have dropped : app.quit ≠ some .menu := by
    rw [open_]
    exact fun impossible => by cases impossible
  unfold App.screenKey at reacts
  split at reacts
  · rename_i shown
    cases reacts
    unfold App.homeKey at left ⊢
    split
    · unfold App.exitPromptKey
      split <;> exact shown
    · rename_i noPrompt
      rw [if_neg noPrompt] at left
      split at left <;> try exact absurd left dropped
      · exact requestQuit_home shown
      · rcases openEntry_cases with same | quits
        · rw [same] at left
          exact absurd left dropped
        · rw [quits] at left ⊢
          exact requestQuit_home shown
  -- The other screens: their keys write their slot and, at most, the configuration.
  all_goals
    split at reacts
    · cases reacts
      exact absurd left dropped
    · exact absurd reacts (unmoved open_ fun _ _ => rfl)

/-- A drain keeps the screen of a running build on display until it has pulled
the worker's last event. -/
theorem attended_drain (attended : Attended app) (sound : Sound app) (events : List BuildEvent)
    (flash : List FlashEvent)
    (goesOn : (app.hearsBuild && events.any BuildEvent.isDone) = false) :
    Attended (app.drain others a events flash) := by
  rcases attended with ⟨shown, st, open_, running⟩ | ⟨shown, st, open_, building⟩
  · have quiet : (st.rx && events.any BuildEvent.isDone) = false := by
      cases live : st.rx with
      | false => rfl
      | true =>
          have heard : app.hearsBuild = true := by
            unfold App.hearsBuild
            rw [open_, Option.any_some, live, Bool.or_true]
          rw [heard] at goesOn
          exact goesOn
    refine Or.inl ⟨shown, (st.drainEvents events).1, ?_, Build.drainEvents_running running quiet⟩
    unfold App.drain
    rw [open_]
    rfl
  · have quiet : (st.buildRx && events.any BuildEvent.isDone) = false := by
      cases live : st.buildRx with
      | false => rfl
      | true =>
          have heard : app.hearsBuild = true := by
            unfold App.hearsBuild
            rw [open_, Option.any_some, live, Bool.true_or]
          rw [heard] at goesOn
          exact goesOn
    refine Or.inr ⟨shown, (st.drainEvents a (events, flash)).1, ?_, ?_⟩
    · unfold App.drain
      rw [open_]
      rfl
    · obtain ⟨w, follows⟩ := sound st open_
      have stage := follows.2
      rw [building] at stage
      have noFlash : (st.drainBuild a events).1.flashRx = false := by
        rw [BuildFlash.drainBuild_flashRx]
        exact stage.2.1
      have kept := BuildFlash.drainBuild_building a building quiet
      change ((st.drainBuild a events).1.drainFlash flash).1.stage = .building
      unfold BuildFlash.BuildFlowScreen.drainFlash
      rw [if_neg (by rw [noFlash]; decide)]
      exact kept

theorem sound_drain (sound : Sound app) (events : List BuildEvent) (flash : List FlashEvent) :
    Sound (app.drain others a events flash) := by
  intro st shown
  change (app.buildflash.map fun st => (st.drainEvents a (events, flash)).1) = some st at shown
  obtain ⟨before, open_, rfl⟩ := Option.map_eq_some_iff.mp shown
  obtain ⟨w, follows⟩ := sound before open_
  exact ⟨_, BuildFlash.follows_drain a follows (events, flash)⟩

theorem sound_homeKey (sound : Sound app) : Sound (app.homeKey others configDir a key) := by
  have requested : Sound app.requestQuit := by
    unfold App.requestQuit
    split <;> exact sound
  unfold App.homeKey
  split
  · unfold App.exitPromptKey
    split <;> exact sound
  · split <;> try exact sound
    · exact requested
    · unfold App.openEntry
      split <;> try exact sound
      · intro shown same
        cases same
        split
        · rename_i st open_
          split
          · exact sound st open_
          · exact ⟨_, BuildFlash.follows_new app.cfg a⟩
        · exact ⟨_, BuildFlash.follows_new app.cfg a⟩
      · split <;> exact sound
      · split <;> exact sound
      · exact requested

theorem sound_screenKey {spawned : Option Worker} (sound : Sound app)
    (reacts : app.screenKey others configDir a key = .ok (next, spawned)) : Sound next := by
  have elsewhere : ∀ {S : Type} {st : App Configure Verify}
      {put : App Configure Verify → Option S → App Configure Verify} {turn : Turn S},
      st.takeTurn a put turn = .ok (next, spawned) → st.buildflash = app.buildflash →
      (∀ app slot, (put app slot).buildflash = app.buildflash) → Sound next := by
    intro S st put turn taken same keeps shown open_
    obtain ⟨-, ⟨after, -, rfl⟩ | ⟨-, rfl⟩⟩ := takeTurn_ok taken
    · rw [keeps] at open_
      exact sound shown (same ▸ open_)
    · change (put (st.logged a turn.calls) none).buildflash = some shown at open_
      rw [keeps] at open_
      exact sound shown (same ▸ open_)
  unfold App.screenKey at reacts
  split at reacts
  · cases reacts
    exact sound_homeKey sound
  · split at reacts
    · cases reacts
      exact sound
    · exact elsewhere reacts rfl fun _ _ => rfl
  · split at reacts
    · cases reacts
      exact sound
    · rename_i st open_
      obtain ⟨w, follows⟩ := sound st open_
      obtain ⟨-, ⟨after, stays, rfl⟩ | ⟨-, rfl⟩⟩ := takeTurn_ok reacts
      · intro shown same
        cases same
        have taken : (BuildFlash.screen configDir app.cfg).machine.step (st, w) (a, .key key)
            (after, _) := ⟨after, stays, rfl⟩
        exact ⟨_, BuildFlash.follows_step follows taken⟩
      · intro shown impossible
        cases impossible
  · split at reacts
    · cases reacts
      exact sound
    · exact elsewhere reacts rfl fun _ _ => rfl
  · split at reacts
    · cases reacts
      exact sound
    · exact elsewhere reacts rfl fun _ _ => rfl
  · split at reacts
    · cases reacts
      exact sound
    · exact elsewhere reacts rfl fun _ _ => rfl

end App

namespace Process

section Runs

variable {Configure Verify : Type} {others : Others Configure Verify} {s : Setting}

/-- How the worker and the screens go together. -/
structure Watched (s : Setting) (p : Process Configure Verify) : Prop where
  sound : Sound p.app
  single : p.overlap = false
  fresh : ∀ r, p.worker = some r → r.start.events = []
  attended : ∀ r, p.worker = some r → r.reported = false → Attended p.app
  returned : ∀ r, p.worker = some r → r.reported = true → (r.outcome s).returned ≠ none
  menu : p.app.quit = some .menu → p.app.screen = .home
  exit : ∀ cause, p.exit = some (.quit cause) → p.app.quit = some cause
  panic : p.exit = some .panic → ¬ Attended p.app

theorem watched_start (cfg : Config) (w : World) :
    Watched s (start cfg w : Process Configure Verify) where
  sound st impossible := by cases impossible
  single := rfl
  fresh r impossible := by cases impossible
  attended r impossible := by cases impossible
  returned r impossible := by cases impossible
  menu impossible := by cases impossible
  exit cause impossible := by cases impossible
  panic impossible := by cases impossible

theorem not_attended_home {app : App Configure Verify} (shown : app.screen = .home) :
    ¬ Attended app := by
  rintro (⟨other, _⟩ | ⟨other, _⟩) <;> rw [shown] at other <;> cases other

theorem watched_key {p : Process Configure Verify} (watched : Watched s p) (a : Answers)
    (b : Tui.Build.Answers) {key : KeyCode} {app : App Configure Verify}
    {spawned : Option Worker} (open_ : p.app.quit = none) (alive : p.exit = none)
    (reacts : p.app.screenKey others s.base a key = .ok (app, spawned)) :
    Watched s ({ p with app := app }.spawn s b spawned) := by
  have sound := sound_screenKey watched.sound reacts
  have menu := home_of_menu open_ reacts
  have exits : ∀ cause, p.exit = some (.quit cause) → app.quit = some cause := by
    intro cause impossible
    rw [alive] at impossible
    cases impossible
  have panics : p.exit = some .panic → ¬ Attended app := by
    intro impossible
    rw [alive] at impossible
    cases impossible
  by_cases attended : Attended p.app
  · -- the running build's screen has the keyboard
    obtain ⟨next, same, kept, -⟩ :=
      attended_screenKey others s.base a key attended
    rw [same] at reacts
    cases reacts
    exact ⟨sound, watched.single, watched.fresh, fun _ _ _ => kept, watched.returned, menu, exits,
      panics⟩
  · have idle : ∀ r, p.worker = some r → r.reported = true := by
      intro r running
      cases reported : r.reported with
      | true => rfl
      | false => exact absurd (watched.attended r running reported) attended
    have kept : Watched s { p with app := app } := by
      refine ⟨sound, watched.single, watched.fresh, ?_, watched.returned, menu, exits, panics⟩
      intro r running unreported
      rw [idle r running] at unreported
      cases unreported
    cases spawned with
    | none => exact kept
    | some worker =>
        cases worker with
        | flash job => exact kept
        | build job =>
            refine ⟨sound, ?_, ?_, ?_, ?_, menu, exits, panics⟩
            · change (p.overlap || p.worker.any fun r => !r.reported) = false
              rw [watched.single, Bool.false_or]
              cases running : p.worker with
              | none => rfl
              | some r => rw [Option.any_some, idle r running]; rfl
            · intro r same
              cases same
              rfl
            · exact fun _ _ _ => attended_of_spawn reacts
            · intro r same reported
              cases same
              cases reported

theorem pulled_cases (s : Setting) {p : Process Configure Verify} {events : List BuildEvent} {r : Running}
    (same : p.pulled events = some r) :
    ∃ before, p.worker = some before ∧ r.outcome s = before.outcome s ∧
      ((p.app.hearsBuild = false ∧ r = before) ∨ (p.app.hearsBuild = true ∧
        r = { before with
          taken := before.taken + events.length
          reported := before.reported || events.any BuildEvent.isDone })) := by
  unfold pulled at same
  split at same
  · rename_i heard
    obtain ⟨before, running, rfl⟩ := Option.map_eq_some_iff.mp same
    exact ⟨before, running, rfl, Or.inr ⟨heard, rfl⟩⟩
  · rename_i unheard
    exact ⟨r, same, rfl, Or.inl ⟨(Bool.not_eq_true _).mp unheard, rfl⟩⟩

theorem watched_drain {p : Process Configure Verify} (watched : Watched s p) (a : Answers)
    (flash : List FlashEvent) (open_ : p.app.quit = none) (alive : p.exit = none) :
    Watched s { p with
      app := p.app.drain others a (p.pending s) flash, worker := p.pulled (p.pending s) } := by
  have stays : (p.app.drain others a (p.pending s) flash).quit = p.app.quit := rfl
  refine ⟨sound_drain watched.sound _ _, watched.single, ?_, ?_, ?_, ?_, ?_, ?_⟩
  · intro r same
    obtain ⟨before, running, -, ⟨-, rfl⟩ | ⟨-, rfl⟩⟩ := pulled_cases s same
    · exact watched.fresh r running
    · exact watched.fresh before running
  · intro r same unreported
    obtain ⟨before, running, -, ⟨unheard, rfl⟩ | ⟨heard, rfl⟩⟩ := pulled_cases s same
    · apply attended_drain (watched.attended r running unreported) watched.sound
      rw [unheard, Bool.false_and]
    · obtain ⟨earlier, goesOn⟩ := Bool.or_eq_false_iff.mp unreported
      apply attended_drain (watched.attended before running earlier) watched.sound
      rw [goesOn, Bool.and_false]
  · intro r same reported
    obtain ⟨before, running, outcome, ⟨-, rfl⟩ | ⟨-, rfl⟩⟩ := pulled_cases s same
    · exact watched.returned r running reported
    · rw [outcome]
      rcases Bool.or_eq_true_iff.mp reported with earlier | now
      · exact watched.returned before running earlier
      · refine returned_of_done s _ _ _ _ (watched.fresh before running) ?_
        unfold pending at now
        rw [running] at now
        obtain ⟨event, sent, isDone⟩ := List.any_eq_true.mp now
        exact List.any_eq_true.mpr ⟨event, List.mem_of_mem_drop sent, isDone⟩
  · intro left
    rw [stays, open_] at left
    cases left
  · intro cause impossible
    rw [alive] at impossible
    cases impossible
  · intro impossible
    rw [alive] at impossible
    cases impossible

theorem watched_step {p next : Process Configure Verify} {label : Label} (watched : Watched s p)
    (taken : step others s p label = some next) : Watched s next := by
  unfold step at taken
  split at taken
  · cases taken
  rename_i running
  have alive : p.exit = none := by simpa using running
  split at taken
  · rename_i a b key control
    split at taken
    · cases taken
    rename_i unset
    have open_ : p.app.quit = none := by simpa using unset
    split at taken
    · rename_i panics
      cases taken
      refine { watched with exit := ?_, panic := ?_ }
      · exact fun _ impossible => by cases impossible
      · intro _ attended
        unfold App.onKey at panics
        split at panics
        · cases panics
        · obtain ⟨_, same, -⟩ := attended_screenKey others s.base a key attended
          rw [same] at panics
          cases panics
    · rename_i app spawned reacts
      cases taken
      unfold App.onKey at reacts
      split at reacts
      · cases reacts
        refine { watched with sound := watched.sound, attended := watched.attended, menu := ?_,
                              exit := ?_, panic := ?_ }
        · exact fun impossible => by cases impossible
        · intro cause impossible
          rw [show p.exit = some (.quit cause) from impossible] at alive
          cases alive
        · intro impossible
          rw [show p.exit = some .panic from impossible] at alive
          cases alive
      · exact watched_key watched a b open_ alive reacts
  · rename_i a flash
    split at taken
    · cases taken
    rename_i unset
    cases taken
    exact watched_drain watched a flash (by simpa using unset) alive
  · cases taken
    exact { watched with
      sound := watched.sound, attended := watched.attended, panic := watched.panic }
  · split at taken
    · cases taken
    rename_i r working
    split at taken
    · cases taken
    rename_i unfinished
    cases taken
    have unreported : r.reported = false := by
      cases reported : r.reported with
      | false => rfl
      | true =>
          have returned := watched.returned r working reported
          exact absurd (Option.isSome_iff_ne_none.mpr returned) unfinished
    refine { watched with fresh := ?_, attended := ?_, returned := ?_ }
    · intro _ same
      cases same
      exact watched.fresh r working
    · intro _ same _
      cases same
      exact watched.attended r working unreported
    · intro _ same reported
      cases same
      rw [show r.reported = true from reported] at unreported
      cases unreported
  · obtain ⟨cause, left, rfl⟩ := Option.map_eq_some_iff.mp taken
    refine { watched with exit := ?_, panic := ?_ }
    · intro other same
      cases same
      exact left
    · exact fun impossible => by cases impossible
  · split at taken
    · cases taken
    cases taken
    refine { watched with exit := ?_, panic := ?_ }
    · exact fun _ impossible => by cases impossible
    · exact fun impossible => by cases impossible

theorem watched_reachable (others : Others Configure Verify) (s : Setting) (cfg : Config)
    (w : World) : ∀ p, (machine others s cfg w).Reachable p → Watched s p := by
  apply Machine.invariant
  · rintro _ rfl
    exact watched_start cfg w
  · exact fun _ _ _ _ watched taken => watched_step watched taken

/-- No two build workers ever run side by side. -/
theorem never_overlaps (others : Others Configure Verify) (s : Setting) (cfg : Config) (w : World)
    (p : Process Configure Verify) (reached : (machine others s cfg w).Reachable p) :
    p.overlap = false :=
  (watched_reachable others s cfg w p reached).single

/-- What the worker in progress was started on. -/
def origin (p : Process Configure Verify) : World ⊕ (World × Tui.Build.Answers × BuildJob) :=
  match p.worker with
  | none => .inl p.idle
  | some r => .inr (r.start, r.answers, r.job)

theorem spawn_origin (s : Setting) (p : Process Configure Verify) (b : Tui.Build.Answers)
    (spawned : Option Worker) :
    (p.spawn s b spawned).origin = p.origin ∨ ∃ job, spawned = some (.build job) ∧
      (p.spawn s b spawned).origin = .inr ({ p.world s with events := [] }, b, job) := by
  cases spawned with
  | none => exact Or.inl rfl
  | some worker =>
      cases worker with
      | flash job => exact Or.inl rfl
      | build job => exact Or.inr ⟨job, rfl, rfl⟩

/-- A worker keeps its origin; only a key starts another. -/
theorem step_origin {p next : Process Configure Verify} {label : Label}
    (taken : step others s p label = some next) :
    next.origin = p.origin ∨ ∃ a b key control app job, label = .key a b key control ∧
      p.app.onKey others s.base a key control = .ok (app, some (.build job)) ∧
      next.origin = .inr ({ p.world s with events := [] }, b, job) := by
  unfold step at taken
  split at taken
  · cases taken
  split at taken
  · rename_i a b key control
    split at taken
    · cases taken
    split at taken
    · cases taken
      exact Or.inl rfl
    · rename_i app spawned reacts
      cases taken
      rcases spawn_origin s { p with app := app } b spawned with same | ⟨job, rfl, fresh⟩
      · exact Or.inl same
      · exact Or.inr ⟨a, b, key, control, app, job, rfl, reacts, fresh⟩
  · split at taken <;> cases taken
    left
    unfold origin pulled
    cases p.app.hearsBuild <;> cases p.worker <;> rfl
  · cases taken
    exact Or.inl rfl
  · split at taken
    · cases taken
    rename_i r working
    split at taken <;> cases taken
    left
    unfold origin
    rw [working]
  · obtain ⟨cause, -, rfl⟩ := Option.map_eq_some_iff.mp taken
    exact Or.inl rfl
  · split at taken <;> cases taken
    exact Or.inl rfl

/-- Every build so far started on clean secret paths, with its own secrets covered. -/
def Clean (w : World) (p : Process Configure Verify) : Prop :=
  match p.origin with
  | .inl idle => CleansUp w idle
  | .inr (start, answers, job) => CleansUp w start ∧ Covered answers job.cfg start

/-- Unless a build is running the secret paths are clean. -/
theorem world_clean {p : Process Configure Verify} {w : World} (clean : Clean w p)
    (idle : p.building s = false) : CleansUp w (p.world s) := by
  unfold Clean origin at clean
  unfold building at idle
  unfold world
  cases working : p.worker with
  | none =>
      rw [working] at clean
      exact clean
  | some r =>
      rw [working] at clean idle
      obtain ⟨started, covered⟩ := clean
      refine started.trans (spawnBuild_cleansUp s _ _ _ _ covered ?_)
      intro running
      rw [Option.any_some, Running.outcome, running] at idle
      cases idle

/-- A build runs only while its screen is shown. -/
theorem attended_of_building {p : Process Configure Verify} (watched : Watched s p)
    (running : p.building s = true) : Attended p.app := by
  unfold building at running
  obtain ⟨r, working, unfinished⟩ := (Option.any_eq_true _ _).mp running
  apply watched.attended r working
  cases reported : r.reported with
  | false => rfl
  | true =>
      exact absurd (Option.isNone_iff_eq_none.mp unfinished) (watched.returned r working reported)

theorem clean_step {p next : Process Configure Verify} {label : Label} {w : World}
    (watched : Watched s p) (clean : Clean w p) (careful : Careful others s p label)
    (taken : step others s p label = some next) : Clean w next := by
  rcases step_origin taken with same | ⟨a, b, key, control, app, job, rfl, reacts, fresh⟩
  · unfold Clean
    rw [same]
    exact clean
  · have covered := careful a b key control app job rfl reacts
    have away : ¬ Attended p.app := by
      intro attended
      unfold App.onKey at reacts
      split at reacts
      · cases reacts
      · obtain ⟨_, kept, -⟩ :=
          attended_screenKey others s.base a key attended
        rw [kept] at reacts
        cases reacts
    have idle : p.building s = false := by
      cases running : p.building s with
      | false => rfl
      | true => exact absurd (attended_of_building watched running) away
    have before := world_clean clean idle
    unfold Clean
    rw [fresh]
    exact ⟨⟨before.files, before.pki⟩, covered.key, covered.hash, covered.pki⟩

theorem clean_reachable (others : Others Configure Verify) (s : Setting) (cfg : Config)
    (w : World) : ∀ p, ((machine others s cfg w).restrict (Careful others s)).Reachable p →
      Clean w p := by
  apply Machine.invariant
  · rintro _ rfl
    exact CleansUp.refl w
  · intro p label next reached clean taken
    have watched := watched_reachable others s cfg w p (Machine.restrict_reachable reached)
    exact clean_step watched clean taken.1 taken.2

/-- However the process ended, unless a build was running it holds no secret that
a covered build created; with a build running it ends by Ctrl+C or by an error of
the terminal. -/
theorem exit_cleansUp (others : Others Configure Verify) (s : Setting) (cfg : Config)
    (w : World) (p : Process Configure Verify) (cause : Exit)
    (reached : ((machine others s cfg w).restrict (Careful others s)).Reachable p)
    (ended : p.exit = some cause) :
    (p.building s = false → CleansUp w (p.world s)) ∧
      (p.building s = true → cause = .quit .interrupt ∨ cause = .terminalError) := by
  have watched := watched_reachable others s cfg w p (Machine.restrict_reachable reached)
  refine ⟨world_clean (clean_reachable others s cfg w p reached), ?_⟩
  intro running
  have attended := attended_of_building watched running
  cases cause with
  | quit flag =>
      cases flag with
      | interrupt => exact Or.inl rfl
      | menu => exact absurd attended (not_attended_home (watched.menu (watched.exit .menu ended)))
  | terminalError => exact Or.inr rfl
  | panic => exact absurd attended (watched.panic ended)

end Runs

/-! ## Ways out of one build -/

/-- Configure and Verify screens that only go back. -/
def plainOthers : Others Unit Unit where
  fromConfig _ := ()
  configureKey _ cfg _ _ := (.home, cfg)
  applyPicked _ st := st
  newImage _ := ()
  newInstall _ := ()
  verifyKey _ _ _ := (.home, [])
  verifyDrain _ st := st
  verifyRunning _ := false

def plainAnswers : Ui.Answers where
  listDisks := .ok []
  privileges := ⟨none, false⟩
  «sudo» := .notFound
  beginLog := none
  blockdev := none
  lsblk := none
  listing := none
  imageLen := .ok 0
  humanSize n := toString n

/-- Every operation of a build started by one of the keys succeeds. -/
def press (keys : List KeyCode) : List Label :=
  keys.map fun key => .key plainAnswers .good key false

/-- HOME, the Build entry, and the passphrase twice. -/
def startBuild : List Label :=
  press [.down, .down, .enter, .char 's', .enter, .char 's', .enter]

/-- The build runs to its end. -/
def finishBuild : List Label := startBuild ++ List.replicate 19 .work

/-- The build runs to its end, the operator backs out and quits. -/
def patientRun : List Label :=
  finishBuild ++ [.drain plainAnswers []] ++ press [.enter, .char 'q'] ++ [.leave]

/-- Ctrl+C on the screen of the finished build. -/
def doneRun : List Label :=
  finishBuild ++ [.drain plainAnswers [], .key plainAnswers .good (.char 'c') true, .leave]

/-- The terminal goes away after the worker's end, before the screen hears of it. -/
def hungUpRun : List Label := finishBuild ++ [.terminalError]

/-- Ctrl+C after the passphrase file was written. -/
def interruptedRun : List Label :=
  startBuild ++ List.replicate 4 .work ++ [.key plainAnswers .good (.char 'c') true, .leave]

def freshProcess : Process Unit Unit := start .plain World.clear

def after (labels : List Label) : Process Unit Unit :=
  (Machine.replay (step plainOthers .shm) freshProcess labels).getD freshProcess

theorem good_covered (cfg : Config) (w : World) : Covered .good cfg w :=
  ⟨fun _ => ⟨rfl, rfl⟩, fun _ => ⟨rfl, rfl, rfl⟩, fun _ => ⟨rfl, rfl⟩⟩

/-- Nothing fails in the builds that the keys start. -/
def Calm (labels : List Label) : Prop :=
  ∀ a b key control, .key a b key control ∈ labels → b = .good

theorem Calm.append {one two : List Label} (left : Calm one) (right : Calm two) :
    Calm (one ++ two) := by
  intro a b key control member
  rcases List.mem_append.mp member with here | there
  · exact left a b key control here
  · exact right a b key control there

theorem calm_press (keys : List KeyCode) : Calm (press keys) := by
  intro a b key control member
  obtain ⟨_, _, made⟩ := List.mem_map.mp member
  cases made
  rfl

theorem calm_finishBuild : Calm finishBuild := by
  refine Calm.append (calm_press _) ?_
  intro a b key control member
  cases List.eq_of_mem_replicate member

theorem careful_of_calm {Configure Verify : Type} {others : Others Configure Verify} {s : Setting}
    {p : Process Configure Verify} {label : Label} {labels : List Label} (calm : Calm labels)
    (member : label ∈ labels) : Careful others s p label := by
  intro a b key control app job same _
  subst same
  rw [calm a b key control member]
  exact good_covered job.cfg _

theorem replay_after {labels : List Label}
    (enabled : (Machine.replay (step plainOthers .shm) freshProcess labels).isSome = true) :
    Machine.replay (step plainOthers .shm) freshProcess labels = some (after labels) := by
  obtain ⟨final, run⟩ := Option.isSome_iff_exists.mp enabled
  unfold after
  rw [run]
  rfl

theorem calm_reachable {labels : List Label} (calm : Calm labels)
    (enabled : (Machine.replay (step plainOthers .shm) freshProcess labels).isSome = true) :
    ((machine plainOthers .shm .plain World.clear).restrict (Careful plainOthers .shm)).Reachable
      (after labels) :=
  Machine.restrict_reachable_of_replay (fun _ => True) labels
    (fun _ _ member _ => careful_of_calm calm member) (fun _ _ _ _ _ _ => trivial)
    freshProcess _ (.initial rfl) trivial (replay_after enabled)

theorem patientRun_calm : Calm patientRun := by
  refine ((calm_finishBuild.append ?_).append (calm_press _)).append ?_ <;>
    (intro a b key control member; simp at member)

theorem doneRun_calm : Calm doneRun := by
  refine calm_finishBuild.append ?_
  intro a b key control member
  simp only [List.mem_cons, List.not_mem_nil, or_false] at member
  rcases member with made | made | made <;> cases made
  rfl

theorem hungUpRun_calm : Calm hungUpRun := by
  refine calm_finishBuild.append ?_
  intro a b key control member
  simp at member

/-- Each of the three ways out after the worker's end leaves no secret. -/
theorem finished_runs_cleanUp :
    CleansUp World.clear ((after patientRun).world .shm) ∧
      CleansUp World.clear ((after doneRun).world .shm) ∧
      CleansUp World.clear ((after hungUpRun).world .shm) :=
  ⟨(exit_cleansUp plainOthers .shm .plain World.clear _ (.quit .menu)
      (calm_reachable patientRun_calm (by decide +kernel)) (by decide +kernel)).1
      (by decide +kernel),
    (exit_cleansUp plainOthers .shm .plain World.clear _ (.quit .interrupt)
      (calm_reachable doneRun_calm (by decide +kernel)) (by decide +kernel)).1
      (by decide +kernel),
    (exit_cleansUp plainOthers .shm .plain World.clear _ .terminalError
      (calm_reachable hungUpRun_calm (by decide +kernel)) (by decide +kernel)).1
      (by decide +kernel)⟩

theorem interruptedRun_reachable :
    (machine plainOthers .shm .plain World.clear).Reachable (after interruptedRun) :=
  Machine.Reachable.steps (.initial rfl)
    (Machine.steps_of_replay interruptedRun freshProcess _ (replay_after (by decide +kernel)))

theorem interrupt_leaves_key :
    ¬ ∀ (Configure Verify : Type) (others : Others Configure Verify) (s : Setting) (cfg : Config)
      (w : World) (p : Process Configure Verify) (cause : Quit),
      (machine others s cfg w).Reachable p → p.exit = some (.quit cause) →
        CleansUp w (p.world s) := by
  intro cleans
  have clean := cleans Unit Unit plainOthers .shm .plain World.clear (after interruptedRun)
    .interrupt interruptedRun_reachable (by decide +kernel)
  have gone : ((after interruptedRun).world .shm).files .key = none := clean.files .key rfl
  have left : ((after interruptedRun).world .shm).files .key = some [115] := by decide +kernel
  rw [left] at gone
  cases gone

end Process

end Nixnas.Ui
