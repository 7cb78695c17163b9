import Nixnas.Ui.Coherence
import Nixnas.Ui.SizedBuild

/-!
# The way out

Esc closes what a screen has open and then the screen itself, and never starts or
writes anything; a worker that has sent its last event is over with the next drain.
So from wherever a session is, once its worker is done, a few keys lead to HOME and
out of the program.
-/

set_option autoImplicit false

namespace Nixnas.Ui

open Nixnas.Logic
open Nixnas.Tui.Build (Config)
open Nixnas.Tui.Flash
open Nixnas.Ui.Verify (VerifyScreen)

/-! ## Esc on one screen -/

/-- The screen closes something that it has open, or is left. -/
inductive Closes {S : Type} (depth : S → Nat) (st : S) : Next S → Prop where
  | closes (next : S) (fewer : depth next < depth st) : Closes depth st (.stay next)
  | leaves (shown : 0 < depth st) : Closes depth st .home

/-- How many times Esc is pressed until the screen is left. -/
def Build.BuildScreen.depth (_ : Build.BuildScreen) : Nat := 1

def BuildFlash.BuildFlowScreen.depth (st : BuildFlash.BuildFlowScreen) : Nat :=
  match st.stage with
  | .flashBackupAsk | .flashConfirm _ _ | .flashSudo _ _ => 2
  | _ => 1

def Flash.FlashScreen.depth (st : Flash.FlashScreen) : Nat :=
  match st.phase with
  | .devices | .done _ => 1
  | .summary => 2
  | _ => 3

def Verify.VerifyScreen.depth (st : VerifyScreen) : Nat :=
  match st.phase with
  | .sudoPass _ _ => 2
  | _ => 1

theorem Build.closes_esc (cfg : Config) (a : Answers) {st : Build.BuildScreen}
    (idle : st.receiver = none) :
    ∃ next, Build.onKey cfg a st .esc = ⟨next, [], none⟩ ∧ Closes BuildScreen.depth st next := by
  unfold BuildScreen.receiver heldWhile at idle
  unfold Build.onKey
  cases phase : st.phase with
  | passFirst buf error => exact ⟨_, rfl, .leaves Nat.one_pos⟩
  | passConfirm first buf => exact ⟨_, rfl, .leaves Nat.one_pos⟩
  | running => simp [phase] at idle
  | done ok => exact ⟨_, rfl, .leaves Nat.one_pos⟩

theorem BuildFlash.depth_pos (st : BuildFlash.BuildFlowScreen) : 0 < st.depth := by
  unfold BuildFlowScreen.depth
  split <;> decide

theorem Flash.depth_pos (st : Flash.FlashScreen) : 0 < st.depth := by
  unfold FlashScreen.depth
  split <;> decide

theorem Verify.depth_pos (st : VerifyScreen) : 0 < st.depth := by
  unfold VerifyScreen.depth
  split <;> decide

theorem BuildFlash.closes_esc (configDir : String) (cfg : Config) (a : Answers)
    {st : BuildFlash.BuildFlowScreen} (idle : st.receiver = none) :
    ∃ next, BuildFlash.onKey configDir cfg a st .esc = ⟨next, [], none⟩ ∧
      Closes BuildFlowScreen.depth st next := by
  have shown := depth_pos st
  unfold BuildFlowScreen.receiver at idle
  unfold BuildFlash.onKey
  cases stage : st.stage with
  | unavailable | pickDevice => exact ⟨_, rfl, .leaves shown⟩
  | passFirst buf error | passConfirm first buf => exact ⟨_, rfl, .leaves shown⟩
  | building => simp [stage] at idle
  | flashReview => exact ⟨_, rfl, .leaves shown⟩
  | flashBackupAsk | flashConfirm typed error | flashSudo buf error =>
      refine ⟨_, rfl, .closes { st with stage := .flashReview } ?_⟩
      simp [BuildFlowScreen.depth, stage]
  | flashing => simp [stage] at idle
  | done ok => exact ⟨_, rfl, .leaves shown⟩

theorem Flash.closes_esc (configDir : String) (a : Answers) {st : Flash.FlashScreen}
    (idle : st.receiver = none) :
    ∃ next, Flash.onKey configDir a st .esc = ⟨next, [], none⟩ ∧
      Closes FlashScreen.depth st next := by
  have shown := depth_pos st
  unfold FlashScreen.receiver heldWhile at idle
  unfold Flash.onKey
  cases phase : st.phase with
  | devices => exact ⟨_, rfl, .leaves shown⟩
  | summary =>
      refine ⟨_, rfl, .closes { st with phase := .devices } ?_⟩
      simp [FlashScreen.depth, phase]
  | backupAsk | storePass buf | confirm typed error | sudoPass buf error =>
      refine ⟨_, rfl, .closes { st with phase := .summary } ?_⟩
      simp [FlashScreen.depth, phase]
  | running => simp [phase] at idle
  | done ok => exact ⟨_, rfl, .leaves shown⟩

theorem Verify.closes_esc (a : Answers) {st : VerifyScreen} (idle : st.receiver = none) :
    ∃ next, Verify.onKey a st .esc = ⟨next, [], none⟩ ∧ Closes VerifyScreen.depth st next := by
  have shown := depth_pos st
  unfold VerifyScreen.receiver heldWhile at idle
  unfold Verify.onKey
  cases phase : st.phase with
  | devices => exact ⟨_, rfl, .leaves shown⟩
  | sudoPass buf error =>
      refine ⟨_, rfl, .closes { st with phase := .devices } ?_⟩
      simp [VerifyScreen.depth, phase]
  | running => simp [phase] at idle
  | done ok => exact ⟨_, rfl, .leaves shown⟩

/-! ## Esc in the Configure screen -/

/-- Esc closes something of the Configure screen, or leaves it, and saves nothing. -/
structure ConfigureModel.BacksOut {Configure : Type} (configure : ConfigureModel Configure)
    (depth : Configure → Nat) : Prop where
  closes : ∀ a cfg st, Closes depth st (configure.onKey a cfg st .esc).1
  saves : ∀ a cfg st, (configure.onKey a cfg st .esc).2 = cfg
  atMost : ∀ st, depth st ≤ 3

/-- The file browser stands over an edit, and an edit over the form. -/
def Configure.ConfigureState.depth (st : Configure.ConfigureState) : Nat :=
  1 + (if st.edit.isSome then 1 else 0) + (if st.browser.isSome then 1 else 0)

/-- The form backs out: its settings and the file stay as they are. -/
theorem Configure.esc_backs_out {Foreign : Type} (files : Configure.Files)
    (toml : Tui.Settings.Toml Foreign) (configPath : String) (attempt : Tui.Settings.Attempt)
    {app : Configure.ConfigureApp} {st : Configure.ConfigureState}
    (shown : app.configure = some st) :
    ∃ slot screen, Configure.onKey files toml configPath attempt app .esc =
        { app with configure := slot, screen := screen } ∧
      ((slot = none ∧ screen = .home ∧ st.depth = 1) ∨
        ∃ after, slot = some after ∧ screen = app.screen ∧ after.depth + 1 = st.depth) := by
  unfold Configure.onKey
  rw [shown]
  dsimp only
  cases browser : st.browser with
  | some b =>
      refine ⟨some { st with browser := none }, app.screen, rfl, Or.inr ⟨_, rfl, rfl, ?_⟩⟩
      simp [ConfigureState.depth, browser]
  | none =>
      cases edit : st.edit with
      | some buf =>
          refine ⟨some { st with edit := none }, app.screen, rfl, Or.inr ⟨_, rfl, rfl, ?_⟩⟩
          simp [ConfigureState.depth, browser, edit]
      | none =>
          refine ⟨none, .home, rfl, Or.inl ⟨rfl, rfl, ?_⟩⟩
          simp [ConfigureState.depth, browser, edit]

/-- The form as the Configure screen of a session: `fresh` opens it, and what it saves
are the settings that the builds read from then on. -/
def Configure.formModel {Foreign : Type} (files : Answers → Configure.Files)
    (toml : Tui.Settings.Toml Foreign) (configPath : String)
    (attempt : Answers → Tui.Settings.Attempt) (picked : Answers → Nat × String)
    (fresh : Config → Configure.ConfigureApp) : ConfigureModel Configure.ConfigureApp where
  fromConfig := fresh
  onKey a cfg app key :=
    let next := Configure.onKey (files a) toml configPath (attempt a) app key
    (if next.configure.isNone then .home else .stay next,
      if next.cfg = app.cfg then cfg else SizedBuild.pipelineConfig next.cfg)
  applyPicked a app := Configure.applyPicked (files a) app (picked a).1 (picked a).2

theorem Configure.formModel_backsOut {Foreign : Type} (files : Answers → Configure.Files)
    (toml : Tui.Settings.Toml Foreign) (configPath : String)
    (attempt : Answers → Tui.Settings.Attempt) (picked : Answers → Nat × String)
    (fresh : Config → Configure.ConfigureApp) :
    (Configure.formModel files toml configPath attempt picked fresh).BacksOut
      fun app => app.configure.elim 1 ConfigureState.depth := by
  constructor
  · intro a cfg app
    cases shown : app.configure with
    | none =>
        have left : Configure.onKey (files a) toml configPath (attempt a) app .esc = app := by
          rw [Configure.onKey, shown]
        simp only [formModel, left, shown, Option.isNone_none, if_true]
        exact .leaves (by simp [shown])
    | some st =>
        obtain ⟨slot, screen, pressed, ⟨rfl, -, -⟩ | ⟨after, rfl, -, fewer⟩⟩ :=
          esc_backs_out (files a) toml configPath (attempt a) shown
        · simp only [formModel, pressed, Option.isNone_none, if_true]
          refine .leaves ?_
          simp only [shown, Option.elim_some, ConfigureState.depth]
          omega
        · simp only [formModel, pressed, Option.isNone_some, Bool.false_eq_true, if_false]
          refine .closes _ ?_
          simp only [shown, Option.elim_some]
          omega
  · intro a cfg app
    have kept : (Configure.onKey (files a) toml configPath (attempt a) app .esc).cfg = app.cfg := by
      cases shown : app.configure with
      | none => rw [Configure.onKey, shown]
      | some st =>
          obtain ⟨slot, screen, pressed, -⟩ :=
            esc_backs_out (files a) toml configPath (attempt a) shown
          rw [pressed]
    simp only [formModel, kept, if_true]
  · intro app
    cases app.configure with
    | none => exact Nat.le_add_left 1 2
    | some st =>
        simp only [Option.elim_some, ConfigureState.depth]
        split <;> split <;> decide

/-! ## Esc in a session -/

variable {Configure : Type} {configure : ConfigureModel Configure} {configDir : String}
  {levels : Configure → Nat} {app : App Configure VerifyScreen} {s t : Session Configure}
  {a : Answers} {writes : Nat}

/-- How many times Esc is pressed until HOME is shown. -/
def App.depth (levels : Configure → Nat) (app : App Configure VerifyScreen) : Nat :=
  match app.screen with
  | .home => 0
  | .configure => app.configure.elim 0 levels
  | .buildFlash => app.buildflash.elim 0 BuildFlash.BuildFlowScreen.depth
  | .build => app.build.elim 0 Build.BuildScreen.depth
  | .flash => app.flash.elim 0 Flash.FlashScreen.depth
  | .verify => app.verify.elim 0 Verify.VerifyScreen.depth

/-- Nothing is started or saved, no log file comes or goes, and nobody quits. -/
structure App.Spared (app next : App Configure VerifyScreen) : Prop where
  cfg : next.cfg = app.cfg
  home : next.home = app.home
  logFiles : next.logFiles = app.logFiles
  quit : next.quit = app.quit

theorem App.Spared.refl (app : App Configure VerifyScreen) : app.Spared app :=
  ⟨rfl, rfl, rfl, rfl⟩

theorem App.Spared.trans {app next last : App Configure VerifyScreen} (first : app.Spared next)
    (second : next.Spared last) : app.Spared last :=
  ⟨second.cfg.trans first.cfg, second.home.trans first.home,
    second.logFiles.trans first.logFiles, second.quit.trans first.quit⟩

/-- A turn that closes something, of a screen whose slot is written by `put`. -/
theorem takeTurn_closes {S : Type} {depthOf : S → Nat} {st : S} {next : Next S}
    (levels : Configure → Nat) (app : App Configure VerifyScreen)
    (closes : Closes depthOf st next)
    (put : App Configure VerifyScreen → Option S → App Configure VerifyScreen)
    (spares : ∀ slot, app.Spared (put app slot))
    (stays : ∀ after, (put app (some after)).depth levels = depthOf after) (a : Answers) :
    ∃ after, app.takeTurn a put ⟨next, [], none⟩ = .ok (after, none) ∧ app.Spared after ∧
      after.depth levels < depthOf st := by
  have unlogged : app.logged a [] = app := by simp [App.logged]
  cases closes with
  | closes after fewer =>
      refine ⟨put app (some after), ?_, spares _, ?_⟩
      · simp only [App.takeTurn, unlogged]
      · rw [stays]
        exact fewer
  | leaves shown =>
      refine ⟨{ put app none with screen := .home }, ?_, ?_, shown⟩
      · simp only [App.takeTurn, unlogged]
      · obtain ⟨cfg, home, logFiles, quit⟩ := spares none
        exact ⟨cfg, home, logFiles, quit⟩

/-- Esc on any screen but HOME, while nobody waits for a worker. -/
theorem screenKey_esc (configDir : String) (backsOut : configure.BacksOut levels)
    (shows : app.Shows none) (away : app.screen ≠ .home) (a : Answers) :
    ∃ next, app.screenKey (configure.others configDir) configDir a .esc = .ok (next, none) ∧
      app.operation configDir a .esc = ([], none) ∧ app.Spared next ∧
      next.depth levels < app.depth levels := by
  unfold App.screenKey App.operation
  cases shows with
  | home rest => exact absurd rest.shown away
  | configure st shown slot =>
      have closes := backsOut.closes a app.cfg st
      have saves := backsOut.saves a app.cfg st
      simp only [shown, slot, ConfigureModel.others]
      generalize configure.onKey a app.cfg st .esc = pressed at closes saves
      obtain ⟨turn, cfg⟩ := pressed
      dsimp only at closes saves ⊢
      subst saves
      obtain ⟨next, taken, ⟨cfg, home, logFiles, quit⟩, fewer⟩ := takeTurn_closes levels
        { app with screen := .configure, configure := some st } closes
        (fun app slot => { app with configure := slot })
        (fun _ => ⟨rfl, rfl, rfl, rfl⟩) (fun _ => rfl) a
      exact ⟨next, taken, trivial, ⟨cfg, home, logFiles, quit⟩,
        by simpa [App.depth, shown, slot] using fewer⟩
  | buildFlash st shown _ slot _ _ _ _ idle =>
      obtain ⟨turn, pressed, closes⟩ := BuildFlash.closes_esc configDir app.cfg a idle
      simp only [shown, slot, pressed]
      obtain ⟨next, taken, spared, fewer⟩ := takeTurn_closes levels app closes
        (fun app slot => { app with buildflash := slot })
        (fun _ => ⟨rfl, rfl, rfl, rfl⟩) (fun _ => by simp [App.depth, shown]) a
      exact ⟨next, taken, rfl, spared, by simpa [App.depth, shown, slot] using fewer⟩
  | build st shown _ _ slot _ _ _ idle =>
      obtain ⟨turn, pressed, closes⟩ := Build.closes_esc app.cfg a idle
      simp only [shown, slot, pressed]
      obtain ⟨next, taken, spared, fewer⟩ := takeTurn_closes levels app closes
        (fun app slot => { app with build := slot })
        (fun _ => ⟨rfl, rfl, rfl, rfl⟩) (fun _ => by simp [App.depth, shown]) a
      exact ⟨next, taken, rfl, spared, by simpa [App.depth, shown, slot] using fewer⟩
  | flash st shown _ _ _ slot _ _ idle =>
      obtain ⟨turn, pressed, closes⟩ := Flash.closes_esc configDir a idle
      simp only [shown, slot, pressed]
      obtain ⟨next, taken, spared, fewer⟩ := takeTurn_closes levels app closes
        (fun app slot => { app with flash := slot })
        (fun _ => ⟨rfl, rfl, rfl, rfl⟩) (fun _ => by simp [App.depth, shown]) a
      exact ⟨next, taken, rfl, spared, by simpa [App.depth, shown, slot] using fewer⟩
  | verify st shown _ _ _ _ slot _ idle =>
      obtain ⟨turn, pressed, closes⟩ := Verify.closes_esc a idle
      simp only [shown, slot, pressed, ConfigureModel.others]
      obtain ⟨next, taken, spared, fewer⟩ := takeTurn_closes levels app closes
        (fun app slot => { app with verify := slot })
        (fun _ => ⟨rfl, rfl, rfl, rfl⟩) (fun _ => by simp [App.depth, shown]) a
      exact ⟨next, taken, rfl, spared, by simpa [App.depth, shown, slot] using fewer⟩

/-- A key that starts nothing and calls nothing changes the application alone, but
for the file that the exit prompt closes. -/
theorem onKey_quiet {key : KeyCode} {next : App Configure VerifyScreen} (writes : Nat)
    (pressed : s.app.screenKey (configure.others configDir) configDir a key = .ok (next, none))
    (quiet : s.app.operation configDir a key = ([], none)) :
    s.onKey configure configDir a writes key false =
      { s with
        app := next
        log := if s.app.home.exitPrompt && next.quit.isSome then s.log.finish else s.log } := by
  unfold Session.onKey App.onKey
  simp only [Bool.false_and, Bool.false_eq_true, if_false, pressed, quiet, SessionLog.tee,
    Session.spawn]

theorem Session.Orderly.idle_of_nobody {held : Option Receiver} (orderly : s.Orderly held)
    (nobody : ∀ id, ¬ s.Running id) : held = none := by
  cases waiting : held with
  | none => rfl
  | some receiver =>
      obtain ⟨id, -, only, -⟩ := orderly.manned.busy receiver waiting
      exact absurd ((only id).mpr rfl) (nobody id)

theorem escape_step (configDir : String) (backsOut : configure.BacksOut levels)
    (orderly : s.Orderly none) (open_ : s.app.quit = none) (away : s.app.screen ≠ .home)
    (a : Answers) (writes : Nat) :
    ∃ next, s.onKey configure configDir a writes .esc false = { s with app := next } ∧
      Session.Orderly { s with app := next } none ∧ s.app.Spared next ∧
      next.depth levels < s.app.depth levels := by
  obtain ⟨next, pressed, quiet, spared, fewer⟩ :=
    screenKey_esc configDir backsOut orderly.shows away a
  have moved : s.onKey configure configDir a writes .esc false = { s with app := next } := by
    rw [onKey_quiet writes pressed quiet, spared.quit, open_]
    simp
  obtain ⟨held, after⟩ := key_orderly orderly open_ configure configDir a writes .esc false
  rw [moved] at after
  have nobody := (orderly.manned.idle rfl).1
  obtain rfl := after.idle_of_nobody nobody
  exact ⟨next, moved, after, spared, fewer⟩

/-- Keys without Ctrl, with what the system answers to each. -/
def presses (answers : Nat → Answers × Nat) (keys : List KeyCode) : List SessionEvent :=
  keys.mapIdx fun i key => .key (answers i).1 (answers i).2 key false

theorem presses_cons (answers : Nat → Answers × Nat) (key : KeyCode) (rest : List KeyCode) :
    presses answers (key :: rest) =
      .key (answers 0).1 (answers 0).2 key false :: presses (fun i => answers (i + 1)) rest :=
  List.mapIdx_cons

theorem presses_append (answers : Nat → Answers × Nat) (keys rest : List KeyCode) :
    presses answers (keys ++ rest) =
      presses answers keys ++ presses (fun i => answers (i + keys.length)) rest :=
  List.mapIdx_append

theorem replay_press (fine : s.panicked = false) (open_ : s.app.quit = none)
    (answers : Nat → Answers × Nat) (key : KeyCode) (rest : List KeyCode) :
    Machine.replay (Session.step configure configDir) s (presses answers (key :: rest)) =
      Machine.replay (Session.step configure configDir)
        (s.onKey configure configDir (answers 0).1 (answers 0).2 key false)
        (presses (fun i => answers (i + 1)) rest) := by
  rw [presses_cons, Machine.replay]
  simp [Session.step, fine, open_]

/-- As many presses of Esc as the screen is deep lead to HOME. -/
theorem escapes_home (configDir : String) (backsOut : configure.BacksOut levels) (bound : Nat)
    (answers : Nat → Answers × Nat) (orderly : s.Orderly none) (fine : s.panicked = false)
    (open_ : s.app.quit = none) (within : s.app.depth levels ≤ bound) :
    ∃ count next, count ≤ bound ∧
      Machine.replay (Session.step configure configDir) s
        (presses answers (List.replicate count .esc)) = some { s with app := next } ∧
      next.screen = .home ∧ s.app.Spared next := by
  induction bound generalizing s answers with
  | zero =>
      by_cases shown : s.app.screen = .home
      · exact ⟨0, s.app, Nat.zero_le _, rfl, shown, .refl _⟩
      · obtain ⟨_, _, _, _, fewer⟩ :=
          escape_step configDir backsOut orderly open_ shown (answers 0).1 (answers 0).2
        omega
  | succ bound ih =>
      by_cases shown : s.app.screen = .home
      · exact ⟨0, s.app, Nat.zero_le _, rfl, shown, .refl _⟩
      · obtain ⟨next, moved, after, spared, fewer⟩ :=
          escape_step configDir backsOut orderly open_ shown (answers 0).1 (answers 0).2
        have stillOpen : next.quit = none := spared.quit.trans open_
        obtain ⟨count, last, fits, run, atLast, kept⟩ :=
          ih (fun i => answers (i + 1)) after fine stillOpen (by dsimp only; omega)
        refine ⟨count + 1, last, Nat.succ_le_succ fits, ?_, atLast, spared.trans kept⟩
        rw [List.replicate_succ, replay_press fine open_, moved, run]

/-! ## Out of HOME -/

/-- The menu has quit the session, and nothing but the open file is changed. -/
structure Session.QuitFrom (s t : Session Configure) : Prop where
  quit : t.app.quit = some .menu
  panicked : t.panicked = s.panicked
  threads : t.threads = s.threads
  nextThread : t.nextThread = s.nextThread
  cfg : t.app.cfg = s.app.cfg
  logFiles : t.app.logFiles = s.app.logFiles

theorem homeOperation_quiet (shown : s.app.screen = .home) {key : KeyCode} (other : key ≠ .enter) :
    s.app.operation configDir a key = ([], none) := by
  unfold App.operation App.homeOperation
  rw [shown]
  exact if_neg fun opens => other opens.2.1

/-- The exit prompt is left by the key that does not give up the log files. -/
theorem prompt_quits (configure : ConfigureModel Configure) (configDir : String)
    (s : Session Configure) (fine : s.panicked = false) (open_ : s.app.quit = none)
    (shown : s.app.screen = .home) (prompt : s.app.home.exitPrompt = true)
    (answers : Nat → Answers × Nat) :
    ∃ final, Machine.replay (Session.step configure configDir) s (presses answers [.char 'k']) =
        some final ∧ s.QuitFrom final := by
  have pressed : s.app.screenKey (configure.others configDir) configDir (answers 0).1 (.char 'k') =
      .ok ({ s.app with quit := some .menu }, none) := by
    simp only [App.screenKey, shown, App.homeKey, prompt, if_true, App.exitPromptKey]
  refine ⟨s.onKey configure configDir (answers 0).1 (answers 0).2 (.char 'k') false, ?_, ?_⟩
  · rw [replay_press fine open_]
    rfl
  · rw [onKey_quiet _ pressed (homeOperation_quiet shown (by decide))]
    exact ⟨rfl, rfl, rfl, rfl, rfl, rfl⟩

/-- From HOME the program is left in two keys, with the log files not given up. -/
theorem home_quits (configure : ConfigureModel Configure) (configDir : String)
    (s : Session Configure) (fine : s.panicked = false) (open_ : s.app.quit = none)
    (shown : s.app.screen = .home) (answers : Nat → Answers × Nat) :
    ∃ keys final, keys.length ≤ 2 ∧ (∀ key ∈ keys, key = .char 'q' ∨ key = .char 'k') ∧
      Machine.replay (Session.step configure configDir) s (presses answers keys) = some final ∧
      s.QuitFrom final := by
  by_cases prompt : s.app.home.exitPrompt = true
  · obtain ⟨final, run, left⟩ := prompt_quits configure configDir s fine open_ shown prompt answers
    exact ⟨[.char 'k'], final, by decide, by simp, run, left⟩
  · have pressed : s.app.screenKey (configure.others configDir) configDir (answers 0).1
        (.char 'q') = .ok (s.app.requestQuit, none) := by
      simp only [App.screenKey, shown, App.homeKey, prompt, Bool.false_eq_true, if_false]
    have moved := onKey_quiet (answers 0).2 pressed (homeOperation_quiet shown (by decide))
    by_cases noFiles : s.app.logFiles.isEmpty = true
    · refine ⟨[.char 'q'], s.onKey configure configDir (answers 0).1 (answers 0).2 (.char 'q')
        false, by decide, by simp, ?_, ?_⟩
      · rw [replay_press fine open_]
        rfl
      · rw [moved, App.requestQuit, if_pos noFiles]
        exact ⟨rfl, rfl, rfl, rfl, rfl, rfl⟩
    · have asked : s.onKey configure configDir (answers 0).1 (answers 0).2 (.char 'q') false =
          { s with app := { s.app with home := { s.app.home with exitPrompt := true } } } := by
        rw [moved, App.requestQuit, if_neg noFiles]
        simp [open_]
      obtain ⟨final, run, left⟩ := prompt_quits configure configDir
        { s with app := { s.app with home := { s.app.home with exitPrompt := true } } }
        fine open_ shown rfl fun i => answers (i + 1)
      refine ⟨[.char 'q', .char 'k'], final, by decide, by simp, ?_, ?_⟩
      · rw [replay_press fine open_, asked]
        exact run
      · exact ⟨left.quit, left.panicked, left.threads, left.nextThread, left.cfg, left.logFiles⟩

/-! ## The end of a worker -/

/-- What a worker that is done has sent, and that its receiver is the right one. -/
structure Session.Told (s : Session Configure) : Prop where
  known : ∀ receiver id, s.channel receiver = some id → id < s.nextThread
  carries : ∀ receiver id thread, s.channel receiver = some id → s.threads id = some thread →
    thread.receiver = receiver
  last : ∀ id thread, s.threads id = some thread → thread.finished = true →
    thread.reported = true ∨ thread.receiver.ends thread.sent = true

/-- Every worker that is still waited for has sent its last event. -/
def Session.Finished (s : Session Configure) : Prop :=
  ∀ id thread, s.threads id = some thread → thread.reported = false → thread.finished = true

theorem told_spawn (told : s.Told) (next : App Configure VerifyScreen) (log : SessionLog)
    (field : Option Receiver) :
    Session.Told ({ s with app := next, log := log }.spawn field) := by
  cases field with
  | none => exact ⟨told.known, told.carries, told.last⟩
  | some field =>
      refine ⟨?_, ?_, ?_⟩
      · intro receiver id hears
        simp only [Session.spawn] at hears ⊢
        by_cases same : receiver = field
        · subst same
          rw [Function.update_self, Option.some.injEq] at hears
          omega
        · rw [Function.update_of_ne same] at hears
          have := told.known receiver id hears
          omega
      · intro receiver id thread hears found
        simp only [Session.spawn] at hears found
        by_cases same : receiver = field
        · subst same
          rw [Function.update_self, Option.some.injEq] at hears
          subst hears
          rw [Function.update_self, Option.some.injEq] at found
          rw [← found]
        · rw [Function.update_of_ne same] at hears
          have older : id ≠ s.nextThread := Nat.ne_of_lt (told.known receiver id hears)
          rw [Function.update_of_ne older] at found
          exact told.carries receiver id thread hears found
      · intro id thread found finished
        simp only [Session.spawn] at found
        by_cases fresh : id = s.nextThread
        · subst fresh
          rw [Function.update_self, Option.some.injEq] at found
          rw [← found] at finished
          cases finished
        · rw [Function.update_of_ne fresh] at found
          exact told.last id thread found finished

theorem told_onKey (told : s.Told) (configure : ConfigureModel Configure) (configDir : String)
    (a : Answers) (writes : Nat) (key : KeyCode) (control : Bool) :
    (s.onKey configure configDir a writes key control).Told := by
  unfold Session.onKey
  split
  · exact ⟨told.known, told.carries, told.last⟩
  · split
    · exact ⟨told.known, told.carries, told.last⟩
    · exact told_spawn told _ _ _

/-- A change of one worker that keeps its receiver and its last event. -/
theorem told_update (told : s.Told) {id : Nat} {thread changed : Thread}
    (found : s.threads id = some thread) (same : changed.receiver = thread.receiver)
    (last : changed.finished = true →
      changed.reported = true ∨ changed.receiver.ends changed.sent = true)
    (next : App Configure VerifyScreen) (log : SessionLog) :
    Session.Told { s with
      app := next, log := log, threads := Function.update s.threads id (some changed) } := by
  refine ⟨told.known, ?_, ?_⟩
  · intro receiver other after hears updated
    dsimp only at hears updated
    by_cases mine : other = id
    · subst mine
      rw [Function.update_self, Option.some.injEq] at updated
      rw [← updated, same]
      exact told.carries receiver other thread hears found
    · rw [Function.update_of_ne mine] at updated
      exact told.carries receiver other after hears updated
  · intro other after updated finished
    dsimp only at updated
    by_cases mine : other = id
    · subst mine
      rw [Function.update_self, Option.some.injEq] at updated
      subst updated
      exact last finished
    · rw [Function.update_of_ne mine] at updated
      exact told.last other after updated finished

theorem told_drainReceiver (told : s.Told) (a : Answers) (writes : Nat) (receiver : Receiver) :
    (s.drainReceiver a writes receiver).Told := by
  unfold Session.drainReceiver
  split
  · exact told
  · rename_i id hears
    split
    · exact told
    · rename_i thread found
      split
      · exact told
      · rename_i next calls _
        have same : Thread.receiver { thread with
            sent := [], reported := thread.reported || receiver.ends thread.sent } =
            thread.receiver := rfl
        refine told_update told found same ?_ next _
        intro finished
        have isMine := told.carries receiver id thread hears found
        rcases told.last id thread found finished with reported | ends
        · exact Or.inl (by simp [reported])
        · rw [isMine] at ends
          exact Or.inl (by simp [ends])

theorem told_drain (told : s.Told) (a : Answers) (writes : Receiver → Nat) :
    (s.drain a writes).Told := by
  unfold Session.drain
  generalize receivers = fields
  induction fields generalizing s with
  | nil => exact told
  | cons receiver rest ih => exact ih (told_drainReceiver told a (writes receiver) receiver)

theorem ends_append {receiver : Receiver} {event : WorkerEvent} (sent : List WorkerEvent)
    (carries : receiver.carries event = true) (isDone : event.isDone = true) :
    receiver.ends (sent ++ [event]) = true := by
  cases receiver <;> cases event <;>
    simp_all [Receiver.ends, Receiver.carries, WorkerEvent.isDone, WorkerEvent.build?,
      WorkerEvent.flash?, WorkerEvent.verify?]

theorem told_send (told : s.Told) {id : Nat} {event : WorkerEvent}
    (sent : s.send id event = some t) : t.Told := by
  unfold Session.send at sent
  obtain ⟨thread, found, sent⟩ := Option.bind_eq_some_iff.mp sent
  split at sent
  · rename_i lets
    simp only [Bool.and_eq_true] at lets
    cases sent
    have same : Thread.receiver { thread with
        sent := thread.sent ++ [event], finished := event.isDone } = thread.receiver := rfl
    refine told_update told found same ?_ s.app s.log
    intro isDone
    exact Or.inr (ends_append thread.sent lets.2 isDone)
  · cases sent

theorem told_step (told : s.Told) {event : SessionEvent}
    (taken : s.step configure configDir event = some t) : t.Told := by
  unfold Session.step at taken
  split at taken
  · cases taken
  · cases event with
    | key a writes key control =>
        dsimp only at taken
        split at taken
        · cases taken
        · cases taken
          exact told_onKey told configure configDir a writes key control
    | drain a writes =>
        dsimp only at taken
        split at taken
        · cases taken
        · cases taken
          exact told_drain told a writes
    | picked a =>
        cases taken
        exact ⟨told.known, told.carries, told.last⟩
    | send id event => exact told_send told taken

theorem told_start (cfg : Config) : (Session.start cfg : Session Configure).Told := by
  refine ⟨?_, ?_, ?_⟩
  · intro receiver id hears
    cases hears
  · intro receiver id thread hears
    cases hears
  · intro id thread found
    cases found

/-! ## The drain after a worker's last event -/

/-- What a drain leaves as it is. -/
structure Session.Drained (s t : Session Configure) : Prop where
  panicked : t.panicked = s.panicked
  nextThread : t.nextThread = s.nextThread
  spared : s.app.Spared t.app

theorem Session.Drained.refl (s : Session Configure) : s.Drained s := ⟨rfl, rfl, .refl _⟩

theorem Session.Drained.trans {s t last : Session Configure} (first : s.Drained t)
    (second : t.Drained last) : s.Drained last :=
  ⟨second.panicked.trans first.panicked, second.nextThread.trans first.nextThread,
    first.spared.trans second.spared⟩

theorem pull_spared {events : List WorkerEvent} {receiver : Receiver}
    {next : App Configure VerifyScreen} {calls : List LogCall}
    (pulled : app.pull a events receiver = some (next, calls)) : app.Spared next := by
  cases receiver with
  | flowBuild | flowFlash | build | flash | verify =>
      simp only [App.pull, Option.map_eq_some_iff, Prod.mk.injEq] at pulled
      obtain ⟨st, -, rfl, -⟩ := pulled
      exact ⟨rfl, rfl, rfl, rfl⟩

theorem drainReceiver_drained (s : Session Configure) (a : Answers) (writes : Nat)
    (receiver : Receiver) : s.Drained (s.drainReceiver a writes receiver) := by
  unfold Session.drainReceiver
  split
  · exact .refl s
  · split
    · exact .refl s
    · split
      · exact .refl s
      · rename_i next calls pulled
        exact ⟨rfl, rfl, pull_spared pulled⟩

theorem drainReceiver_silent {held : Option Receiver} (orderly : s.Orderly held)
    {receiver : Receiver} (other : held ≠ some receiver) (a : Answers) (writes : Nat) :
    s.drainReceiver a writes receiver = s := by
  unfold Session.drainReceiver
  split
  · rfl
  · split
    · rfl
    · rw [pull_silent orderly.shows a _ other]

/-- The drain of its receiver is the end of a worker that has sent its last event. -/
theorem drainReceiver_nobody {receiver : Receiver} (orderly : s.Orderly (some receiver))
    (told : s.Told) (finished : s.Finished) (a : Answers) (writes : Nat) (other : Nat) :
    ¬ (s.drainReceiver a writes receiver).Running other := by
  obtain ⟨id, hears, only, -⟩ := orderly.manned.busy receiver rfl
  obtain ⟨thread, found, unreported⟩ := (only id).mpr rfl
  have isMine := told.carries receiver id thread hears found
  have ended : receiver.ends thread.sent = true := by
    rcases told.last id thread found (finished id thread found unreported) with reported | ends
    · rw [unreported] at reported
      cases reported
    · rw [← isMine]
      exact ends
  have pulls := pull_pulls orderly.shows a thread.sent receiver
  unfold Session.drainReceiver
  rw [hears]
  simp only [found]
  generalize s.app.pull a thread.sent receiver = pulled at pulls
  cases pulls with
  | nothing differs => exact absurd rfl differs
  | goesOn _ goes =>
      rw [ended] at goes
      cases goes
  | ends _ _ next calls ok msg nextShows quit =>
      rintro ⟨after, updated, stillUnreported⟩
      dsimp only at updated
      by_cases mine : other = id
      · subst mine
        rw [Function.update_self, Option.some.injEq] at updated
        rw [← updated] at stillUnreported
        simp [ended] at stillUnreported
      · rw [Function.update_of_ne mine] at updated
        exact mine ((only other).mp ⟨after, updated, stillUnreported⟩)

theorem drainReceiver_orderly {held : Option Receiver} (orderly : s.Orderly held) (a : Answers)
    (writes : Nat) (receiver : Receiver) :
    ∃ held', (s.drainReceiver a writes receiver).Orderly held' := by
  obtain ⟨held', shows, manned, still, quit⟩ :=
    drainReceiver_kept orderly.shows orderly.manned a writes receiver
  refine ⟨held', shows, manned, ?_⟩
  intro left
  rw [quit] at left
  exact still (orderly.quit left)

/-- One drain of all receivers, and nobody is waited for. -/
theorem drain_ends {held : Option Receiver} (orderly : s.Orderly held) (told : s.Told)
    (finished : s.Finished) (a : Answers) (writes : Receiver → Nat) :
    (s.drain a writes).Orderly none ∧ s.Drained (s.drain a writes) := by
  have isField : ∀ receiver, held = some receiver → receiver ∈ receivers := by
    intro receiver _
    cases receiver <;> decide
  unfold Session.drain
  generalize receivers = fields at isField
  induction fields generalizing s held with
  | nil =>
      cases waiting : held with
      | none => exact ⟨waiting ▸ orderly, .refl s⟩
      | some receiver => cases isField receiver waiting
  | cons receiver rest ih =>
      by_cases mine : held = some receiver
      · subst mine
        have nobody := drainReceiver_nobody orderly told finished a (writes receiver)
        obtain ⟨held', after⟩ := drainReceiver_orderly orderly a (writes receiver) receiver
        obtain rfl := after.idle_of_nobody nobody
        have still : (s.drainReceiver a (writes receiver) receiver).Finished :=
          fun id thread found unreported => absurd ⟨thread, found, unreported⟩ (nobody id)
        have noField : ∀ other, none = some other → other ∈ rest := by
          intro other impossible
          cases impossible
        obtain ⟨done, drained⟩ := ih after (told_drainReceiver told a (writes receiver) receiver)
          still noField
        exact ⟨done, (drainReceiver_drained s a (writes receiver) receiver).trans drained⟩
      · rw [List.foldl_cons, drainReceiver_silent orderly mine]
        refine ih orderly told finished ?_
        intro other waiting
        rcases List.mem_cons.mp (isField other waiting) with same | later
        · exact absurd (same ▸ waiting) mine
        · exact later

/-! ## The whole way -/

theorem App.depth_le (backsOut : configure.BacksOut levels) (app : App Configure VerifyScreen) :
    app.depth levels ≤ 3 := by
  have elim {S : Type} (slot : Option S) (depthOf : S → Nat) (atMost : ∀ st, depthOf st ≤ 3) :
      slot.elim 0 depthOf ≤ 3 := by
    cases slot with
    | none => exact Nat.zero_le _
    | some st => exact atMost st
  unfold App.depth
  split
  · exact Nat.zero_le _
  · exact elim _ _ backsOut.atMost
  · refine elim _ _ fun st => ?_
    unfold BuildFlash.BuildFlowScreen.depth
    split <;> decide
  · refine elim _ _ fun st => ?_
    unfold Build.BuildScreen.depth
    decide
  · refine elim _ _ fun st => ?_
    unfold Flash.FlashScreen.depth
    split <;> decide
  · refine elim _ _ fun st => ?_
    unfold Verify.VerifyScreen.depth
    split <;> decide

theorem orderly_told {cfg : Config} : ∀ s : Session Configure,
    (Session.machine configure configDir cfg).Reachable s → (∃ held, s.Orderly held) ∧ s.Told := by
  apply Machine.invariant
  · rintro first rfl
    exact ⟨⟨none, start_orderly cfg⟩, told_start cfg⟩
  · rintro before event next - ⟨⟨held, orderly⟩, told⟩ taken
    exact ⟨step_orderly orderly configure configDir taken, told_step told taken⟩

/-- From every state of a session whose awaited workers have all sent their `Done`, one
drain and at most five keys (Esc up to three times, then q and k) leave the program
through its menu: whatever the system answers, without a panic, without a worker being
started, with the settings and the list of log files as they are. -/
theorem way_out {cfg : Config} (backsOut : configure.BacksOut levels)
    (reached : (Session.machine configure configDir cfg).Reachable s) (fine : s.panicked = false)
    (open_ : s.app.quit = none) (finished : s.Finished) (a : Answers) (writes : Receiver → Nat)
    (answers : Nat → Answers × Nat) :
    ∃ keys final, keys.length ≤ 5 ∧
      (∀ key ∈ keys, key = .esc ∨ key = .char 'q' ∨ key = .char 'k') ∧
      Machine.replay (Session.step configure configDir) s
        (.drain a writes :: presses answers keys) = some final ∧
      final.app.quit = some .menu ∧ final.panicked = false ∧ final.nextThread = s.nextThread ∧
      (∀ id, ¬ final.Running id) ∧ final.app.cfg = s.app.cfg ∧
      final.app.logFiles = s.app.logFiles := by
  obtain ⟨⟨held, orderly⟩, told⟩ := orderly_told s reached
  obtain ⟨idle, drained⟩ := drain_ends orderly told finished a writes
  have taken : s.step configure configDir (.drain a writes) = some (s.drain a writes) := by
    simp [Session.step, fine, open_]
  have stillFine := drained.panicked.trans fine
  have stillOpen := drained.spared.quit.trans open_
  obtain ⟨count, next, fits, escapes, atHome, spared⟩ :=
    escapes_home configDir backsOut 3 answers idle stillFine stillOpen
      (App.depth_le backsOut _)
  obtain ⟨rest, final, short, only, leaves, left⟩ :=
    home_quits configure configDir { s.drain a writes with app := next } stillFine
      (spared.quit.trans stillOpen) atHome
      fun i => answers (i + (List.replicate count KeyCode.esc).length)
  have nobody := (idle.manned.idle rfl).1
  refine ⟨List.replicate count .esc ++ rest, final, ?_, ?_, ?_, left.quit, ?_, ?_, ?_, ?_, ?_⟩
  · rw [List.length_append, List.length_replicate]
    omega
  · intro key member
    rcases List.mem_append.mp member with isEscape | other
    · exact Or.inl (List.eq_of_mem_replicate isEscape)
    · exact Or.inr (only key other)
  · rw [Machine.replay, taken]
    dsimp only
    rw [presses_append, Machine.replay_append, escapes]
    exact leaves
  · exact left.panicked.trans stillFine
  · exact left.nextThread.trans drained.nextThread
  · rintro id ⟨thread, found, unreported⟩
    rw [left.threads] at found
    exact nobody id ⟨thread, found, unreported⟩
  · exact left.cfg.trans (spared.cfg.trans drained.spared.cfg)
  · exact left.logFiles.trans (spared.logFiles.trans drained.spared.logFiles)

/-- A build has sent its verdict, which nobody has pulled. -/
def builtSession : List SessionEvent :=
  buildSession ++ [.send 0 (.build (.done (.error "no space left")))]

theorem plainConfigure_backsOut : plainConfigure.BacksOut fun _ => 1 :=
  ⟨fun _ _ _ => .leaves Nat.one_pos, fun _ _ _ => rfl, fun _ => by decide⟩

theorem way_out_built :
    ∃ (s final : Session Unit) (keys : List KeyCode),
      Machine.replay (Session.step plainConfigure "") (.start .plain) builtSession = some s ∧
      s.app.opRunning = true ∧ s.Finished ∧
      Machine.replay (Session.step plainConfigure "") s
        (.drain Process.plainAnswers (fun _ => 1) ::
          presses (fun _ => (Process.plainAnswers, 1)) keys) = some final ∧
      final.app.quit = some .menu ∧ final.app.logFiles = s.app.logFiles := by
  have run : (Machine.replay (Session.step plainConfigure "") (.start .plain) builtSession).map
      (fun s => (s.panicked, s.app.quit, s.app.opRunning, s.nextThread,
        (s.threads 0).map Thread.finished)) = some (false, none, true, 1, some true) := by decide
  obtain ⟨s, replayed, facts⟩ := Option.map_eq_some_iff.mp run
  simp only [Prod.mk.injEq] at facts
  obtain ⟨fine, open_, running, one, isFinished⟩ := facts
  have reached : (Session.machine plainConfigure "" .plain).Reachable s :=
    Machine.Reachable.steps (.initial rfl) (Machine.steps_of_replay builtSession _ s replayed)
  have finished : s.Finished := by
    intro id thread found _
    obtain ⟨⟨held, orderly⟩, -⟩ := orderly_told s reached
    have only : id = 0 := by
      have := orderly.manned.bounded id thread found
      omega
    subst only
    rw [found] at isFinished
    exact Option.some.inj isFinished
  obtain ⟨keys, final, _, _, leaves, quit, _, _, _, _, kept⟩ :=
    way_out plainConfigure_backsOut reached fine open_ finished Process.plainAnswers (fun _ => 1)
      fun _ => (Process.plainAnswers, 1)
  exact ⟨s, final, keys, replayed, running, finished, leaves, quit, kept⟩

end Nixnas.Ui
