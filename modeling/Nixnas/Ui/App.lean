import Nixnas.Ui.BuildFlash

/-!
# The application

The state machine of `src/tui/src/main.rs` and the menu of `ui/home.rs`: which
screen has the keyboard, and what each key leads to.

The Configure and Verify screens enter as parameters: whatever they do to their
own slot, to the configuration and to the log, they spawn neither a build nor a
flash.
-/

set_option autoImplicit false

namespace Nixnas.Ui

open Nixnas.Tui.Build (BuildEvent Config)
open Nixnas.Tui.Flash

inductive Screen where
  | home
  | configure
  | buildFlash
  | build
  | flash
  | verify
  deriving DecidableEq, Repr

structure HomeState where
  selected : Nat
  /-- The modal that asks what to do with the session logs is open. -/
  exitPrompt : Bool

/-- The screens that start no build and no flash. -/
structure Others (Configure Verify : Type) where
  fromConfig : Config → Configure
  /-- The screen next, and the configuration, which a save replaces. -/
  configureKey : Answers → Config → Configure → KeyCode → Next Configure × Config
  /-- A path picked in the file browser. -/
  applyPicked : Answers → Configure → Configure
  newImage : Answers → Verify
  newInstall : Answers → Verify
  verifyKey : Answers → Verify → KeyCode → Next Verify × List LogCall
  verifyDrain : Answers → Verify → Verify
  verifyRunning : Verify → Bool

/-- What set the `quit` flag. -/
inductive Quit where
  | interrupt
  | menu
  deriving DecidableEq, Repr

structure App (Configure Verify : Type) where
  cfg : Config
  screen : Screen
  home : HomeState
  configure : Option Configure
  buildflash : Option BuildFlash.BuildFlowScreen
  build : Option Build.BuildScreen
  flash : Option Flash.FlashScreen
  verify : Option Verify
  /-- The files of the session log. -/
  logFiles : List String
  quit : Option Quit

section Keys

variable {Configure Verify S : Type}

def App.new (cfg : Config) : App Configure Verify :=
  ⟨cfg, .home, ⟨0, false⟩, none, none, none, none, none, [], none⟩

/-- Every `begin` among the calls adds its file to the session log. -/
def App.logged (app : App Configure Verify) (a : Answers) (calls : List LogCall) :
    App Configure Verify :=
  let opened := calls.filterMap fun
    | .begin _ => a.beginLog
    | _ => none
  { app with logFiles := app.logFiles ++ opened }

def menuLength : Nat := 7

/-- `request_quit`. -/
def App.requestQuit (app : App Configure Verify) : App Configure Verify :=
  if app.logFiles.isEmpty then { app with quit := some .menu }
  else { app with home := { app.home with exitPrompt := true } }

def App.exitPromptKey (app : App Configure Verify) : KeyCode → App Configure Verify
  | .enter | .esc | .char 'c' | .char 'C' => { app with logFiles := [], quit := some .menu }
  | .char 'k' | .char 'K' => { app with quit := some .menu }
  | _ => app

/-- Enter on a menu entry: a running screen is shown as it is, any other is
replaced by a fresh one. -/
def App.openEntry (others : Others Configure Verify) (configDir : String) (a : Answers)
    (app : App Configure Verify) : App Configure Verify :=
  match app.home.selected with
  | 0 => { app with configure := some (others.fromConfig app.cfg), screen := .configure }
  | 1 =>
      let shown := match app.buildflash with
        | some st => if st.isRunning then st else .new app.cfg a
        | none => .new app.cfg a
      { app with buildflash := some shown, screen := .buildFlash }
  | 2 =>
      let shown := match app.build with
        | some st => if st.isRunning then st else .new app.cfg
        | none => .new app.cfg
      { app with build := some shown, screen := .build }
  | 3 =>
      let shown := match app.flash with
        | some st => if st.isRunning then st else .new configDir a
        | none => .new configDir a
      { app with flash := some shown, screen := .flash }
  | 4 =>
      match app.verify.filter others.verifyRunning with
      | some _ => { app with screen := .verify }
      | none =>
          let fresh := others.newImage a
          let calls := if others.verifyRunning fresh then [LogCall.begin "verify-image"] else []
          { app.logged a calls with verify := some fresh, screen := .verify }
  | 5 =>
      match app.verify.filter others.verifyRunning with
      | some _ => { app with screen := .verify }
      | none => { app with verify := some (others.newInstall a), screen := .verify }
  | _ => app.requestQuit

def App.homeKey (others : Others Configure Verify) (configDir : String) (a : Answers)
    (app : App Configure Verify) (key : KeyCode) : App Configure Verify :=
  if app.home.exitPrompt then app.exitPromptKey key
  else
    match key with
    | .up | .char 'k' =>
        let selected := if app.home.selected = 0 then menuLength - 1 else app.home.selected - 1
        { app with home := { app.home with selected := selected } }
    | .down | .char 'j' =>
        { app with home := { app.home with selected := (app.home.selected + 1) % menuLength } }
    | .char 'q' => app.requestQuit
    | .enter => app.openEntry others configDir a
    | _ => app

/-- What a key leads to: the application next and the worker it spawned, or the
message of a panic. -/
abbrev Reaction (Configure Verify : Type) := Except String (App Configure Verify × Option Worker)

/-- A turn of the screen in the slot that `put` writes. -/
def App.takeTurn (app : App Configure Verify) (a : Answers)
    (put : App Configure Verify → Option S → App Configure Verify) (turn : Turn S) :
    Reaction Configure Verify :=
  let app := app.logged a turn.calls
  match turn.next with
  | .stay st => .ok (put app (some st), turn.spawned)
  | .home => .ok ({ put app none with screen := .home }, turn.spawned)
  | .panic message => .error message

/-- The screen that is shown gets the key; without its state the key is dropped. -/
def App.screenKey (others : Others Configure Verify) (configDir : String) (a : Answers)
    (app : App Configure Verify) (key : KeyCode) : Reaction Configure Verify :=
  match app.screen with
  | .home => .ok (app.homeKey others configDir a key, none)
  | .configure =>
      match app.configure with
      | none => .ok (app, none)
      | some st =>
          let (next, cfg) := others.configureKey a app.cfg st key
          { app with cfg := cfg }.takeTurn a (fun app slot => { app with configure := slot })
            ⟨next, [], none⟩
  | .buildFlash =>
      match app.buildflash with
      | none => .ok (app, none)
      | some st =>
          app.takeTurn a (fun app slot => { app with buildflash := slot })
            (BuildFlash.onKey configDir app.cfg a st key)
  | .build =>
      match app.build with
      | none => .ok (app, none)
      | some st =>
          app.takeTurn a (fun app slot => { app with build := slot })
            (Build.onKey app.cfg a st key)
  | .flash =>
      match app.flash with
      | none => .ok (app, none)
      | some st =>
          app.takeTurn a (fun app slot => { app with flash := slot })
            (Flash.onKey configDir a st key)
  | .verify =>
      match app.verify with
      | none => .ok (app, none)
      | some st =>
          let (next, calls) := others.verifyKey a st key
          app.takeTurn a (fun app slot => { app with verify := slot }) ⟨next, calls, none⟩

/-- `on_key` of the main loop: Ctrl+C works everywhere. -/
def App.onKey (others : Others Configure Verify) (configDir : String) (a : Answers)
    (app : App Configure Verify) (key : KeyCode) (control : Bool) : Reaction Configure Verify :=
  if control && key = .char 'c' then .ok ({ app with quit := some .interrupt }, none)
  else app.screenKey others configDir a key

/-- Someone holds the receiver of a build worker. -/
def App.hearsBuild (app : App Configure Verify) : Bool :=
  app.buildflash.any (·.buildRx) || app.build.any (·.rx)

/-- The screens pull the events of their workers. -/
def App.drain (others : Others Configure Verify) (a : Answers) (app : App Configure Verify)
    (build : List BuildEvent) (flash : List FlashEvent) : App Configure Verify :=
  { app with
    buildflash := app.buildflash.map fun st => (st.drainEvents a (build, flash)).1
    build := app.build.map fun st => (st.drainEvents build).1
    flash := app.flash.map fun st => (st.drainEvents flash).1
    verify := app.verify.map fun st => others.verifyDrain a st }

end Keys

end Nixnas.Ui
