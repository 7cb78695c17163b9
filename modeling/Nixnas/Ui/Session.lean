import Mathlib.Logic.Function.Basic
import Nixnas.Logic.Machine
import Nixnas.Ui.App
import Nixnas.Ui.Verify

/-!
# The session

The main loop of `src/tui/src/main.rs` with every worker it spawns, the channel
each of them reports through and the session log.  A worker sends events of its
kind and a last one; the field of a screen that holds its receiver is what the
loop pulls them from.  A log file belongs to the worker that is spawned in the
turn that opens it.

The Configure screen enters as a parameter, which sees the log and the workers
in no way.
-/

set_option autoImplicit false

namespace Nixnas.Ui

open Nixnas.Logic
open Nixnas.Tui.Build (BuildEvent Config)
open Nixnas.Tui.Flash
open Nixnas.Tui.Verify (VerifyEvent)
open Nixnas.Ui.Verify (VerifyScreen)

structure ConfigureModel (Configure : Type) where
  fromConfig : Config → Configure
  onKey : Answers → Config → Configure → KeyCode → Next Configure × Config
  applyPicked : Answers → Configure → Configure

def ConfigureModel.others {Configure : Type} (configure : ConfigureModel Configure)
    (configDir : String) : Others Configure VerifyScreen where
  fromConfig := configure.fromConfig
  configureKey := configure.onKey
  applyPicked := configure.applyPicked
  newImage a := (VerifyScreen.newImage configDir a).1
  newInstall a := VerifyScreen.newInstall configDir a
  verifyKey a st key :=
    let turn := Verify.onKey a st key
    (turn.next, turn.calls)
  -- The session pulls the events of every screen itself.
  verifyDrain _ st := st
  verifyRunning := VerifyScreen.isRunning

/-! ## Workers -/

/-- The fields that hold a receiver. -/
inductive Receiver where
  | flowBuild
  | flowFlash
  | build
  | flash
  | verify
  deriving DecidableEq, Repr

/-- The order in which the loop drains them. -/
def receivers : List Receiver := [.flowBuild, .flowFlash, .build, .flash, .verify]

/-- The field of the Build & Flash screen that gets the receiver of a worker. -/
def Worker.flowField : Worker → Receiver
  | .build _ => .flowBuild
  | .flash _ => .flowFlash

inductive WorkerEvent where
  | build (event : BuildEvent)
  | flash (event : FlashEvent)
  | verify (event : VerifyEvent)

def WorkerEvent.isDone : WorkerEvent → Bool
  | .build event => event.isDone
  | .flash event => event.isDone
  | .verify event => Verify.isDone event

def WorkerEvent.build? : WorkerEvent → Option BuildEvent
  | .build event => some event
  | _ => none

def WorkerEvent.flash? : WorkerEvent → Option FlashEvent
  | .flash event => some event
  | _ => none

def WorkerEvent.verify? : WorkerEvent → Option VerifyEvent
  | .verify event => some event
  | _ => none

/-- The type of the channel. -/
def Receiver.carries : Receiver → WorkerEvent → Bool
  | .flowBuild, .build _ | .build, .build _ => true
  | .flowFlash, .flash _ | .flash, .flash _ => true
  | .verify, .verify _ => true
  | _, _ => false

/-- The last event of the worker is among those pulled. -/
def Receiver.ends (events : List WorkerEvent) : Receiver → Bool
  | .flowBuild | .build => (events.filterMap WorkerEvent.build?).any BuildEvent.isDone
  | .flowFlash | .flash => (events.filterMap WorkerEvent.flash?).any FlashEvent.isDone
  | .verify => (events.filterMap WorkerEvent.verify?).any Verify.isDone

structure Thread where
  receiver : Receiver
  /-- What it sent and nobody pulled. -/
  sent : List WorkerEvent
  /-- It sent its last event. -/
  finished : Bool
  /-- Its last event was pulled. -/
  reported : Bool

/-! ## The session log -/

structure SessionLog where
  /-- The worker of the action whose file is open. -/
  writer : Option Nat
  /-- For each line of a worker, the worker of the file and the worker itself. -/
  lines : List (Nat × Nat)

/-- One line of worker `id`; a failing write closes the file. -/
def SessionLog.write (log : SessionLog) (id : Nat) (succeeds : Bool) : SessionLog :=
  match log.writer with
  | none => log
  | some action =>
      if succeeds then { log with lines := (action, id) :: log.lines }
      else { log with writer := none }

def SessionLog.finish (log : SessionLog) : SessionLog := { log with writer := none }

/-- The calls of one turn or drain of worker `id`; `writes` of them find the disk
there. -/
def SessionLog.tee (opens : Bool) (id : Nat) : List LogCall → Nat → SessionLog → SessionLog
  | [], _, log => log
  | .begin _ :: rest, writes, log =>
      tee opens id rest (writes - 1)
        { log.finish with writer := if opens && 0 < writes then some id else none }
  | .done _ _ :: rest, writes, log =>
      tee opens id rest (writes - 1) (log.write id (0 < writes)).finish
  | _ :: rest, writes, log => tee opens id rest (writes - 1) (log.write id (0 < writes))

/-! ## The loop -/

structure Session (Configure : Type) where
  app : App Configure VerifyScreen
  threads : Nat → Option Thread
  nextThread : Nat
  /-- The worker whose receiver was last put in the field. -/
  channel : Receiver → Option Nat
  log : SessionLog
  panicked : Bool

section Loop

variable {Configure : Type}

/-- `App::op_running`. -/
def App.opRunning (app : App Configure VerifyScreen) : Bool :=
  app.buildflash.any (·.isRunning) || app.build.any (·.isRunning) ||
    app.flash.any (·.isRunning) || app.verify.any (·.isRunning)

/-- What HOME does beside what `App.homeKey` says: the image is checked by a
worker that its screen's constructor spawns. -/
def App.homeOperation (configDir : String) (a : Answers) (app : App Configure VerifyScreen)
    (key : KeyCode) : List LogCall × Option Receiver :=
  if app.home.exitPrompt = false ∧ key = .enter ∧ app.home.selected = 4 ∧
      app.verify.filter VerifyScreen.isRunning = none then
    let (fresh, job) := VerifyScreen.newImage configDir a
    (if fresh.isRunning then [.begin "verify-image"] else [], job.map fun _ => .verify)
  else ([], none)

/-- The calls to the session log that a key leads to, and the field that gets the
receiver of the worker it spawns. -/
def App.operation (configDir : String) (a : Answers) (app : App Configure VerifyScreen)
    (key : KeyCode) : List LogCall × Option Receiver :=
  match app.screen with
  | .home => app.homeOperation configDir a key
  | .configure => ([], none)
  | .buildFlash =>
      match app.buildflash with
      | none => ([], none)
      | some st =>
          let turn := BuildFlash.onKey configDir app.cfg a st key
          (turn.calls, turn.spawned.map Worker.flowField)
  | .build =>
      match app.build with
      | none => ([], none)
      | some st =>
          let turn := Build.onKey app.cfg a st key
          (turn.calls, turn.spawned.map fun _ => .build)
  | .flash =>
      match app.flash with
      | none => ([], none)
      | some st =>
          let turn := Flash.onKey configDir a st key
          (turn.calls, turn.spawned.map fun _ => .flash)
  | .verify =>
      match app.verify with
      | none => ([], none)
      | some st =>
          let turn := Verify.onKey a st key
          (turn.calls, turn.spawned.map fun _ => .verify)

/-- A screen that holds the receiver pulls the events; they go to its pane and to
the log. -/
def App.pull (a : Answers) (app : App Configure VerifyScreen) (events : List WorkerEvent) :
    Receiver → Option (App Configure VerifyScreen × List LogCall)
  | .flowBuild => (app.buildflash.filter (·.buildRx)).map fun st =>
      let (st, calls) := st.drainBuild a (events.filterMap WorkerEvent.build?)
      ({ app with buildflash := some st }, calls)
  | .flowFlash => (app.buildflash.filter (·.flashRx)).map fun st =>
      let (st, calls) := st.drainFlash (events.filterMap WorkerEvent.flash?)
      ({ app with buildflash := some st }, calls)
  | .build => (app.build.filter (·.rx)).map fun st =>
      let (st, calls) := st.drainEvents (events.filterMap WorkerEvent.build?)
      ({ app with build := some st }, calls)
  | .flash => (app.flash.filter (·.rx)).map fun st =>
      let (st, calls) := st.drainEvents (events.filterMap WorkerEvent.flash?)
      ({ app with flash := some st }, calls)
  | .verify => (app.verify.filter (·.rx)).map fun st =>
      let (st, calls) := st.drainEvents (events.filterMap WorkerEvent.verify?)
      ({ app with verify := some st }, calls)

namespace Session

def start (cfg : Config) : Session Configure where
  app := .new cfg
  threads _ := none
  nextThread := 0
  channel _ := none
  log := ⟨none, []⟩
  panicked := false

def spawn (s : Session Configure) : Option Receiver → Session Configure
  | none => s
  | some receiver =>
      { s with
        threads := Function.update s.threads s.nextThread (some ⟨receiver, [], false, false⟩)
        channel := Function.update s.channel receiver (some s.nextThread)
        nextThread := s.nextThread + 1 }

/-- What a key leads to; the exit prompt closes the log on the way out. -/
def onKey (configure : ConfigureModel Configure) (configDir : String) (a : Answers) (writes : Nat)
    (s : Session Configure) (key : KeyCode) (control : Bool) : Session Configure :=
  match s.app.onKey (configure.others configDir) configDir a key control with
  | .error _ => { s with panicked := true }
  | .ok (app, _) =>
      if control && key = .char 'c' then { s with app := app }
      else
        let (calls, spawned) := s.app.operation configDir a key
        let log := s.log.tee a.beginLog.isSome s.nextThread calls writes
        let log := if s.app.home.exitPrompt && app.quit.isSome then log.finish else log
        ({ s with app := app, log := log }).spawn spawned

def drainReceiver (a : Answers) (writes : Nat) (s : Session Configure) (receiver : Receiver) :
    Session Configure :=
  match s.channel receiver with
  | none => s
  | some id =>
      match s.threads id with
      | none => s
      | some thread =>
          match s.app.pull a thread.sent receiver with
          | none => s
          | some (app, calls) =>
              { s with
                app := app
                log := s.log.tee false id calls writes
                threads := Function.update s.threads id (some
                  { thread with
                    sent := []
                    reported := thread.reported || receiver.ends thread.sent }) }

def drain (a : Answers) (writes : Receiver → Nat) (s : Session Configure) : Session Configure :=
  receivers.foldl (fun s receiver => s.drainReceiver a (writes receiver) receiver) s

/-- A running worker sends an event; it sends nothing after its last one. -/
def send (s : Session Configure) (id : Nat) (event : WorkerEvent) : Option (Session Configure) :=
  (s.threads id).bind fun thread =>
    if !thread.finished && thread.receiver.carries event then
      some { s with threads := Function.update s.threads id (some
        { thread with sent := thread.sent ++ [event], finished := event.isDone }) }
    else none

end Session

inductive SessionEvent where
  | key (a : Answers) (writes : Nat) (key : KeyCode) (control : Bool)
  | drain (a : Answers) (writes : Receiver → Nat)
  | picked (a : Answers)
  | send (id : Nat) (event : WorkerEvent)

/-- One step: `while !app.quit` drains, then handles a key. -/
def Session.step (configure : ConfigureModel Configure) (configDir : String)
    (s : Session Configure) (event : SessionEvent) : Option (Session Configure) :=
  if s.panicked then none
  else
    match event with
    | .key a writes key control =>
        if s.app.quit.isSome then none else some (s.onKey configure configDir a writes key control)
    | .drain a writes => if s.app.quit.isSome then none else some (s.drain a writes)
    | .picked a => some { s with
        app := { s.app with configure := s.app.configure.map (configure.applyPicked a) } }
    | .send id event => s.send id event

def Session.machine (configure : ConfigureModel Configure) (configDir : String) (cfg : Config) :
    Machine (Session Configure) SessionEvent :=
  Machine.ofStep (fun s => s = .start cfg) (Session.step configure configDir)

/-! ## What the session keeps -/

/-- The slot of the screen that is shown is there, and no other. -/
structure App.OneSlot (app : App Configure VerifyScreen) : Prop where
  configure : app.configure.isSome = true ↔ app.screen = .configure
  buildflash : app.buildflash.isSome = true ↔ app.screen = .buildFlash
  build : app.build.isSome = true ↔ app.screen = .build
  flash : app.flash.isSome = true ↔ app.screen = .flash
  verify : app.verify.isSome = true ↔ app.screen = .verify

/-- The worker runs, as far as anybody has heard. -/
def Session.Running (s : Session Configure) (id : Nat) : Prop :=
  ∃ thread, s.threads id = some thread ∧ thread.reported = false

structure Session.Coherent (s : Session Configure) : Prop where
  oneSlot : s.app.OneSlot
  oneWorker : ∀ one other, s.Running one → s.Running other → one = other
  opRunning : s.app.opRunning = true ↔ ∃ id, s.Running id
  /-- The open log file belongs to the action of the running worker. -/
  writer : ∀ id, s.log.writer = some id → s.Running id
  /-- No event of a worker was written to the file of another one's action. -/
  lines : ∀ line ∈ s.log.lines, line.1 = line.2
  quit : s.app.quit = some .menu → ∀ id, ¬ s.Running id

end Loop

end Nixnas.Ui
