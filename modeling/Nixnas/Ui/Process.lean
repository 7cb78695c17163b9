import Nixnas.Logic.Machine
import Nixnas.Tui.Report
import Nixnas.Ui.App

/-!
# The process

The main loop beside the build worker's thread.  Returning from `main` ends the
process and stops the worker wherever it is, so that the destructors still to
come never run.
-/

set_option autoImplicit false

namespace Nixnas.Ui

open Nixnas.Logic Nixnas.Logic.Action
open Nixnas.Tui.Build
open Nixnas.Tui.Flash

/-- A build worker, by the number of operations it has performed. -/
structure Running where
  start : World
  answers : Tui.Build.Answers
  job : BuildJob
  steps : Nat
  /-- How many of its events the screen has pulled. -/
  taken : Nat
  /-- Its last event is among them. -/
  reported : Bool

def Running.outcome (s : Setting) (r : Running) : Outcome World String Unit :=
  spawnBuild s r.answers r.job.cfg r.job.passphrase r.job.size r.start r.steps

def Running.world (s : Setting) (r : Running) : World := (r.outcome s).world

/-- How the process ended: by the flag, by an error of the terminal, or by a panic
of the main thread. -/
inductive Exit where
  | quit (cause : Quit)
  | terminalError
  | panic
  deriving DecidableEq, Repr

structure Process (Configure Verify : Type) where
  app : App Configure Verify
  /-- The secret paths before the first build. -/
  idle : World
  worker : Option Running
  /-- A worker was spawned beside one that had not reported its end.  The state
  of one worker says nothing about two; this never happens. -/
  overlap : Bool
  exit : Option Exit

inductive Label where
  | key (a : Answers) (b : Tui.Build.Answers) (key : KeyCode) (control : Bool)
  | drain (a : Answers) (flash : List FlashEvent)
  | picked (a : Answers)
  | work
  | leave
  | terminalError

namespace Process

variable {Configure Verify : Type}

def start (cfg : Config) (w : World) : Process Configure Verify :=
  ⟨.new cfg, w, none, false, none⟩

def world (s : Setting) (p : Process Configure Verify) : World :=
  match p.worker with
  | none => p.idle
  | some r => r.world s

/-- A build worker has not come to its end. -/
def building (s : Setting) (p : Process Configure Verify) : Bool :=
  p.worker.any fun r => (r.outcome s).returned.isNone

/-- What a key spawned; the threads of other workers touch no secret. -/
def spawn (s : Setting) (b : Tui.Build.Answers) (p : Process Configure Verify) :
    Option Worker → Process Configure Verify
  | some (.build job) =>
      { p with
        worker := some ⟨{ p.world s with events := [] }, b, job, 0, 0, false⟩
        overlap := p.overlap || p.worker.any fun r => !r.reported }
  | some (.flash _) | none => p

/-- The events the worker has sent and nobody has pulled. -/
def pending (s : Setting) (p : Process Configure Verify) : List BuildEvent :=
  match p.worker with
  | none => []
  | some r => (r.world s).events.drop r.taken

/-- The worker after a drain that pulled `events`. -/
def pulled (p : Process Configure Verify) (events : List BuildEvent) : Option Running :=
  if p.app.hearsBuild then
    p.worker.map fun r =>
      { r with
        taken := r.taken + events.length
        reported := r.reported || events.any BuildEvent.isDone }
  else p.worker

/-- One step of the process; a label that is not enabled answers `none`. -/
def step (others : Others Configure Verify) (s : Setting) (p : Process Configure Verify)
    (label : Label) : Option (Process Configure Verify) :=
  if p.exit.isSome then none
  else
    match label with
    | .key a b key control =>
        if p.app.quit.isSome then none
        else
          match p.app.onKey others s.base a key control with
          | .error _ => some { p with exit := some .panic }
          | .ok (app, spawned) => some ({ p with app := app }.spawn s b spawned)
    | .drain a flash =>
        if p.app.quit.isSome then none
        else
          let events := p.pending s
          some { p with app := p.app.drain others a events flash, worker := p.pulled events }
    | .picked a =>
        some { p with
          app := { p.app with configure := p.app.configure.map (others.applyPicked a) } }
    | .work =>
        match p.worker with
        | none => none
        | some r =>
            if (r.outcome s).returned.isSome then none
            else some { p with worker := some { r with steps := r.steps + 1 } }
    -- `while !app.quit` is left, `main` returns.
    | .leave => p.app.quit.map fun cause => { p with exit := some (.quit cause) }
    -- `draw`, `poll` or `read` fails.
    | .terminalError =>
        if p.app.quit.isSome then none else some { p with exit := some .terminalError }

def machine (others : Others Configure Verify) (s : Setting) (cfg : Config) (w : World) :
    Machine (Process Configure Verify) Label :=
  Machine.ofStep (fun p => p = start cfg w) (step others s)

/-- The key starts a build only if every secret that build creates is covered. -/
def Careful (others : Others Configure Verify) (s : Setting) (p : Process Configure Verify)
    (label : Label) : Prop :=
  ∀ a b key control app job, label = .key a b key control →
    p.app.onKey others s.base a key control = .ok (app, some (.build job)) →
      Covered b job.cfg (p.world s)

end Process

end Nixnas.Ui
