import Nixnas.Ui.Screen

/-!
# The Build screen

`src/tui/src/ui/build.rs`: the passphrase, typed twice, then the step checklist
beside the log pane.
-/

set_option autoImplicit false

namespace Nixnas.Ui.Build

open Nixnas.Rust
open Nixnas.Tui.Build (BuildEvent Config SizeOverride StepState stepNames)

inductive Phase where
  | passFirst (buf : String) (error : Option String)
  | passConfirm (first buf : String)
  | running
  | done (ok : Bool)
  deriving DecidableEq, Repr

structure BuildScreen where
  phase : Phase
  steps : List StepState
  log : List String
  scroll : Nat
  follow : Bool
  /-- A receiver is held. -/
  rx : Bool
  message : Option String
  sessionLog : Option String
  size : SizeOverride
  title : String

def minimalImageGib : Nat := 6

def pendingSteps : List StepState := List.replicate stepNames.length .pending

def BuildScreen.new (cfg : Config) : BuildScreen :=
  let (size, title) :=
    if cfg.hostAttr.isSome then
      (SizeOverride.gib minimalImageGib, "Build image — minimal reusable " ++
        toString minimalImageGib ++ " GiB (flash to any stick, grows to fill)")
    else (.fixed, "Build image — fixed .#" ++ cfg.imageAttr)
  ⟨.passFirst "" none, pendingSteps, [], 0, true, false, none, none, size, title⟩

def BuildScreen.isRunning (st : BuildScreen) : Bool := st.phase = .running

/-! ## Worker events -/

def maxLogLines : Nat := 10000

def trimChunk : Nat := 2000

/-- The log pane of a build: step states, lines and the top visible line. -/
structure Pane where
  steps : List StepState
  log : List String
  scroll : Nat

/-- A batch of build events: the step states, the lines, the calls to the
session log and the verdict. -/
def foldBuildEvents (steps : List StepState) (lines : List String) :
    List BuildEvent → List StepState × List String × List LogCall × Option (Except String String)
  | [] => (steps, lines, [], none)
  | .step i state :: rest =>
      let call := (stepNames[i]?).map fun name => LogCall.step name state
      let (steps, lines, calls, verdict) := foldBuildEvents (steps.set i state) lines rest
      (steps, lines, call.toList ++ calls, verdict)
  | .log line :: rest =>
      let (steps, lines, calls, verdict) := foldBuildEvents steps (lines ++ [line]) rest
      (steps, lines, .line line :: calls, verdict)
  | .done result :: rest =>
      let (steps, lines, calls, verdict) := foldBuildEvents steps lines rest
      (steps, lines, calls, verdict <|> some result)

/-- The log is kept bounded; it is trimmed in blocks. -/
def Pane.trimmed (pane : Pane) : Pane :=
  if pane.log.length > maxLogLines then
    let cut := pane.log.length - (maxLogLines - trimChunk)
    { pane with log := pane.log.drop cut, scroll := pane.scroll - cut }
  else pane

def Pane.drain (pane : Pane) (events : List BuildEvent) :
    Pane × List LogCall × Option (Except String String) :=
  let (steps, log, calls, verdict) := foldBuildEvents pane.steps pane.log events
  (Pane.trimmed ⟨steps, log, pane.scroll⟩, calls, verdict)

def BuildScreen.pane (st : BuildScreen) : Pane := ⟨st.steps, st.log, st.scroll⟩

def BuildScreen.withPane (st : BuildScreen) (pane : Pane) : BuildScreen :=
  { st with steps := pane.steps, log := pane.log, scroll := pane.scroll }

/-- `events` is what the channel yields before it is empty or disconnected. -/
def BuildScreen.drainEvents (st : BuildScreen) (events : List BuildEvent) :
    BuildScreen × List LogCall :=
  if st.rx then
    let (pane, calls, verdict) := st.pane.drain events
    let st := st.withPane pane
    match verdict with
    | none => (st, calls)
    | some (.ok img) =>
        ({ st with
            rx := false
            message := some ("Built image: " ++ img)
            phase := .done true },
          calls ++ [.done true ("Built image: " ++ img)])
    | some (.error e) =>
        ({ st with rx := false, message := some e, phase := .done false }, calls ++ [.done false e])
  else (st, [])

/-! ## Keys -/

def onKeyPassFirst (st : BuildScreen) (buf : String) (error : Option String) :
    KeyCode → Turn BuildScreen
  | .esc => .home
  | .enter => .stay
      { st with
        phase := if buf.isEmpty then .passFirst "" (some "Passphrase must not be empty")
          else .passConfirm buf "" }
  | .backspace => .stay { st with phase := .passFirst (pop buf) error }
  | .char c => .stay { st with phase := .passFirst (buf.push c) error }
  | _ => .stay st

/-- The two entries agree: hand the passphrase to the worker. -/
def BuildScreen.startBuild (cfg : Config) (a : Answers) (st : BuildScreen) (passphrase : String) :
    Turn BuildScreen where
  next := .stay { st with sessionLog := a.beginLog, phase := .running, rx := true }
  calls := [.begin "build"]
  spawned := some (.build ⟨cfg, passphrase, st.size⟩)

def onKeyPassConfirm (cfg : Config) (a : Answers) (st : BuildScreen) (first buf : String) :
    KeyCode → Turn BuildScreen
  | .esc => .home
  | .enter =>
      if first = buf then st.startBuild cfg a first
      else .stay
        { st with phase := .passFirst "" (some "Passphrases do not match — try again") }
  | .backspace => .stay { st with phase := .passConfirm first (pop buf) }
  | .char c => .stay { st with phase := .passConfirm first (buf.push c) }
  | _ => .stay st

/-- The log pane's keys. -/
def BuildScreen.scrollKey (st : BuildScreen) : KeyCode → BuildScreen
  | .up => { st with follow := false, scroll := st.scroll - 1 }
  | .down => { st with scroll := st.scroll + 1 }
  | .pageUp => { st with follow := false, scroll := st.scroll - 20 }
  | .pageDown => { st with scroll := st.scroll + 20 }
  | .«end» | .char 'f' => { st with follow := true }
  | _ => st

def onKey (cfg : Config) (a : Answers) (st : BuildScreen) (key : KeyCode) : Turn BuildScreen :=
  match st.phase with
  | .passFirst buf error => onKeyPassFirst st buf error key
  | .passConfirm first buf => onKeyPassConfirm cfg a st first buf key
  -- Esc is deliberately inert: backing out would orphan the pipeline.
  | .running => .stay (st.scrollKey key)
  | .done _ =>
      match key with
      | .esc | .enter => .home
      | _ => .stay (st.scrollKey key)

theorem foldBuildEvents_verdict (steps : List StepState) (lines : List String)
    (events : List BuildEvent) :
    (foldBuildEvents steps lines events).2.2.2.isSome = events.any BuildEvent.isDone := by
  induction events generalizing steps lines with
  | nil => rfl
  | cons event rest ih =>
      cases event with
      | step i state => simpa [foldBuildEvents, BuildEvent.isDone] using ih (steps.set i state) lines
      | log line => simpa [foldBuildEvents, BuildEvent.isDone] using ih steps (lines ++ [line])
      | done result =>
          simp only [foldBuildEvents, BuildEvent.isDone, List.any_cons, Bool.true_or]
          cases (foldBuildEvents steps lines rest).2.2.2 <;> rfl

end Nixnas.Ui.Build
