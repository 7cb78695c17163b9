import Mathlib.Logic.Function.Basic
import Nixnas.Logic.Machine

/-!
# `nixnas-switch`, systemd and the activation lock

The wrapper script of `modules/appliance/switch.nix`, one command at a time, in
a system with the transient units it starts, the result files, the lock path of
switch-to-configuration and the switch-to-configuration processes.  Any number
of invocations run interleaved; `Event` says whose turn it is and what the
environment answers.

`systemd-run` refuses a unit name that is loaded and loads it otherwise.  The
hook of `ExecStopPost` truncates and then writes the mode's result file before
the unit is collected.  A switch-to-configuration process opens (or creates)
the lock path, tries `flock` on that inode and holds it until it exits; it may
leave the lock to an orphan that inherited the descriptor.
-/

set_option autoImplicit false

namespace Nixnas.Switch

open Nixnas.Logic

inductive Mode where
  | switch
  | boot
  | test
  deriving DecidableEq, Repr

/-- The order of `for m in switch boot test`. -/
def modes : List Mode := [.switch, .boot, .test]

theorem mem_modes (mode : Mode) : mode ∈ modes := by
  cases mode <;> decide

abbrev Pid := Nat
abbrev Inode := Nat

/-! ## Arguments and target -/

def defaultTarget : String := "/nix/var/nix/profiles/system"

/-- The `while [ $# -gt 0 ]` loop; `none` is `usage`, which exits with 2. -/
def parseArgs : List String → Option Mode → String → Option (Mode × String)
  | [], mode, target => some (mode.getD .switch, if target = "" then defaultTarget else target)
  | "switch" :: rest, _, target => parseArgs rest (some .switch) target
  | "boot" :: rest, _, target => parseArgs rest (some .boot) target
  | "test" :: rest, _, target => parseArgs rest (some .test) target
  | "--generation" :: generation :: rest, mode, _ => parseArgs rest mode generation
  | _ :: _, _, _ => none

/-- What the commands before the in-flight check answer: `id -u`, `readlink -f`
on the target, and `[ -x "$stc" ]`. -/
structure Target where
  root : Bool
  resolved : String → Option String
  executable : String → Bool

/-- Everything up to the in-flight check: the mode to run, or the exit code. -/
def startup (args : List String) (target : Target) : Except Nat Mode :=
  match parseArgs args none "" with
  | none => .error 2
  | some (mode, generation) =>
      if !target.root then .error 1
      else
        match target.resolved generation with
        | none => .error 1
        | some toplevel =>
            if !("/nix/store/".toList.isPrefixOf toplevel.toList) then .error 1
            else if target.executable (toplevel ++ "/bin/switch-to-configuration") then .ok mode
            else .error 1

/-! ## The shared state -/

/-- What `resultCapture` prints: `$SERVICE_RESULT` and `$EXIT_STATUS`. -/
structure Report where
  result : String
  status : String
  deriving DecidableEq, Repr

inductive ResultFile where
  | absent
  | empty
  | written (report : Report)
  deriving DecidableEq, Repr

/-- `[ -s "$resfile" ]`. -/
def ResultFile.nonEmpty : ResultFile → Bool
  | .written _ => true
  | _ => false

inductive UnitPhase where
  | queued
  | active (stc : Nat)
  | stopPost (report : Report)
  | capturing (report : Report)
  | finished
  deriving DecidableEq, Repr

/-- A loaded `nixnas-switch-<mode>.service` and the invocation that started it. -/
structure UnitRun where
  starter : Pid
  phase : UnitPhase
  deriving DecidableEq, Repr

inductive StcPhase where
  | spawned
  | opened (inode : Inode)
  | holding (inode : Inode)
  deriving DecidableEq, Repr

structure Stc where
  id : Nat
  phase : StcPhase
  deriving DecidableEq, Repr

/-- The next command of a running script. -/
inductive Pc where
  | probe (rest : List Mode)
  | lockExists
  | flockProbe
  | pgrep
  | removeLock
  | mkdirRun
  | removeResult
  | systemdRun
  | pollResult
  | pollUnit
  | grace
  | drain
  | report
  | exited (code : Nat)
  | interrupted
  deriving DecidableEq, Repr

structure Invocation where
  mode : Mode
  pc : Pc
  deriving DecidableEq, Repr

structure System where
  units : Mode → Option UnitRun
  results : Mode → ResultFile
  lockPath : Option Inode
  nextInode : Inode
  stcs : List Stc
  nextStc : Nat
  orphans : List Inode
  procs : Pid → Option Invocation

/-- `systemctl show -p LoadState` answers `loaded`. -/
def System.loaded (s : System) (mode : Mode) : Bool := (s.units mode).isSome

def System.locked (s : System) (inode : Inode) : Bool :=
  s.orphans.contains inode || s.stcs.any fun stc => stc.phase = .holding inode

def System.goto (s : System) (pid : Pid) (inv : Invocation) (pc : Pc) : System :=
  { s with procs := Function.update s.procs pid (some { inv with pc := pc }) }

def System.setUnit (s : System) (mode : Mode) (unit : Option UnitRun) : System :=
  { s with units := Function.update s.units mode unit }

def System.setResult (s : System) (mode : Mode) (file : ResultFile) : System :=
  { s with results := Function.update s.results mode file }

def System.setStc (s : System) (id : Nat) (phase : StcPhase) : System :=
  { s with stcs := s.stcs.map fun stc => if stc.id = id then { stc with phase := phase } else stc }

/-- Nothing of this tool has run yet: no unit is loaded, no script is running. -/
def System.AtBoot (s : System) : Prop :=
  (∀ mode, s.units mode = none) ∧ (∀ pid, s.procs pid = none)

/-! ## The script -/

/-- `exit` as the last lines of the script choose it from the captured report. -/
def Report.exitCode (report : Report) : Nat :=
  if report.result = "success" then 0
  else if report.status = "" ∨ ¬ (report.status.toList.all Char.isDigit) ∨ report.status = "0" then 1
  else report.status.toNat?.getD 0 % 256

/-- One command of invocation `pid`, with its effect on the shared state. -/
def command (s : System) (pid : Pid) (inv : Invocation) : Option System :=
  match inv.pc with
  | .probe [] => some (s.goto pid inv .lockExists)
  | .probe (mode :: rest) =>
      if s.loaded mode then some (s.goto pid inv (.exited 1))
      else some (s.goto pid inv (.probe rest))
  | .lockExists =>
      if s.lockPath.isSome then some (s.goto pid inv .flockProbe)
      else some (s.goto pid inv .mkdirRun)
  | .flockProbe =>
      -- `flock` creates the file when it vanished since the test above
      match s.lockPath with
      | none =>
          some ({ s with lockPath := some s.nextInode, nextInode := s.nextInode + 1 }.goto pid inv
            .mkdirRun)
      | some inode =>
          if s.locked inode then some (s.goto pid inv .pgrep)
          else some (s.goto pid inv .mkdirRun)
  | .pgrep =>
      if s.stcs.isEmpty then some (s.goto pid inv .removeLock)
      else some (s.goto pid inv (.exited 1))
  | .removeLock => some ({ s with lockPath := none }.goto pid inv .mkdirRun)
  | .mkdirRun => some (s.goto pid inv .removeResult)
  | .removeResult => some ((s.setResult inv.mode .absent).goto pid inv .systemdRun)
  | .systemdRun =>
      if s.loaded inv.mode then some (s.goto pid inv (.exited 1))
      else some ((s.setUnit inv.mode (some ⟨pid, .queued⟩)).goto pid inv .pollResult)
  | .pollResult =>
      if (s.results inv.mode).nonEmpty then some (s.goto pid inv .drain)
      else some (s.goto pid inv .pollUnit)
  | .pollUnit =>
      if s.loaded inv.mode then some (s.goto pid inv .pollResult)
      else some (s.goto pid inv .grace)
  | .grace =>
      if (s.results inv.mode).nonEmpty then some (s.goto pid inv .pollResult)
      else some (s.goto pid inv (.exited 1))
  | .drain => some (s.goto pid inv .report)
  | .report =>
      match s.results inv.mode with
      | .written report => some (s.goto pid inv (.exited report.exitCode))
      | _ => some (s.goto pid inv (.exited 1))
  | .exited _ => none
  | .interrupted => none

/-- The commands whose failure ends the script under `errexit`. -/
def Pc.mayFail : Pc → Bool
  | .removeLock | .mkdirRun | .removeResult | .systemdRun => true
  | _ => false

def Pc.live : Pc → Bool
  | .exited _ | .interrupted => false
  | _ => true

/-! ## The system -/

inductive Event where
  | launch (pid : Pid) (args : List String) (target : Target)
  | exec (pid : Pid)
  | fail (pid : Pid)
  | interrupt (pid : Pid)
  | unitStart (mode : Mode)
  | stcOutside
  | stcOpen (id : Nat)
  | stcLock (id : Nat)
  | stcExit (id : Nat) (report : Report) (orphaned : Bool)
  | stopPostOpen (mode : Mode)
  | stopPostWrite (mode : Mode)
  | collect (mode : Mode)
  | orphanExit (inode : Inode)

def launched (args : List String) (target : Target) : Invocation :=
  match startup args target with
  | .error code => ⟨.switch, .exited code⟩
  | .ok mode => ⟨mode, .probe modes⟩

/-- The unit whose main process is `id` moves on to its `ExecStopPost`. -/
def stopUnits (units : Mode → Option UnitRun) (id : Nat) (report : Report) :
    Mode → Option UnitRun := fun mode =>
  (units mode).map fun unit =>
    if unit.phase = .active id then { unit with phase := .stopPost report } else unit

def stcExit (s : System) (stc : Stc) (report : Report) (orphaned : Bool) : System :=
  { s with
    stcs := s.stcs.filter fun other => other.id ≠ stc.id
    orphans :=
      match stc.phase with
      | .holding inode => if orphaned then inode :: s.orphans else s.orphans
      | _ => s.orphans
    units := stopUnits s.units stc.id report }

def step (s : System) : Event → Option System
  | .launch pid args target =>
      match s.procs pid with
      | some _ => none
      | none => some { s with procs := Function.update s.procs pid (some (launched args target)) }
  | .exec pid => (s.procs pid).bind fun inv => command s pid inv
  | .fail pid => (s.procs pid).bind fun inv =>
      if inv.pc.mayFail then some (s.goto pid inv (.exited 1)) else none
  | .interrupt pid => (s.procs pid).bind fun inv =>
      if inv.pc.live then some (s.goto pid inv .interrupted) else none
  | .unitStart mode =>
      match s.units mode with
      | some ⟨starter, .queued⟩ =>
          some ({ s with
            stcs := ⟨s.nextStc, .spawned⟩ :: s.stcs
            nextStc := s.nextStc + 1 }.setUnit mode (some ⟨starter, .active s.nextStc⟩))
      | _ => none
  | .stcOutside =>
      some { s with stcs := ⟨s.nextStc, .spawned⟩ :: s.stcs, nextStc := s.nextStc + 1 }
  | .stcOpen id =>
      if s.stcs.contains ⟨id, .spawned⟩ then
        match s.lockPath with
        | some inode => some (s.setStc id (.opened inode))
        | none =>
            some ({ s with lockPath := some s.nextInode, nextInode := s.nextInode + 1 }.setStc id
              (.opened s.nextInode))
      else none
  | .stcLock id =>
      match s.stcs.find? fun stc => stc.id = id with
      | some ⟨_, .opened inode⟩ =>
          if s.locked inode then none else some (s.setStc id (.holding inode))
      | _ => none
  | .stcExit id report orphaned =>
      (s.stcs.find? fun stc => stc.id = id).map fun stc => stcExit s stc report orphaned
  | .stopPostOpen mode =>
      match s.units mode with
      | some ⟨starter, .stopPost report⟩ =>
          some ((s.setResult mode .empty).setUnit mode (some ⟨starter, .capturing report⟩))
      | _ => none
  | .stopPostWrite mode =>
      match s.units mode with
      | some ⟨starter, .capturing report⟩ =>
          some ((s.setResult mode (.written report)).setUnit mode (some ⟨starter, .finished⟩))
      | _ => none
  | .collect mode =>
      match s.units mode with
      | some ⟨_, .finished⟩ => some (s.setUnit mode none)
      | _ => none
  | .orphanExit inode => some { s with orphans := s.orphans.erase inode }

def machine : Machine System Event := Machine.ofStep System.AtBoot step

end Nixnas.Switch
