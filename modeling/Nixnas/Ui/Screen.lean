import Nixnas.Tui.Build
import Nixnas.Tui.Flash

/-!
# What the screens share

Keys, the disk list, the environment's answers to one turn of a screen, and
what a turn leads to: the screen as it is next, the calls it makes to the
session log, and the worker it spawns.
-/

set_option autoImplicit false

namespace Nixnas.Ui

open Nixnas.Rust
open Nixnas.Tui.Build (BuildEvent Config SizeOverride StepState)
open Nixnas.Tui.Flash
open Nixnas.Tui.Sudo

/-- `crossterm::event::KeyCode`, as far as a screen looks at it. -/
inductive KeyCode where
  | char (c : Char)
  | enter
  | esc
  | backspace
  | delete
  | up
  | down
  | pageUp
  | pageDown
  | «end»
  | other
  deriving DecidableEq, Repr

/-- The calls to `SessionLog`. -/
inductive LogCall where
  | begin (action : String)
  | step (name : String) (state : StepState)
  | line (s : String)
  | phase (title : String)
  | done (ok : Bool) (msg : String)

/-- The arguments of `spawn_build` beside the configuration path. -/
structure BuildJob where
  cfg : Config
  passphrase : String
  size : SizeOverride

inductive Worker where
  | build (job : BuildJob)
  | flash (job : FlashJob)

/-- What the environment answers during one turn of a screen. -/
structure Answers where
  listDisks : Except String (List Disk)
  privileges : Privileges
  «sudo» : SudoRun
  /-- The path of the session-log file that `begin` opens. -/
  beginLog : Option String
  /-- The standard output of `blockdev --getsize64` and of `lsblk -b`, if they succeed. -/
  blockdev : Option String
  lsblk : Option String
  listing : Option (List String)
  imageLen : Except String Nat
  /-- `human_size`, which renders by floating point. -/
  humanSize : Nat → String

/-- `device_bytes`. -/
def deviceBytes (a : Answers) : Option Nat :=
  (a.blockdev.bind fun out => parseU64 (trim out)) <|>
    (a.lsblk.bind fun out => parseU64 (trim out))

inductive Next (Screen : Type) where
  | stay (st : Screen)
  /-- The screen is dropped and HOME is shown. -/
  | home
  | panic (message : String)

structure Turn (Screen : Type) where
  next : Next Screen
  calls : List LogCall
  spawned : Option Worker

def Turn.stay {Screen : Type} (st : Screen) : Turn Screen := ⟨.stay st, [], none⟩

def Turn.home {Screen : Type} : Turn Screen := ⟨.home, [], none⟩

def Turn.panic {Screen : Type} (message : String) : Turn Screen := ⟨.panic message, [], none⟩

/-! ## The disk list -/

structure DiskList where
  disks : List Disk
  selected : Nat
  listError : Option String

def DiskList.empty : DiskList := ⟨[], 0, none⟩

def DiskList.refreshDisks (l : DiskList) (answer : Except String (List Disk)) : DiskList :=
  let (disks, listError) := match answer with
    | .ok disks => (disks, none)
    | .error e => ([], some e)
  ⟨disks, min l.selected (disks.length - 1), listError⟩

def DiskList.selectedDisk (l : DiskList) : Option Disk := l.disks[l.selected]?

def DiskList.selectUp (l : DiskList) : DiskList := { l with selected := l.selected - 1 }

def DiskList.selectDown (l : DiskList) : DiskList :=
  { l with selected := min (l.selected + 1) (l.disks.length - 1) }

end Nixnas.Ui
