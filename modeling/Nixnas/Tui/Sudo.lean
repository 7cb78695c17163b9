import Nixnas.Rust.Text

/-!
# Privilege elevation

The decision part of `src/tui/src/sudo.rs`: what has to happen before a
privileged action, and what a typed password is worth.
-/

set_option autoImplicit false

namespace Nixnas.Tui.Sudo

open Nixnas.Rust

inductive Elevation where
  | root
  | «sudo» (secret : String)
  deriving DecidableEq, Repr

inductive Preflight where
  | root
  | needsSudo
  | noSudo
  deriving DecidableEq, Repr

/-- The output of `id -u`, if it ran and is UTF-8, and the scan of `PATH`. -/
structure Privileges where
  id : Option String
  sudoOnPath : Bool

def isRoot (p : Privileges) : Bool :=
  match p.id with
  | some out => trim out = "0"
  | none => false

def preflight (p : Privileges) : Preflight :=
  if isRoot p then .root
  else if p.sudoOnPath then .needsSudo
  else .noSudo

inductive AuthOutcome where
  | ok (elev : Elevation)
  | wrong
  | missing
  | error (e : String)

/-- How the run of `sudo -S -v` goes; the write of the password line to its
standard input is not checked. -/
inductive SudoRun where
  | notFound
  | spawnError (e : String)
  | exited (success : Bool)
  | waitError (e : String)

def authenticate (password : String) : SudoRun → AuthOutcome
  | .notFound => .missing
  | .spawnError e => .error ("running sudo: " ++ e)
  | .exited true => .ok (.sudo password)
  | .exited false => .wrong
  | .waitError e => .error ("waiting for sudo: " ++ e)

/-- An accepted password is the one that elevates. -/
theorem authenticate_ok {password : String} {run : SudoRun} {elev : Elevation}
    (accepted : authenticate password run = .ok elev) : elev = .sudo password := by
  unfold authenticate at accepted
  split at accepted <;> cases accepted
  rfl

end Nixnas.Tui.Sudo
