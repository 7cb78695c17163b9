import Nixnas.Logic.Machine
import Nixnas.Ui.BuildFlash

/-!
# The confirmation of a flash

What an operator sees and types on the way to a flash, recorded beside the
screen and without looking into it: the answer to the backup question, the text
typed into the confirmation modal since it was opened, and what was submitted
there for which device.  A worker is spawned only as the record of the same
pass allows, and never while one runs.
-/

set_option autoImplicit false

namespace Nixnas.Ui

open Nixnas.Logic
open Nixnas.Rust
open Nixnas.Tui.Build (BuildEvent Config)
open Nixnas.Tui.Flash
open Nixnas.Tui.Sudo

/-! ## The operator's view -/

inductive View where
  /-- The page every modal goes back to; a pass starts here. -/
  | review
  | backupAsk
  /-- The confirmation modal, with the device it names. -/
  | confirm (shown : Option String)
  | elsewhere
  deriving DecidableEq, Repr

structure Watch where
  /-- The last answer to the backup question in this pass. -/
  answer : Option Bool
  /-- The text typed into the confirmation modal since it was opened. -/
  typed : String
  /-- The device shown and the text typed when Enter was last pressed there. -/
  submitted : Option (String × String)
  /-- A worker was spawned and its last event has not arrived. -/
  running : Bool
  deriving DecidableEq, Repr

def Watch.fresh : Watch := ⟨none, "", none, false⟩

def Watch.key (w : Watch) (view : View) (key : KeyCode) : Watch :=
  match view with
  | .review => { Watch.fresh with running := w.running }
  | .backupAsk =>
      match key with
      | .char 'y' | .char 'Y' => { w with answer := some true, typed := "" }
      | .char 'n' | .char 'N' => { w with answer := some false, typed := "" }
      | _ => { w with typed := "" }
  | .confirm shown =>
      match key with
      | .char c => { w with typed := w.typed.push c }
      | .backspace => { w with typed := pop w.typed }
      | .enter => { w with typed := "", submitted := shown.map fun name => (name, w.typed) }
      | _ => w
  | .elsewhere => { w with typed := "" }

/-- Enter in the confirmation records what was typed, and for which device. -/
@[simp] theorem Watch.key_enter (w : Watch) (shown : Option String) :
    w.key (.confirm shown) .enter =
      { w with typed := "", submitted := shown.map fun name => (name, w.typed) } := rfl

/-- A screen as the event loop drives it. -/
structure ScreenModel where
  State : Type
  Events : Type
  opens : Answers → State
  onKey : Answers → State → KeyCode → Turn State
  drain : Answers → State → Events → State
  /-- A live channel yields its worker's last event. -/
  ended : State → Events → Bool
  view : State → View
  /-- The recorded image and its size. -/
  image : State → Option (String × Nat)

inductive Input (Events : Type) where
  | key (key : KeyCode)
  | drain (events : Events)

namespace ScreenModel

variable (screen : ScreenModel)

/-- The screen and the operator's record, under any keys, events and answers. -/
def machine : Machine (screen.State × Watch) (Answers × Input screen.Events) where
  initial s := ∃ a, s = (screen.opens a, Watch.fresh)
  step s label next :=
    match label with
    | (a, .key key) =>
        let turn := screen.onKey a s.1 key
        ∃ st, turn.next = .stay st ∧
          next = (st, { s.2.key (screen.view s.1) key with
            running := s.2.running || turn.spawned.isSome })
    | (a, .drain events) =>
        next = (screen.drain a s.1 events,
          { s.2 with running := s.2.running && !screen.ended s.1 events })

end ScreenModel

/-- What the pass recorded by `w` and the environment allow a flash to be. -/
structure Authorised (a : Answers) (w : Watch) (image : Option (String × Nat)) (job : FlashJob) :
    Prop where
  target : ∃ name text, w.submitted = some (name, text) ∧ trim text = name ∧
    job.dev = "/dev/" ++ name
  fits : ∃ size, image = some (job.image, size) ∧ ∀ bytes, job.devSize = some bytes → size ≤ bytes
  backup : w.answer = some job.backupTo.isSome
  elevation : (job.elev = .root ∧ preflight a.privileges = .root) ∨
    ∃ password, authenticate password a.sudo = .ok job.elev ∧ job.elev = .sudo password

/-- Every flash is authorised, and a running worker keeps the screen and every
other worker away. -/
structure Gated (screen : ScreenModel) : Prop where
  authorised : ∀ st w, screen.machine.Reachable (st, w) → ∀ a key job,
    (screen.onKey a st key).spawned = some (.flash job) →
      Authorised a (w.key (screen.view st) key) (screen.image st) job
  exclusive : ∀ st w, screen.machine.Reachable (st, w) → w.running = true → ∀ a key,
    (screen.onKey a st key).spawned = none ∧ ∃ next, (screen.onKey a st key).next = .stay next

end Nixnas.Ui
