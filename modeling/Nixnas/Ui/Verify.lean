import Nixnas.Tui.Verify
import Nixnas.Ui.Screen

/-!
# The Verify screen

`src/tui/src/ui/verify.rs`: both entries of HOME.  The image is checked right
away, its worker is spawned by the constructor; for a device there is a disk to
pick first.
-/

set_option autoImplicit false

namespace Nixnas.Ui.Verify

open Nixnas.Rust
open Nixnas.Tui.Build (StepState)
open Nixnas.Tui.Flash
open Nixnas.Tui.Sudo
open Nixnas.Tui.Verify (VerifyEvent stepNamesImage stepNamesInstall)

inductive VerifyMode where
  | image
  | install
  deriving DecidableEq, Repr

inductive Phase where
  | devices
  | sudoPass (buf : String) (error : Option String)
  | running
  | done (ok : Bool)
  deriving DecidableEq, Repr

/-- What the panes show of the worker. -/
structure Findings where
  steps : List StepState
  details : List String
  gaugeTitle : String
  progress : Nat × Nat

structure VerifyScreen extends DiskList, Findings where
  mode : VerifyMode
  phase : Phase
  scroll : Nat
  follow : Bool
  /-- A receiver is held. -/
  rx : Bool
  skip : Bool
  image : Option (String × Nat)
  pendingDev : Option String
  message : Option String
  sessionLog : Option String

/-- The arguments of `spawn_verify_image` and `spawn_verify_install`. -/
inductive VerifyJob where
  | image (image : String)
  | install (dev : String) (image : Option String) (elev : Elevation)

def stepNames : VerifyMode → List String
  | .image => stepNamesImage
  | .install => stepNamesInstall

def VerifyScreen.empty (mode : VerifyMode) : VerifyScreen where
  toDiskList := .empty
  steps := List.replicate 5 .pending
  details := []
  gaugeTitle := ""
  progress := (0, 0)
  mode := mode
  phase := .devices
  scroll := 0
  follow := true
  rx := false
  skip := false
  image := none
  pendingDev := none
  message := none
  sessionLog := none

/-- The checks start immediately. -/
def VerifyScreen.newImage (configDir : String) (a : Answers) : VerifyScreen × Option VerifyJob :=
  let screen := VerifyScreen.empty .image
  match findImage configDir a.listing with
  | .ok img =>
      let size := match a.imageLen with
        | .ok len => len
        | .error _ => 0
      ({ screen with rx := true, image := some (img, size), phase := .running }, some (.image img))
  | .error e => ({ screen with message := some e, phase := .done false }, none)

def VerifyScreen.newInstall (configDir : String) (a : Answers) : VerifyScreen :=
  let image := do
    let path ← (findImage configDir a.listing).toOption
    let len ← a.imageLen.toOption
    pure (path, len)
  { VerifyScreen.empty .install with
    image := image
    toDiskList := DiskList.empty.refreshDisks a.listDisks }

def VerifyScreen.isRunning (st : VerifyScreen) : Bool := st.phase = .running

/-! ## Worker events -/

def isDone : VerifyEvent → Bool
  | .done _ => true
  | _ => false

/-- What a batch of events leads to: the panes, log calls, verdict. -/
def foldEvents (names : List String) (panes : Findings) :
    List VerifyEvent → Findings × List LogCall × Option (Except String String)
  | [] => (panes, [], none)
  | .step i state :: rest =>
      let call := (names[i]?).map fun name => LogCall.step name state
      let (panes, calls, verdict) :=
        foldEvents names { panes with steps := panes.steps.set i state } rest
      (panes, call.toList ++ calls, verdict)
  | .detail line :: rest =>
      let (panes, calls, verdict) :=
        foldEvents names { panes with details := panes.details ++ [line] } rest
      (panes, .line line :: calls, verdict)
  | .phase title :: rest =>
      let (panes, calls, verdict) :=
        foldEvents names { panes with gaugeTitle := title, progress := (0, 0) } rest
      (panes, .phase title :: calls, verdict)
  | .progress done total :: rest => foldEvents names { panes with progress := (done, total) } rest
  | .done result :: rest =>
      let (panes, calls, verdict) := foldEvents names panes rest
      (panes, calls, verdict <|> some result)

/-- `events` is what the channel yields before it is empty or disconnected. -/
def VerifyScreen.drainEvents (st : VerifyScreen) (events : List VerifyEvent) :
    VerifyScreen × List LogCall :=
  if st.rx then
    let (panes, calls, verdict) := foldEvents (stepNames st.mode) st.toFindings events
    let st := { st with toFindings := panes }
    match verdict with
    | none => (st, calls)
    | some (.ok msg) =>
        ({ st with rx := false, message := some msg, phase := .done true },
          calls ++ [.done true msg])
    | some (.error e) =>
        ({ st with rx := false, message := some e, phase := .done false }, calls ++ [.done false e])
  else (st, [])

/-! ## Keys -/

/-- A turn of this screen; its workers are not those of the other screens. -/
structure VerifyTurn where
  next : Next VerifyScreen
  calls : List LogCall
  spawned : Option VerifyJob

def VerifyTurn.stay (st : VerifyScreen) : VerifyTurn := ⟨.stay st, [], none⟩

def VerifyTurn.home : VerifyTurn := ⟨.home, [], none⟩

/-- Start the checks of a device, with a fresh skip flag. -/
def VerifyScreen.armInstall (a : Answers) (st : VerifyScreen) (dev : String) (elev : Elevation) :
    VerifyTurn where
  next := .stay { st with skip := false, sessionLog := a.beginLog, rx := true, phase := .running }
  calls := [.begin "verify-install"]
  spawned := some (.install dev (st.image.map Prod.fst) elev)

/-- The panes' keys. -/
def VerifyScreen.scrollKey (st : VerifyScreen) : KeyCode → VerifyScreen
  | .up => { st with follow := false, scroll := st.scroll - 1 }
  | .down => { st with scroll := st.scroll + 1 }
  | .pageUp => { st with follow := false, scroll := st.scroll - 20 }
  | .pageDown => { st with scroll := st.scroll + 20 }
  | .«end» | .char 'f' => { st with follow := true }
  | _ => st

def onKeyDevices (a : Answers) (st : VerifyScreen) : KeyCode → VerifyTurn
  | .esc => .home
  | .up | .char 'k' => .stay { st with toDiskList := st.selectUp }
  | .down | .char 'j' => .stay { st with toDiskList := st.selectDown }
  | .char 'r' => .stay { st with toDiskList := st.refreshDisks a.listDisks }
  | .enter =>
      match st.selectedDisk with
      | none => .stay st
      | some disk =>
          match preflight a.privileges with
          | .root => st.armInstall a disk.devPath .root
          | .needsSudo => .stay
              { st with pendingDev := some disk.devPath, phase := .sudoPass "" none }
          -- A direct read; the verdict explains what it cannot read.
          | .noSudo => st.armInstall a disk.devPath .root
  | _ => .stay st

/-- Enter in the password modal; the typed text is taken out of its field. -/
def submitSudo (a : Answers) (st : VerifyScreen) (buf : String) (error : Option String) :
    VerifyTurn :=
  let st := { st with phase := .sudoPass "" error }
  match authenticate buf a.sudo with
  | .ok elev =>
      match st.pendingDev with
      | some dev => st.armInstall a dev elev
      | none => .stay st
  | .wrong => .stay { st with phase := .sudoPass "" (some "Wrong sudo password — try again") }
  | .missing =>
      match st.pendingDev with
      | some dev => st.armInstall a dev .root
      | none => .stay st
  | .error e => .stay { st with message := some e, phase := .done false }

def onKeySudoPass (a : Answers) (st : VerifyScreen) (buf : String) (error : Option String) :
    KeyCode → VerifyTurn
  | .esc => .stay { st with phase := .devices }
  | .enter => submitSudo a st buf error
  | .backspace => .stay { st with phase := .sudoPass (pop buf) error }
  | .char c => .stay { st with phase := .sudoPass (buf.push c) error }
  | _ => .stay st

def onKey (a : Answers) (st : VerifyScreen) (key : KeyCode) : VerifyTurn :=
  match st.phase with
  | .devices => onKeyDevices a st key
  | .sudoPass buf error => onKeySudoPass a st buf error key
  -- Esc is deliberately inert; 's' waives the fidelity compare only.
  | .running =>
      if key = .char 's' ∧ st.mode = .install then .stay { st with skip := true }
      else .stay (st.scrollKey key)
  | .done _ =>
      match key with
      | .esc | .enter => .home
      | _ => .stay (st.scrollKey key)

theorem foldEvents_verdict (names : List String) (panes : Findings) (events : List VerifyEvent) :
    (foldEvents names panes events).2.2.isSome = events.any isDone := by
  induction events generalizing panes with
  | nil => rfl
  | cons event rest ih =>
      cases event with
      | step i state => simpa [foldEvents, isDone] using ih { panes with steps := panes.steps.set i state }
      | detail line => simpa [foldEvents, isDone] using ih { panes with details := panes.details ++ [line] }
      | phase title => simpa [foldEvents, isDone] using ih { panes with gaugeTitle := title, progress := (0, 0) }
      | progress done total => simpa [foldEvents, isDone] using ih { panes with progress := (done, total) }
      | done result =>
          simp only [foldEvents, isDone, List.any_cons, Bool.true_or]
          cases (foldEvents names panes rest).2.2 <;> rfl

end Nixnas.Ui.Verify
