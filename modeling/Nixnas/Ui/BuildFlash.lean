import Nixnas.Ui.Build
import Nixnas.Ui.Flash

/-!
# The Build & Flash screen

`src/tui/src/ui/buildflash.rs`: pick a stick, type the passphrase twice, build an
image of its exact size, then confirm and flash that image onto it.
-/

set_option autoImplicit false

namespace Nixnas.Ui.BuildFlash

open Nixnas.Rust
open Nixnas.Tui.Build (BuildEvent Config SizeOverride StepState)
open Nixnas.Tui.Flash
open Nixnas.Tui.Sudo
open Nixnas.Ui.Build (Pane pendingSteps)

inductive Stage where
  | unavailable
  | pickDevice
  | passFirst (buf : String) (error : Option String)
  | passConfirm (first buf : String)
  | building
  | flashReview
  | flashBackupAsk
  | flashConfirm (typed : String) (error : Option String)
  | flashSudo (buf : String) (error : Option String)
  | flashing
  | done (ok : Bool)
  deriving DecidableEq, Repr

structure BuildFlowScreen extends DiskList where
  pickError : Option String
  /-- Device name and exact byte size of the chosen target. -/
  picked : Option (String × Nat)
  backup : Bool
  stage : Stage
  steps : List StepState
  log : List String
  scroll : Nat
  follow : Bool
  /-- A receiver is held. -/
  buildRx : Bool
  built : Option (String × Nat)
  flashRx : Bool
  gaugeTitle : String
  progress : Nat × Nat
  message : Option String
  sessionLog : Option String

def BuildFlowScreen.new (cfg : Config) (a : Answers) : BuildFlowScreen :=
  let available := cfg.hostAttr.isSome
  { toDiskList := if available then DiskList.empty.refreshDisks a.listDisks else .empty
    pickError := none
    picked := none
    backup := true
    stage := if available then .pickDevice else .unavailable
    steps := pendingSteps
    log := []
    scroll := 0
    follow := true
    buildRx := false
    built := none
    flashRx := false
    gaugeTitle := ""
    progress := (0, 0)
    message := if available then none else
      some ("Build & flash needs `host_attr` set (Configure) — it sizes the image to the " ++
        "device by re-evaluating that host. Set it, or use the separate Build/Flash entries.")
    sessionLog := none }

def BuildFlowScreen.isRunning (st : BuildFlowScreen) : Bool :=
  st.stage = .building || st.stage = .flashing

/-! ## Worker events -/

def BuildFlowScreen.pane (st : BuildFlowScreen) : Pane := ⟨st.steps, st.log, st.scroll⟩

def BuildFlowScreen.withPane (st : BuildFlowScreen) (pane : Pane) : BuildFlowScreen :=
  { st with steps := pane.steps, log := pane.log, scroll := pane.scroll }

def BuildFlowScreen.drainBuild (a : Answers) (st : BuildFlowScreen) (events : List BuildEvent) :
    BuildFlowScreen × List LogCall :=
  if st.buildRx then
    let (pane, calls, verdict) := st.pane.drain events
    let st := st.withPane pane
    match verdict with
    | none => (st, calls)
    | some (.ok img) =>
        let size := match a.imageLen with
          | .ok len => len
          | .error _ => 0
        ({ st with buildRx := false, built := some (img, size), stage := .flashReview },
          calls ++ [.done true ("Built image: " ++ img ++ " (" ++ a.humanSize size ++ ")")])
    | some (.error e) =>
        ({ st with buildRx := false, message := some e, stage := .done false },
          calls ++ [.done false e])
  else (st, [])

def BuildFlowScreen.drainFlash (st : BuildFlowScreen) (events : List FlashEvent) :
    BuildFlowScreen × List LogCall :=
  if st.flashRx then
    let (title, progress, calls, verdict) := Flash.foldEvents st.gaugeTitle st.progress events
    let st := { st with gaugeTitle := title, progress := progress }
    match verdict with
    | none => (st, calls)
    | some (.ok msg) =>
        ({ st with flashRx := false, message := some msg, stage := .done true },
          calls ++ [.done true msg])
    | some (.error e) =>
        ({ st with flashRx := false, message := some e, stage := .done false },
          calls ++ [.done false e])
  else (st, [])

def BuildFlowScreen.drainEvents (a : Answers) (st : BuildFlowScreen)
    (events : List BuildEvent × List FlashEvent) : BuildFlowScreen × List LogCall :=
  let (st, buildCalls) := st.drainBuild a events.1
  let (st, flashCalls) := st.drainFlash events.2
  (st, buildCalls ++ flashCalls)

/-! ## Gates -/

def minImageBytes : Nat := 4 * 1024 * 1024 * 1024

def checkTargetBytes (a : Answers) (devBytes : Nat) : Except String Unit :=
  if devBytes < minImageBytes then
    .error ("stick too small: needs ≥ " ++ a.humanSize minImageBytes ++ ", this device is only " ++
      a.humanSize devBytes)
  else .ok ()

/-- The built image against the device; `none` until the build has finished. -/
def BuildFlowScreen.exactFitNote (a : Answers) (st : BuildFlowScreen) :
    Option (Except String String) :=
  match st.built, st.picked with
  | some (_, img), some (name, dev) =>
      some (if img = dev then
          .ok ("✓ image is the EXACT size of /dev/" ++ name ++ " (" ++ toString img ++ " bytes)")
        else if img < dev then
          .ok ("image is " ++ a.humanSize (dev - img) ++ " smaller than /dev/" ++ name ++
            " — a small tail stays unused")
        else
          .error ("✗ image (" ++ a.humanSize img ++ ") is LARGER than /dev/" ++ name ++ " (" ++
            a.humanSize dev ++ ") — cannot flash"))
  | _, _ => none

def BuildFlowScreen.imageFits (a : Answers) (st : BuildFlowScreen) : Bool :=
  match st.exactFitNote a with
  | some (.error _) => false
  | _ => true

/-- Start the flash worker on the picked device. -/
def BuildFlowScreen.armFlash (configDir : String) (a : Answers) (st : BuildFlowScreen)
    (elev : Elevation) : Turn BuildFlowScreen :=
  match st.picked, st.built with
  | some (name, bytes), some (image, _) =>
      { next := .stay
          { st with
            sessionLog := a.beginLog
            progress := (0, 0)
            stage := .flashing
            flashRx := true }
        calls := [.begin "flash"]
        spawned := some (.flash
          { image := image
            dev := "/dev/" ++ name
            devSize := some bytes
            backupTo := if st.backup then some (backupPath configDir) else none
            grow := false
            storePass := none
            elev := elev }) }
  | _, _ => .stay st

/-! ## Keys -/

def onKeyPickDevice (a : Answers) (st : BuildFlowScreen) : KeyCode → Turn BuildFlowScreen
  | .esc => .home
  | .up | .char 'k' => .stay { st with toDiskList := st.selectUp }
  | .down | .char 'j' => .stay { st with toDiskList := st.selectDown }
  | .char 'r' => .stay { st with toDiskList := st.refreshDisks a.listDisks }
  | .enter =>
      match st.selectedDisk with
      | none => .stay st
      | some disk =>
          match deviceBytes a with
          | none => .stay
              { st with pickError := some "device size unknown — cannot size the image to it" }
          | some bytes =>
              match checkTargetBytes a bytes with
              | .ok () => .stay
                  { st with
                    picked := some (disk.name, bytes)
                    pickError := none
                    stage := .passFirst "" none }
              | .error e => .stay { st with pickError := some e }
  | _ => .stay st

def onKeyPassFirst (st : BuildFlowScreen) (buf : String) (error : Option String) :
    KeyCode → Turn BuildFlowScreen
  | .esc => .home
  | .enter => .stay
      { st with
        stage := if buf.isEmpty then .passFirst "" (some "Passphrase must not be empty")
          else .passConfirm buf "" }
  | .backspace => .stay { st with stage := .passFirst (pop buf) error }
  | .char c => .stay { st with stage := .passFirst (buf.push c) error }
  | _ => .stay st

/-- The two entries agree: start the build, sized to the picked device. -/
def BuildFlowScreen.startBuild (cfg : Config) (a : Answers) (st : BuildFlowScreen)
    (passphrase : String) : Turn BuildFlowScreen where
  next := .stay
    { st with
      sessionLog := a.beginLog
      steps := pendingSteps
      log := []
      stage := .building
      buildRx := true }
  calls := [.begin "build"]
  spawned := some (.build ⟨cfg, passphrase, .bytes ((st.picked.map Prod.snd).getD 0)⟩)

def onKeyPassConfirm (cfg : Config) (a : Answers) (st : BuildFlowScreen) (first buf : String) :
    KeyCode → Turn BuildFlowScreen
  | .esc => .home
  | .enter =>
      if first = buf then st.startBuild cfg a first
      else .stay
        { st with stage := .passFirst "" (some "Passphrases do not match — try again") }
  | .backspace => .stay { st with stage := .passConfirm first (pop buf) }
  | .char c => .stay { st with stage := .passConfirm first (buf.push c) }
  | _ => .stay st

/-- Only scrolling while the build runs. -/
def onKeyBuilding (st : BuildFlowScreen) : KeyCode → Turn BuildFlowScreen
  | .up => .stay { st with follow := false, scroll := st.scroll - 1 }
  | .down => .stay { st with scroll := st.scroll + 1 }
  | .pageUp => .stay { st with follow := false, scroll := st.scroll - 20 }
  | .pageDown => .stay { st with scroll := st.scroll + 20 }
  | .«end» | .char 'f' => .stay { st with follow := true }
  | _ => .stay st

def onKeyFlashReview (a : Answers) (st : BuildFlowScreen) : KeyCode → Turn BuildFlowScreen
  | .esc => .home
  | .enter => .stay (if st.imageFits a then { st with stage := .flashBackupAsk } else st)
  | _ => .stay st

def onKeyFlashBackupAsk (st : BuildFlowScreen) : KeyCode → Turn BuildFlowScreen
  | .esc => .stay { st with stage := .flashReview }
  | .char 'y' | .char 'Y' => .stay { st with backup := true, stage := .flashConfirm "" none }
  | .char 'n' | .char 'N' => .stay { st with backup := false, stage := .flashConfirm "" none }
  | _ => .stay st

def submitFlashConfirm (configDir : String) (a : Answers) (st : BuildFlowScreen) (typed : String)
    (error : Option String) : Turn BuildFlowScreen :=
  match st.picked with
  | none => .stay { st with stage := .flashConfirm "" error }
  | some (name, _) =>
      if trim typed = name then
        match preflight a.privileges with
        | .root => { st with stage := .flashConfirm "" error }.armFlash configDir a .root
        | .needsSudo => .stay { st with stage := .flashSudo "" none }
        | .noSudo => .stay
            { st with
              message := some "sudo is not installed — run nixnas as root to flash the device."
              stage := .done false }
      else
        .stay
          { st with
            stage := .flashConfirm ""
              (some ("`" ++ trim typed ++ "` does not match `" ++ name ++ "` — nothing written")) }

def onKeyFlashConfirm (configDir : String) (a : Answers) (st : BuildFlowScreen) (typed : String)
    (error : Option String) : KeyCode → Turn BuildFlowScreen
  | .esc => .stay { st with stage := .flashReview }
  | .backspace => .stay { st with stage := .flashConfirm (pop typed) error }
  | .char c => .stay { st with stage := .flashConfirm (typed.push c) error }
  | .enter => submitFlashConfirm configDir a st typed error
  | _ => .stay st

def onKeyFlashSudo (configDir : String) (a : Answers) (st : BuildFlowScreen) (buf : String)
    (error : Option String) : KeyCode → Turn BuildFlowScreen
  | .esc => .stay { st with stage := .flashReview }
  | .enter =>
      match authenticate buf a.sudo with
      | .ok elev => { st with stage := .flashSudo "" error }.armFlash configDir a elev
      | .wrong => .stay
          { st with stage := .flashSudo "" (some "Wrong sudo password — try again") }
      | .missing => .stay
          { st with
            message := some "sudo is not installed — run nixnas as root."
            stage := .done false }
      | .error e => .stay { st with message := some e, stage := .done false }
  | .backspace => .stay { st with stage := .flashSudo (pop buf) error }
  | .char c => .stay { st with stage := .flashSudo (buf.push c) error }
  | _ => .stay st

def onKey (configDir : String) (cfg : Config) (a : Answers) (st : BuildFlowScreen)
    (key : KeyCode) : Turn BuildFlowScreen :=
  match st.stage with
  | .unavailable | .done _ =>
      match key with
      | .esc | .enter => .home
      | _ => .stay st
  | .pickDevice => onKeyPickDevice a st key
  | .passFirst buf error => onKeyPassFirst st buf error key
  | .passConfirm first buf => onKeyPassConfirm cfg a st first buf key
  | .building => onKeyBuilding st key
  | .flashReview => onKeyFlashReview a st key
  | .flashBackupAsk => onKeyFlashBackupAsk st key
  | .flashConfirm typed error => onKeyFlashConfirm configDir a st typed error key
  | .flashSudo buf error => onKeyFlashSudo configDir a st buf error key
  -- Esc is inert mid-write.
  | .flashing => .stay st

end Nixnas.Ui.BuildFlash
