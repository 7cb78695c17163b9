import Nixnas.Ui.Screen

/-!
# The Flash screen

`src/tui/src/ui/flash.rs`: pick a disk, review, answer the backup question, type
the device name, and watch the worker.
-/

set_option autoImplicit false

namespace Nixnas.Ui.Flash

open Nixnas.Rust
open Nixnas.Tui.Flash
open Nixnas.Tui.Sudo

inductive Phase where
  | devices
  | summary
  | backupAsk
  | storePass (buf : String)
  | confirm (typed : String) (error : Option String)
  | sudoPass (buf : String) (error : Option String)
  | running
  | done (ok : Bool)
  deriving DecidableEq, Repr

structure FlashScreen extends DiskList where
  /-- The built `.raw` and its size. -/
  image : Option (String × Nat)
  backup : Bool
  storePass : Option String
  phase : Phase
  /-- A receiver is held. -/
  rx : Bool
  gaugeTitle : String
  progress : Nat × Nat
  message : Option String
  sessionLog : Option String

def FlashScreen.new (configDir : String) (a : Answers) : FlashScreen :=
  let list := DiskList.empty.refreshDisks a.listDisks
  let found := do
    let path ← findImage configDir a.listing
    let len ← a.imageLen
    pure (path, len)
  match found with
  | .ok image => ⟨list, some image, true, none, .devices, false, "", (0, 0), none, none⟩
  | .error e => ⟨list, none, true, none, .done false, false, "", (0, 0), some e, none⟩

def FlashScreen.isRunning (st : FlashScreen) : Bool := st.phase = .running

/-- What a batch of events leads to: gauge title, progress, log calls, verdict. -/
def foldEvents (title : String) (progress : Nat × Nat) :
    List FlashEvent → String × (Nat × Nat) × List LogCall × Option (Except String String)
  | [] => (title, progress, [], none)
  | .phase next :: rest =>
      let (title, progress, calls, verdict) := foldEvents next (0, 0) rest
      (title, progress, .phase next :: calls, verdict)
  | .progress done total :: rest => foldEvents title (done, total) rest
  | .done result :: rest =>
      let (title, progress, calls, verdict) := foldEvents title progress rest
      (title, progress, calls, verdict <|> some result)

/-- `events` is what the channel yields before it is empty or disconnected. -/
def FlashScreen.drainEvents (st : FlashScreen) (events : List FlashEvent) :
    FlashScreen × List LogCall :=
  if st.rx then
    let (title, progress, calls, verdict) := foldEvents st.gaugeTitle st.progress events
    let st := { st with gaugeTitle := title, progress := progress }
    match verdict with
    | none => (st, calls)
    | some (.ok msg) =>
        ({ st with rx := false, message := some msg, phase := .done true },
          calls ++ [.done true msg])
    | some (.error e) =>
        ({ st with rx := false, message := some e, phase := .done false }, calls ++ [.done false e])
  else (st, [])

/-- An image that cannot physically fit is never armed. -/
def FlashScreen.imageFits (st : FlashScreen) : Bool :=
  match st.image, st.selectedDisk.bind Disk.size with
  | some (_, img), some dev => img ≤ dev
  | _, _ => true

def FlashScreen.growsToFill (st : FlashScreen) : Bool :=
  match st.image, st.selectedDisk.bind Disk.size with
  | some (_, img), some dev => img < dev
  | _, _ => false

/-- Start the worker; the disk facts are looked up again. -/
def FlashScreen.arm (configDir : String) (a : Answers) (st : FlashScreen) (elev : Elevation) :
    Turn FlashScreen :=
  match st.selectedDisk with
  | none => .stay st
  | some disk =>
      match st.image with
      | none => .panic "armed without an image"
      | some (image, _) =>
          { next := .stay
              { st with storePass := none, sessionLog := a.beginLog, rx := true, phase := .running }
            calls := [.begin "flash"]
            spawned := some (.flash
              { image := image
                dev := disk.devPath
                devSize := disk.size
                backupTo := if st.backup then some (backupPath configDir) else none
                grow := st.growsToFill
                storePass := st.storePass
                elev := elev }) }

def onKeyDevices (a : Answers) (st : FlashScreen) : KeyCode → Turn FlashScreen
  | .esc => .home
  | .up | .char 'k' => .stay { st with toDiskList := st.selectUp }
  | .down | .char 'j' => .stay { st with toDiskList := st.selectDown }
  | .char 'r' => .stay { st with toDiskList := st.refreshDisks a.listDisks }
  | .enter => .stay (if st.selectedDisk.isSome then { st with phase := .summary } else st)
  | _ => .stay st

def onKeySummary (st : FlashScreen) : KeyCode → Turn FlashScreen
  | .esc => .stay { st with phase := .devices }
  | .enter => .stay (if st.imageFits then { st with phase := .backupAsk } else st)
  | _ => .stay st

def FlashScreen.answerBackup (st : FlashScreen) (backup : Bool) : FlashScreen :=
  { st with
    backup := backup
    phase := if st.growsToFill then .storePass "" else .confirm "" none }

def onKeyBackupAsk (st : FlashScreen) : KeyCode → Turn FlashScreen
  | .esc => .stay { st with phase := .summary }
  | .char 'y' | .char 'Y' => .stay (st.answerBackup true)
  | .char 'n' | .char 'N' => .stay (st.answerBackup false)
  | _ => .stay st

def onKeyStorePass (st : FlashScreen) (buf : String) : KeyCode → Turn FlashScreen
  | .esc => .stay { st with phase := .summary }
  | .enter => .stay
      { st with
        storePass := if buf.isEmpty then none else some buf
        phase := .confirm "" none }
  | .backspace => .stay { st with phase := .storePass (pop buf) }
  | .char c => .stay { st with phase := .storePass (buf.push c) }
  | _ => .stay st

/-- Enter in the confirmation: the bare device name, typed exactly. -/
def submitConfirm (configDir : String) (a : Answers) (st : FlashScreen) (typed : String)
    (error : Option String) : Turn FlashScreen :=
  match st.selectedDisk with
  | none => .stay { st with phase := .confirm "" error }
  | some disk =>
      if trim typed = disk.name then
        match preflight a.privileges with
        | .root => { st with phase := .confirm "" error }.arm configDir a .root
        | .needsSudo => .stay { st with phase := .sudoPass "" none }
        | .noSudo => .stay
            { st with
              message := some "sudo is not installed — run nixnas as root to flash the device."
              phase := .done false }
      else
        .stay
          { st with
            phase := .confirm ""
              (some ("`" ++ trim typed ++ "` does not match `" ++ disk.name ++
                "` — nothing written")) }

def onKeyConfirm (configDir : String) (a : Answers) (st : FlashScreen) (typed : String)
    (error : Option String) : KeyCode → Turn FlashScreen
  | .esc => .stay { st with phase := .summary }
  | .backspace => .stay { st with phase := .confirm (pop typed) error }
  | .char c => .stay { st with phase := .confirm (typed.push c) error }
  | .enter => submitConfirm configDir a st typed error
  | _ => .stay st

def onKeySudoPass (configDir : String) (a : Answers) (st : FlashScreen) (buf : String)
    (error : Option String) : KeyCode → Turn FlashScreen
  | .esc => .stay { st with phase := .summary }
  | .enter =>
      match authenticate buf a.sudo with
      | .ok elev => { st with phase := .sudoPass "" error }.arm configDir a elev
      | .wrong => .stay
          { st with phase := .sudoPass "" (some "Wrong sudo password — try again") }
      | .missing => .stay
          { st with
            message := some "sudo is not installed — run nixnas as root."
            phase := .done false }
      | .error e => .stay { st with message := some e, phase := .done false }
  | .backspace => .stay { st with phase := .sudoPass (pop buf) error }
  | .char c => .stay { st with phase := .sudoPass (buf.push c) error }
  | _ => .stay st

def onKey (configDir : String) (a : Answers) (st : FlashScreen) (key : KeyCode) :
    Turn FlashScreen :=
  match st.phase with
  | .devices => onKeyDevices a st key
  | .summary => onKeySummary st key
  | .backupAsk => onKeyBackupAsk st key
  | .storePass buf => onKeyStorePass st buf key
  | .confirm typed error => onKeyConfirm configDir a st typed error key
  | .sudoPass buf error => onKeySudoPass configDir a st buf error key
  -- Esc is deliberately inert mid-write.
  | .running => .stay st
  | .done _ =>
      match key with
      | .esc | .enter => .home
      | _ => .stay st

end Nixnas.Ui.Flash
