import Nixnas.Ui.BuildFlashFlow
import Nixnas.Ui.Hidden
import Nixnas.Ui.LogPane

/-!
# What is drawn beside the prompts

The `draw` functions of the four screens, by the panels and modals they render
with the data these are made of, and by their footers.  Nothing of it depends on
what is typed at a hidden prompt.
-/

set_option autoImplicit false

namespace Nixnas.Ui

open Nixnas.Tui.Flash
open Nixnas.Ui.Verify (VerifyScreen)

inductive Part where
  /-- A checklist beside a log pane. -/
  | body (body : Body)
  /-- A paragraph, in a panel or below one; `good` decides its colour. -/
  | text (title : String) (lines : List String) (good : Bool)
  /-- `draw_disk_list`. -/
  | diskList (title : String) (list : DiskList)
  /-- `draw_summary`. -/
  | summary (image : String × Nat) (disk : Disk) (fits grows : Bool)
  /-- `draw_flash_review`. -/
  | review (image device : String × Nat) (note : Option (Except String String))
  | gauge (title phase : String) (progress : Nat × Nat)
  /-- `draw_backup_ask`, `draw_confirm_modal`; the keys that the first one offers are fixed. -/
  | modal (title : String) (lines : List String) (input error : Option String)

/-- A frame but for the prompts. -/
structure Drawn where
  parts : List Part
  footer : List (String × String)

def logHint (sessionLog : Option String) : List (String × String) :=
  (sessionLog.map fun path => ("log", path)).toList

def backupAsk (configDir : String) (disk : Option Disk) : List Part :=
  (disk.map fun disk =>
    .modal "Back up first?" (BuildFlash.backupAskLines configDir (some disk)) none none).toList

def confirmModal (disk : Option Disk) (typed : String) (error : Option String) : List Part :=
  (disk.map fun disk =>
    .modal "Point of no return" (BuildFlash.confirmLines (some disk))
      (some (inputLine typed false)) error).toList

/-- A verdict: a headline, and below it the message and the log, each after `gap`. -/
def outcome (title headline : String) (message sessionLog : Option String) (good : Bool)
    (gap : List String) : Part :=
  .text title
    (gap ++ ["  " ++ headline] ++ (message.map fun message => gap ++ ["  " ++ message]).getD [] ++
      (sessionLog.map fun path => gap ++ ["  log: " ++ path]).getD []) good

/-! ## The screens -/

def Build.BuildScreen.drawn (st : Build.BuildScreen) (height : Nat) : Drawn where
  parts := ((st.draw height).1.map .body).toList ++
    (st.message.map fun message => .text ""
      ((" " ++ message) :: (st.sessionLog.map (" log: " ++ ·)).toList)
      (st.phase = .done true)).toList
  footer := match st.phase with
    | .running =>
        [("↑↓/PgUp/PgDn", "scroll log"), ("End", "follow"),
          ("", "build running — Esc disabled")] ++ logHint st.sessionLog
    | .done _ =>
        [("↑↓/PgUp/PgDn", "scroll log"), ("Esc/Enter", "back to menu")] ++ logHint st.sessionLog
    | .passFirst _ _ | .passConfirm _ _ => [("Enter", "confirm"), ("Esc", "cancel build")]

namespace BuildFlash

/-- `draw_flash_review`, once there is an image and a device. -/
def BuildFlowScreen.review (a : Answers) (st : BuildFlowScreen) : List Part :=
  match st.built, st.picked with
  | some image, some device => [.review image device (st.exactFitNote a)]
  | _, _ => []

def BuildFlowScreen.drawn (configDir : String) (a : Answers) (st : BuildFlowScreen)
    (height : Nat) : Drawn :=
  let body := ((st.draw height).1.map .body).toList
  match st.stage with
  | .unavailable =>
      ⟨[.text "Build & Flash — unavailable" [st.message.getD ""] false],
        [("Esc/Enter", "back to menu")]⟩
  | .pickDevice =>
      ⟨.diskList ("Build & flash — pick the TARGET stick (its exact size sets the image; " ++
          "nothing written yet)") st.toDiskList ::
          (st.pickError.map fun err => .text "" [" " ++ err] false).toList,
        [("↑↓", "select"), ("Enter", "size + build for this stick"), ("r", "refresh"),
          ("Esc", "back")]⟩
  | .passFirst _ _ | .passConfirm _ _ => ⟨body, [("Enter", "confirm"), ("Esc", "cancel")]⟩
  | .building =>
      ⟨body, [("↑↓/PgUp/PgDn", "scroll log"), ("End", "follow"),
        ("", "building — Esc disabled")] ++ logHint st.sessionLog⟩
  | .flashReview =>
      ⟨st.review a, [("Enter", "flash to this stick"), ("Esc", "back to menu (keep image)")]⟩
  | .flashBackupAsk =>
      ⟨st.review a ++ backupAsk configDir st.selectedDisk, [("y/n", "answer"), ("Esc", "back")]⟩
  | .flashConfirm typed error =>
      ⟨st.review a ++ confirmModal st.selectedDisk typed error,
        [("Enter", "confirm"), ("Esc", "back")]⟩
  | .flashSudo _ _ => ⟨st.review a, [("Enter", "confirm"), ("Esc", "back")]⟩
  | .flashing =>
      ⟨[.gauge "Build & flash — writing" st.gaugeTitle st.progress],
        ("", "writing — do not remove the stick") :: logHint st.sessionLog⟩
  | .done true =>
      ⟨[outcome "Build & flash — done"
          "✓ Built and flashed — device header verified against the exact-fit image."
          st.message st.sessionLog true [""]], [("Esc/Enter", "back to menu")]⟩
  | .done false =>
      ⟨[outcome "Build & flash — failed" "✗ Not completed." st.message st.sessionLog false [""]],
        [("Esc/Enter", "back to menu")]⟩

end BuildFlash

namespace Flash

/-- `draw_summary`, once there is an image and a disk. -/
def FlashScreen.summary (st : FlashScreen) : List Part :=
  match st.image, st.selectedDisk with
  | some image, some disk => [.summary image disk st.imageFits st.growsToFill]
  | _, _ => []

def FlashScreen.drawn (configDir : String) (st : FlashScreen) : Drawn :=
  match st.phase with
  | .devices =>
      ⟨[.diskList "Flash stick — pick the TARGET disk (it will be OVERWRITTEN)" st.toDiskList],
        [("↑↓", "select"), ("Enter", "choose target"), ("r", "refresh"), ("Esc", "back")]⟩
  | .summary => ⟨st.summary, [("Enter", "continue"), ("Esc", "back")]⟩
  | .backupAsk =>
      ⟨st.summary ++ backupAsk configDir st.selectedDisk, [("y/n", "answer"), ("Esc", "back")]⟩
  | .storePass _ =>
      ⟨st.summary, [("Enter", "confirm"), ("Enter (empty)", "skip grow"), ("Esc", "back")]⟩
  | .confirm typed error =>
      ⟨st.summary ++ confirmModal st.selectedDisk typed error,
        [("Enter", "confirm"), ("Esc", "back")]⟩
  | .sudoPass _ _ => ⟨st.summary, [("Enter", "confirm"), ("Esc", "back")]⟩
  | .running =>
      ⟨[.gauge "Flash stick — writing" st.gaugeTitle st.progress],
        ("", "writing — do not remove the stick") :: logHint st.sessionLog⟩
  | .done true =>
      ⟨[outcome "Flash stick — verified"
          "✓ Write complete — device header verified against the image."
          st.message st.sessionLog true [""]], ("Esc/Enter", "back to menu") :: logHint st.sessionLog⟩
  | .done false =>
      ⟨[outcome "Flash stick — failed" "✗ Not flashed." st.message st.sessionLog false [""]],
        ("Esc/Enter", "back to menu") :: logHint st.sessionLog⟩

end Flash

namespace Verify

/-- `draw_reference`. -/
def VerifyScreen.reference (a : Answers) (st : VerifyScreen) : Part :=
  .text "Fidelity reference"
    [match st.image with
      | some (image, size) => "  Built image  " ++ image ++ "  (" ++ a.humanSize size ++ ")"
      | none => "  none built yet — the flash-fidelity compare will be skipped"]
    st.image.isSome

/-- `draw_gauge`: no hashing pass was announced yet while there is no title. -/
def VerifyScreen.gauge (st : VerifyScreen) : List Part :=
  if st.gaugeTitle = "" then [] else [.gauge "" st.gaugeTitle st.progress]

/-- `draw_verdict`. -/
def VerifyScreen.verdict (st : VerifyScreen) (ok : Bool) : Part :=
  outcome "Verdict" (if ok then "✓ PASS" else "✗ ISSUES") st.message st.sessionLog ok []

def VerifyScreen.drawn (a : Answers) (st : VerifyScreen) (height : Nat) : Drawn :=
  let checks := ((st.draw height).1.map .body).toList
  match st.phase with
  | .devices | .sudoPass _ _ =>
      ⟨[.diskList "Verify install — pick the disk to CHECK (read-only, nothing is written)"
          st.toDiskList, st.reference a],
        [("↑↓", "select"), ("Enter", "check (read-only)"), ("r", "refresh"), ("Esc", "back")]⟩
  | .running =>
      ⟨checks ++ st.gauge,
        [("↑↓/PgUp/PgDn", "scroll"), ("End", "follow")] ++
          (match st.mode with
            | .install => [("s", "skip fidelity compare")]
            | .image => []) ++
          [("", "verify running — Esc disabled")] ++ logHint st.sessionLog⟩
  | .done ok =>
      ⟨checks ++ [st.verdict ok],
        [("↑↓/PgUp/PgDn", "scroll"), ("Esc/Enter", "back to menu")] ++ logHint st.sessionLog⟩

end Verify

/-! ## What is left of a screen is enough to draw it -/

theorem Build.drawn_blank (st : Build.BuildScreen) (height : Nat) :
    st.blank.drawn height = st.drawn height := by
  obtain ⟨phase, _⟩ := st
  cases phase <;> rfl

theorem BuildFlash.drawn_blank (configDir : String) (a : Answers) (st : BuildFlash.BuildFlowScreen)
    (height : Nat) : st.blank.drawn configDir a height = st.drawn configDir a height := by
  obtain ⟨list, error, picked, backup, stage, _⟩ := st
  cases stage <;> rfl

theorem Flash.drawn_blank (configDir : String) (st : Flash.FlashScreen) :
    st.blank.drawn configDir = st.drawn configDir := by
  obtain ⟨list, image, backup, storePass, phase, _⟩ := st
  cases phase <;> rfl

theorem Verify.drawn_blank (a : Answers) (st : VerifyScreen) (height : Nat) :
    st.blank.drawn a height = st.drawn a height := by
  obtain ⟨list, findings, mode, phase, _⟩ := st
  cases phase <;> rfl

section Application

variable {Configure : Type} (configDir : String) (a : Answers) (height : Nat)
  (app : App Configure VerifyScreen)

/-- What the screen that is shown draws; HOME and Configure hold no hidden prompt. -/
def App.drawn : Option Drawn :=
  match app.screen with
  | .buildFlash => app.buildflash.map (·.drawn configDir a height)
  | .build => app.build.map (·.drawn height)
  | .flash => app.flash.map (·.drawn configDir)
  | .verify => app.verify.map (·.drawn a height)
  | .home | .configure => none

/-- Everything but the modals of the prompts is drawn from what is left without the
texts typed there. -/
theorem App.drawn_blank : app.blank.drawn configDir a height = app.drawn configDir a height := by
  have screen : app.blank.screen = app.screen := rfl
  rw [App.drawn, App.drawn, screen]
  cases app.screen with
  | home | configure => rfl
  | buildFlash => cases h : app.buildflash <;> simp [App.blank, h, BuildFlash.drawn_blank]
  | build => cases h : app.build <;> simp [App.blank, h, Build.drawn_blank]
  | flash => cases h : app.flash <;> simp [App.blank, h, Flash.drawn_blank]
  | verify => cases h : app.verify <;> simp [App.blank, h, Verify.drawn_blank]

/-- Other characters at the hidden prompts change nothing of what is drawn beside
them. -/
theorem App.drawn_veil (σ : Equiv.Perm Char) :
    (app.veil σ).drawn configDir a height = app.drawn configDir a height := by
  rw [← App.drawn_blank configDir a height (app.veil σ), App.blank_veil, App.drawn_blank]

end Application

end Nixnas.Ui
