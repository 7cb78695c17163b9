import Mathlib.Logic.Equiv.Defs
import Nixnas.Ui.Session

/-!
# Other characters at the hidden prompts

The passphrases and the sudo password are typed at prompts that hide them.  A
permutation of the characters turns one way to type them into another with the
same lengths and the same matches; `veil` is a screen that holds the secrets of
the other way.  A key at a hidden prompt leads from the one to the other as well.
-/

set_option autoImplicit false

namespace Nixnas.Ui

open Nixnas.Rust
open Nixnas.Tui.Build (Config)
open Nixnas.Tui.Flash
open Nixnas.Tui.Sudo

variable {S : Type} (σ : Equiv.Perm Char)

/-! ## Texts -/

/-- The text with other characters. -/
def recode (s : String) : String := String.ofList (s.toList.map σ)

@[simp] theorem recode_isEmpty (s : String) : (recode σ s).isEmpty = s.isEmpty := by
  rw [Bool.eq_iff_iff, String.isEmpty_iff, String.isEmpty_iff, ← String.toList_inj,
    ← String.toList_inj, recode, String.toList_ofList]
  exact List.map_eq_nil_iff

@[simp] theorem recode_inj {s t : String} : recode σ s = recode σ t ↔ s = t := by
  rw [recode, recode, ← String.toList_inj, String.toList_ofList, String.toList_ofList,
    ← String.toList_inj]
  exact List.map_inj_right fun x y same => σ.injective same

@[simp] theorem recode_push (s : String) (c : Char) :
    recode σ (s.push c) = (recode σ s).push (σ c) := by
  rw [← String.toList_inj]
  simp [recode, String.toList_push]

@[simp] theorem recode_pop (s : String) : recode σ (pop s) = pop (recode σ s) := by
  rw [← String.toList_inj]
  simp [recode, pop, List.map_dropLast]

theorem recode_length (s : String) : (recode σ s).toList.length = s.toList.length := by
  rw [recode, String.toList_ofList, List.length_map]

/-- A key with another character. -/
def KeyCode.recode : KeyCode → KeyCode
  | .char c => .char (σ c)
  | key => key

/-! ## What a turn hands on -/

def veilElevation : Elevation → Elevation
  | .root => .root
  | .«sudo» secret => .«sudo» (recode σ secret)

def veilWorker : Worker → Worker
  | .build job => .build { job with passphrase := recode σ job.passphrase }
  | .flash job => .flash
      { job with
        storePass := job.storePass.map (recode σ)
        elev := veilElevation σ job.elev }

def veilOutcome : AuthOutcome → AuthOutcome
  | .ok elev => .ok (veilElevation σ elev)
  | outcome => outcome

theorem authenticate_recode (password : String) (run : SudoRun) :
    authenticate (recode σ password) run = veilOutcome σ (authenticate password run) := by
  cases run with
  | exited success => cases success <;> rfl
  | notFound | spawnError e | waitError e => rfl

def Next.map (f : S → S) : Next S → Next S
  | .stay st => .stay (f st)
  | .home => .home
  | .panic message => .panic message

def Turn.veil (f : S → S) (turn : Turn S) : Turn S where
  next := turn.next.map f
  calls := turn.calls
  spawned := turn.spawned.map (veilWorker σ)

/-! ## The Build screen -/

namespace Build

def veilPhase : Phase → Phase
  | .passFirst buf error => .passFirst (recode σ buf) error
  | .passConfirm first buf => .passConfirm (recode σ first) (recode σ buf)
  | phase => phase

def BuildScreen.veil (st : BuildScreen) : BuildScreen := { st with phase := veilPhase σ st.phase }

/-- What is typed is hidden. -/
def BuildScreen.hides (st : BuildScreen) : Bool :=
  match st.phase with
  | .passFirst _ _ | .passConfirm _ _ => true
  | _ => false

/-- The turns of the two screens correspond. -/
def Veiled (turn other : Turn BuildScreen) : Prop := other = turn.veil σ (BuildScreen.veil σ)

variable (st : BuildScreen)

theorem veiled_stay {next other : BuildScreen} (same : other = next.veil σ) :
    Veiled σ (.stay next) (.stay other) := by
  subst other
  rfl

theorem passFirst_veil (buf : String) (error : Option String) (key : KeyCode) :
    Veiled σ (onKeyPassFirst st buf error key)
      (onKeyPassFirst (st.veil σ) (recode σ buf) error (key.recode σ)) := by
  cases key with
  | enter =>
      apply veiled_stay
      rw [recode_isEmpty]
      cases buf.isEmpty <;> rfl
  | backspace =>
      apply veiled_stay
      rw [← recode_pop]
      rfl
  | char c =>
      apply veiled_stay
      rw [← recode_push]
      rfl
  | _ => rfl

theorem passConfirm_veil (cfg : Config) (a : Answers) (first buf : String) (key : KeyCode) :
    Veiled σ (onKeyPassConfirm cfg a st first buf key)
      (onKeyPassConfirm cfg a (st.veil σ) (recode σ first) (recode σ buf) (key.recode σ)) := by
  cases key with
  | enter =>
      simp only [KeyCode.recode, onKeyPassConfirm, recode_inj]
      split <;> rfl
  | backspace =>
      apply veiled_stay
      rw [← recode_pop]
      rfl
  | char c =>
      apply veiled_stay
      rw [← recode_push]
      rfl
  | _ => rfl

theorem scrollKey_veil (key : KeyCode) :
    (st.veil σ).scrollKey key = (st.scrollKey key).veil σ := by
  unfold BuildScreen.scrollKey
  split <;> rfl

theorem onKey_veil (cfg : Config) (a : Answers) (key : KeyCode) :
    onKey cfg a (st.veil σ) (if st.hides then key.recode σ else key) =
      (onKey cfg a st key).veil σ (BuildScreen.veil σ) := by
  have veiled : (st.veil σ).phase = veilPhase σ st.phase := rfl
  unfold onKey
  rw [veiled, BuildScreen.hides]
  cases phase : st.phase with
  | passFirst buf error => exact passFirst_veil σ st buf error key
  | passConfirm first buf => exact passConfirm_veil σ st cfg a first buf key
  | running =>
      simp only [veilPhase, Bool.false_eq_true, if_false, scrollKey_veil]
      rfl
  | done ok =>
      simp only [veilPhase, Bool.false_eq_true, if_false, scrollKey_veil]
      split <;> rfl

theorem drainEvents_veil (events : List Nixnas.Tui.Build.BuildEvent) :
    (st.veil σ).drainEvents events =
      ((st.drainEvents events).1.veil σ, (st.drainEvents events).2) := by
  have pane : (st.veil σ).pane = st.pane := rfl
  have rx : (st.veil σ).rx = st.rx := rfl
  unfold BuildScreen.drainEvents
  rw [pane, rx]
  split
  · cases verdict : (st.pane.drain events).2.2 with
    | none =>
        simp only [verdict]
        rfl
    | some result =>
        cases result with
        | ok img =>
            simp only [verdict]
            rfl
        | error e =>
            simp only [verdict]
            rfl
  · rfl

end Build

/-! ## The Build & Flash screen -/

namespace BuildFlash

def veilStage : Stage → Stage
  | .passFirst buf error => .passFirst (recode σ buf) error
  | .passConfirm first buf => .passConfirm (recode σ first) (recode σ buf)
  | .flashSudo buf error => .flashSudo (recode σ buf) error
  | stage => stage

def BuildFlowScreen.veil (st : BuildFlowScreen) : BuildFlowScreen :=
  { st with stage := veilStage σ st.stage }

def BuildFlowScreen.hides (st : BuildFlowScreen) : Bool :=
  match st.stage with
  | .passFirst _ _ | .passConfirm _ _ | .flashSudo _ _ => true
  | _ => false

/-- The turns of the two screens correspond. -/
def Veiled (turn other : Turn BuildFlowScreen) : Prop :=
  other = turn.veil σ (BuildFlowScreen.veil σ)

variable (st : BuildFlowScreen)

theorem veiled_stay {next other : BuildFlowScreen} (same : other = next.veil σ) :
    Veiled σ (.stay next) (.stay other) := by
  subst other
  rfl

theorem armFlash_veil (configDir : String) (a : Answers) (elev : Elevation) :
    Veiled σ (st.armFlash configDir a elev)
      ((st.veil σ).armFlash configDir a (veilElevation σ elev)) := by
  have picked : (st.veil σ).picked = st.picked := rfl
  have built : (st.veil σ).built = st.built := rfl
  unfold Veiled BuildFlowScreen.armFlash
  rw [picked, built]
  split <;> rfl

theorem pickDevice_veil (a : Answers) (key : KeyCode) :
    Veiled σ (onKeyPickDevice a st key) (onKeyPickDevice a (st.veil σ) key) := by
  have disk : (st.veil σ).selectedDisk = st.selectedDisk := rfl
  unfold onKeyPickDevice
  rw [disk]
  split
  · rfl
  · rfl
  · rfl
  · rfl
  · rfl
  · rfl
  · split
    · rfl
    · split
      · rfl
      · split <;> rfl
  · rfl

theorem passFirst_veil (buf : String) (error : Option String) (key : KeyCode) :
    Veiled σ (onKeyPassFirst st buf error key)
      (onKeyPassFirst (st.veil σ) (recode σ buf) error (key.recode σ)) := by
  cases key with
  | enter =>
      apply veiled_stay
      rw [recode_isEmpty]
      cases buf.isEmpty <;> rfl
  | backspace =>
      apply veiled_stay
      rw [← recode_pop]
      rfl
  | char c =>
      apply veiled_stay
      rw [← recode_push]
      rfl
  | _ => rfl

theorem passConfirm_veil (cfg : Config) (a : Answers) (first buf : String) (key : KeyCode) :
    Veiled σ (onKeyPassConfirm cfg a st first buf key)
      (onKeyPassConfirm cfg a (st.veil σ) (recode σ first) (recode σ buf) (key.recode σ)) := by
  cases key with
  | enter =>
      simp only [KeyCode.recode, onKeyPassConfirm, recode_inj]
      split <;> rfl
  | backspace =>
      apply veiled_stay
      rw [← recode_pop]
      rfl
  | char c =>
      apply veiled_stay
      rw [← recode_push]
      rfl
  | _ => rfl

theorem building_veil (key : KeyCode) :
    Veiled σ (onKeyBuilding st key) (onKeyBuilding (st.veil σ) key) := by
  unfold onKeyBuilding
  split <;> rfl

theorem flashReview_veil (a : Answers) (key : KeyCode) :
    Veiled σ (onKeyFlashReview a st key) (onKeyFlashReview a (st.veil σ) key) := by
  have fits : (st.veil σ).imageFits a = st.imageFits a := rfl
  unfold onKeyFlashReview
  split
  · rfl
  · apply veiled_stay
    rw [fits]
    split <;> rfl
  · rfl

theorem flashBackupAsk_veil (key : KeyCode) :
    Veiled σ (onKeyFlashBackupAsk st key) (onKeyFlashBackupAsk (st.veil σ) key) := by
  unfold onKeyFlashBackupAsk
  split <;> rfl

theorem submit_veil (configDir : String) (a : Answers) (typed : String) (error : Option String) :
    Veiled σ (submitFlashConfirm configDir a st typed error)
      (submitFlashConfirm configDir a (st.veil σ) typed error) := by
  have picked : (st.veil σ).picked = st.picked := rfl
  unfold submitFlashConfirm
  rw [picked]
  split
  · rfl
  · split
    · split
      · exact armFlash_veil σ { st with stage := .flashConfirm "" error } configDir a .root
      · rfl
      · rfl
    · rfl

theorem flashConfirm_veil (configDir : String) (a : Answers) (typed : String)
    (error : Option String) (key : KeyCode) :
    Veiled σ (onKeyFlashConfirm configDir a st typed error key)
      (onKeyFlashConfirm configDir a (st.veil σ) typed error key) := by
  cases key with
  | enter => exact submit_veil σ st configDir a typed error
  | esc | char c | backspace => rfl
  | delete | up | down | pageUp | pageDown | «end» | other => rfl

theorem flashSudo_veil (configDir : String) (a : Answers) (buf : String) (error : Option String)
    (key : KeyCode) :
    Veiled σ (onKeyFlashSudo configDir a st buf error key)
      (onKeyFlashSudo configDir a (st.veil σ) (recode σ buf) error (key.recode σ)) := by
  cases key with
  | enter =>
      simp only [KeyCode.recode, onKeyFlashSudo, authenticate_recode]
      cases authenticate buf a.sudo with
      | ok elev => exact armFlash_veil σ { st with stage := .flashSudo "" error } configDir a elev
      | wrong => rfl
      | missing => rfl
      | error e => rfl
  | backspace =>
      apply veiled_stay
      rw [← recode_pop]
      rfl
  | char c =>
      apply veiled_stay
      rw [← recode_push]
      rfl
  | _ => rfl

theorem onKey_veil (configDir : String) (cfg : Config) (a : Answers) (key : KeyCode) :
    onKey configDir cfg a (st.veil σ) (if st.hides then key.recode σ else key) =
      (onKey configDir cfg a st key).veil σ (BuildFlowScreen.veil σ) := by
  have veiled : (st.veil σ).stage = veilStage σ st.stage := rfl
  unfold onKey
  rw [veiled, BuildFlowScreen.hides]
  cases stage : st.stage with
  | unavailable | done ok =>
      simp only [veilStage, Bool.false_eq_true, if_false]
      split <;> rfl
  | pickDevice => exact pickDevice_veil σ st a key
  | passFirst buf error => exact passFirst_veil σ st buf error key
  | passConfirm first buf => exact passConfirm_veil σ st cfg a first buf key
  | building => exact building_veil σ st key
  | flashReview => exact flashReview_veil σ st a key
  | flashBackupAsk => exact flashBackupAsk_veil σ st key
  | flashConfirm typed error => exact flashConfirm_veil σ st configDir a typed error key
  | flashSudo buf error => exact flashSudo_veil σ st configDir a buf error key
  | flashing => rfl

theorem drainBuild_veil (a : Answers) (events : List Nixnas.Tui.Build.BuildEvent) :
    (st.veil σ).drainBuild a events =
      ((st.drainBuild a events).1.veil σ, (st.drainBuild a events).2) := by
  have pane : (st.veil σ).pane = st.pane := rfl
  have rx : (st.veil σ).buildRx = st.buildRx := rfl
  unfold BuildFlowScreen.drainBuild
  rw [pane, rx]
  split
  · cases verdict : (st.pane.drain events).2.2 with
    | none =>
        simp only [verdict]
        rfl
    | some result =>
        cases result with
        | ok img =>
            simp only [verdict]
            rfl
        | error e =>
            simp only [verdict]
            rfl
  · rfl

theorem drainFlash_veil (events : List FlashEvent) :
    (st.veil σ).drainFlash events =
      ((st.drainFlash events).1.veil σ, (st.drainFlash events).2) := by
  have title : (st.veil σ).gaugeTitle = st.gaugeTitle := rfl
  have progress : (st.veil σ).progress = st.progress := rfl
  have rx : (st.veil σ).flashRx = st.flashRx := rfl
  unfold BuildFlowScreen.drainFlash
  rw [title, progress, rx]
  split
  · cases verdict : (Flash.foldEvents st.gaugeTitle st.progress events).2.2.2 with
    | none =>
        simp only [verdict]
        rfl
    | some result =>
        cases result with
        | ok msg =>
            simp only [verdict]
            rfl
        | error e =>
            simp only [verdict]
            rfl
  · rfl

end BuildFlash

/-! ## The Flash screen -/

namespace Flash

def veilPhase : Phase → Phase
  | .storePass buf => .storePass (recode σ buf)
  | .sudoPass buf error => .sudoPass (recode σ buf) error
  | phase => phase

/-- The passphrase of the store is kept until the worker is armed. -/
def FlashScreen.veil (st : FlashScreen) : FlashScreen :=
  { st with phase := veilPhase σ st.phase, storePass := st.storePass.map (recode σ) }

def FlashScreen.hides (st : FlashScreen) : Bool :=
  match st.phase with
  | .storePass _ | .sudoPass _ _ => true
  | _ => false

/-- The turns of the two screens correspond. -/
def Veiled (turn other : Turn FlashScreen) : Prop := other = turn.veil σ (FlashScreen.veil σ)

theorem arm_veil (configDir : String) (a : Answers) (st : FlashScreen) (elev : Elevation) :
    Veiled σ (st.arm configDir a elev)
      ((st.veil σ).arm configDir a (veilElevation σ elev)) := by
  have disk : (st.veil σ).selectedDisk = st.selectedDisk := rfl
  have image : (st.veil σ).image = st.image := rfl
  unfold Veiled FlashScreen.arm
  rw [disk, image]
  split
  · rfl
  · split
    · rfl
    · rfl

variable (st : FlashScreen)

theorem veiled_stay {next other : FlashScreen} (same : other = next.veil σ) :
    Veiled σ (.stay next) (.stay other) := by
  subst other
  rfl

theorem devices_veil (a : Answers) (key : KeyCode) :
    Veiled σ (onKeyDevices a st key) (onKeyDevices a (st.veil σ) key) := by
  have disk : (st.veil σ).selectedDisk = st.selectedDisk := rfl
  unfold onKeyDevices
  split
  · rfl
  · rfl
  · rfl
  · rfl
  · rfl
  · rfl
  · apply veiled_stay
    rw [disk]
    split <;> rfl
  · rfl

theorem summary_veil (key : KeyCode) :
    Veiled σ (onKeySummary st key) (onKeySummary (st.veil σ) key) := by
  have fits : (st.veil σ).imageFits = st.imageFits := rfl
  unfold onKeySummary
  split
  · rfl
  · apply veiled_stay
    rw [fits]
    split <;> rfl
  · rfl

theorem answerBackup_veil (backup : Bool) :
    (st.veil σ).answerBackup backup = (st.answerBackup backup).veil σ := by
  have grows : (st.veil σ).growsToFill = st.growsToFill := rfl
  unfold FlashScreen.answerBackup
  rw [grows]
  split <;> rfl

theorem backupAsk_veil (key : KeyCode) :
    Veiled σ (onKeyBackupAsk st key) (onKeyBackupAsk (st.veil σ) key) := by
  unfold onKeyBackupAsk
  split
  · rfl
  · exact veiled_stay σ (answerBackup_veil σ st true)
  · exact veiled_stay σ (answerBackup_veil σ st true)
  · exact veiled_stay σ (answerBackup_veil σ st false)
  · exact veiled_stay σ (answerBackup_veil σ st false)
  · rfl

theorem storePass_veil (buf : String) (key : KeyCode) :
    Veiled σ (onKeyStorePass st buf key)
      (onKeyStorePass (st.veil σ) (recode σ buf) (key.recode σ)) := by
  cases key with
  | enter =>
      apply veiled_stay
      rw [recode_isEmpty]
      cases buf.isEmpty <;> rfl
  | backspace =>
      apply veiled_stay
      rw [← recode_pop]
      rfl
  | char c =>
      apply veiled_stay
      rw [← recode_push]
      rfl
  | _ => rfl

theorem submit_veil (configDir : String) (a : Answers) (typed : String) (error : Option String) :
    Veiled σ (submitConfirm configDir a st typed error)
      (submitConfirm configDir a (st.veil σ) typed error) := by
  have disk : (st.veil σ).selectedDisk = st.selectedDisk := rfl
  unfold submitConfirm
  rw [disk]
  split
  · rfl
  · split
    · split
      · exact arm_veil σ configDir a { st with phase := .confirm "" error } .root
      · rfl
      · rfl
    · rfl

theorem confirm_veil (configDir : String) (a : Answers) (typed : String) (error : Option String)
    (key : KeyCode) :
    Veiled σ (onKeyConfirm configDir a st typed error key)
      (onKeyConfirm configDir a (st.veil σ) typed error key) := by
  cases key with
  | enter => exact submit_veil σ st configDir a typed error
  | esc | char c | backspace => rfl
  | delete | up | down | pageUp | pageDown | «end» | other => rfl

theorem sudoPass_veil (configDir : String) (a : Answers) (buf : String) (error : Option String)
    (key : KeyCode) :
    Veiled σ (onKeySudoPass configDir a st buf error key)
      (onKeySudoPass configDir a (st.veil σ) (recode σ buf) error (key.recode σ)) := by
  cases key with
  | enter =>
      simp only [KeyCode.recode, onKeySudoPass, authenticate_recode]
      cases authenticate buf a.sudo with
      | ok elev => exact arm_veil σ configDir a { st with phase := .sudoPass "" error } elev
      | wrong => rfl
      | missing => rfl
      | error e => rfl
  | backspace =>
      apply veiled_stay
      rw [← recode_pop]
      rfl
  | char c =>
      apply veiled_stay
      rw [← recode_push]
      rfl
  | _ => rfl

theorem onKey_veil (configDir : String) (a : Answers) (key : KeyCode) :
    onKey configDir a (st.veil σ) (if st.hides then key.recode σ else key) =
      (onKey configDir a st key).veil σ (FlashScreen.veil σ) := by
  have veiled : (st.veil σ).phase = veilPhase σ st.phase := rfl
  unfold onKey
  rw [veiled, FlashScreen.hides]
  cases phase : st.phase with
  | devices => exact devices_veil σ st a key
  | summary => exact summary_veil σ st key
  | backupAsk => exact backupAsk_veil σ st key
  | storePass buf => exact storePass_veil σ st buf key
  | confirm typed error => exact confirm_veil σ st configDir a typed error key
  | sudoPass buf error => exact sudoPass_veil σ st configDir a buf error key
  | running => rfl
  | done ok =>
      simp only [veilPhase, Bool.false_eq_true, if_false]
      split <;> rfl

theorem drainEvents_veil (events : List FlashEvent) :
    (st.veil σ).drainEvents events =
      ((st.drainEvents events).1.veil σ, (st.drainEvents events).2) := by
  have title : (st.veil σ).gaugeTitle = st.gaugeTitle := rfl
  have progress : (st.veil σ).progress = st.progress := rfl
  have rx : (st.veil σ).rx = st.rx := rfl
  unfold FlashScreen.drainEvents
  rw [title, progress, rx]
  split
  · cases verdict : (foldEvents st.gaugeTitle st.progress events).2.2.2 with
    | none =>
        simp only [verdict]
        rfl
    | some result =>
        cases result with
        | ok msg =>
            simp only [verdict]
            rfl
        | error e =>
            simp only [verdict]
            rfl
  · rfl

end Flash

/-! ## The Verify screen -/

namespace Verify

def veilPhase : Phase → Phase
  | .sudoPass buf error => .sudoPass (recode σ buf) error
  | phase => phase

def VerifyScreen.veil (st : VerifyScreen) : VerifyScreen :=
  { st with phase := veilPhase σ st.phase }

def VerifyScreen.hides (st : VerifyScreen) : Bool :=
  match st.phase with
  | .sudoPass _ _ => true
  | _ => false

def veilJob : VerifyJob → VerifyJob
  | .image image => .image image
  | .install dev image elev => .install dev image (veilElevation σ elev)

def VerifyTurn.veil (turn : VerifyTurn) : VerifyTurn where
  next := turn.next.map (VerifyScreen.veil σ)
  calls := turn.calls
  spawned := turn.spawned.map (veilJob σ)

variable (st : VerifyScreen)

theorem devices_veil (a : Answers) (key : KeyCode) :
    onKeyDevices a (st.veil σ) key = (onKeyDevices a st key).veil σ := by
  have disk : (st.veil σ).selectedDisk = st.selectedDisk := rfl
  unfold onKeyDevices
  split
  · rfl
  · rfl
  · rfl
  · rfl
  · rfl
  · rfl
  · rw [disk]
    split
    · rfl
    · split <;> rfl
  · rfl

theorem submit_veil (a : Answers) (buf : String) (error : Option String) :
    submitSudo a (st.veil σ) (recode σ buf) error = (submitSudo a st buf error).veil σ := by
  have pending : (st.veil σ).pendingDev = st.pendingDev := rfl
  simp only [submitSudo, authenticate_recode, pending]
  cases authenticate buf a.sudo with
  | ok elev => cases st.pendingDev <;> rfl
  | wrong => rfl
  | missing => cases st.pendingDev <;> rfl
  | error e => rfl

theorem sudoPass_veil (a : Answers) (buf : String) (error : Option String) (key : KeyCode) :
    onKeySudoPass a (st.veil σ) (recode σ buf) error (key.recode σ) =
      (onKeySudoPass a st buf error key).veil σ := by
  cases key with
  | enter => exact submit_veil σ st a buf error
  | backspace =>
      simp only [KeyCode.recode, onKeySudoPass]
      rw [← recode_pop]
      rfl
  | char c =>
      simp only [KeyCode.recode, onKeySudoPass]
      rw [← recode_push]
      rfl
  | _ => rfl

theorem scrollKey_veil (key : KeyCode) :
    (st.veil σ).scrollKey key = (st.scrollKey key).veil σ := by
  unfold VerifyScreen.scrollKey
  split <;> rfl

theorem onKey_veil (a : Answers) (key : KeyCode) :
    onKey a (st.veil σ) (if st.hides then key.recode σ else key) = (onKey a st key).veil σ := by
  have veiled : (st.veil σ).phase = veilPhase σ st.phase := rfl
  have mode : (st.veil σ).mode = st.mode := rfl
  unfold onKey
  rw [veiled, VerifyScreen.hides, mode]
  cases phase : st.phase with
  | devices => exact devices_veil σ st a key
  | sudoPass buf error => exact sudoPass_veil σ st a buf error key
  | running =>
      simp only [veilPhase, Bool.false_eq_true, if_false, scrollKey_veil]
      split <;> rfl
  | done ok =>
      simp only [veilPhase, Bool.false_eq_true, if_false, scrollKey_veil]
      split <;> rfl

theorem drainEvents_veil (events : List Nixnas.Tui.Verify.VerifyEvent) :
    (st.veil σ).drainEvents events =
      ((st.drainEvents events).1.veil σ, (st.drainEvents events).2) := by
  have mode : (st.veil σ).mode = st.mode := rfl
  have findings : (st.veil σ).toFindings = st.toFindings := rfl
  have rx : (st.veil σ).rx = st.rx := rfl
  unfold VerifyScreen.drainEvents
  rw [mode, findings, rx]
  split
  · cases verdict : (foldEvents (stepNames st.mode) st.toFindings events).2.2 with
    | none =>
        simp only [verdict]
        rfl
    | some result =>
        cases result with
        | ok msg =>
            simp only [verdict]
            rfl
        | error e =>
            simp only [verdict]
            rfl
  · rfl

end Verify

end Nixnas.Ui
