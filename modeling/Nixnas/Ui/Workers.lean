import Nixnas.Ui.BuildFlashGate
import Nixnas.Ui.Session

/-!
# One worker, one screen, one log

A screen opens a log file in the turn in which it spawns a worker, and holds the
worker's receiver until it pulled the last event; meanwhile its keys neither
leave it nor spawn.  So HOME, where every other screen is opened and where the
menu quits, is reached only when no worker runs.
-/

set_option autoImplicit false

namespace Nixnas.Ui

open Nixnas.Logic
open Nixnas.Tui.Build (BuildEvent Config)
open Nixnas.Tui.Flash
open Nixnas.Tui.Sudo
open Nixnas.Ui.Verify (VerifyScreen)

/-! ## What a turn of a screen can do -/

section Moves

variable {S : Type} {receiver : S → Option Receiver} {coherent : S → Prop} {st : S}

/-- A turn opens no log and spawns nothing, and leaves only a screen that waits
for no worker; or it does both, on a screen that waited for none. -/
inductive Moves (receiver : S → Option Receiver) (coherent : S → Prop) (st : S) :
    Next S → List LogCall → Option Receiver → Prop where
  | stay (next : S) (kept : coherent next) (same : receiver next = receiver st) :
      Moves receiver coherent st (.stay next) [] none
  | home (idle : receiver st = none) : Moves receiver coherent st .home [] none
  | panic (message : String) : Moves receiver coherent st (.panic message) [] none
  | starts (idle : receiver st = none) (next : S) (kept : coherent next) (action : String)
      (field : Receiver) (waits : receiver next = some field) :
      Moves receiver coherent st (.stay next) [.begin action] (some field)

/-- A drain of the held receiver keeps the screen waiting until it pulled the last
event; then it writes the verdict to the log. -/
inductive Drains (receiver : S → Option Receiver) (coherent : S → Prop) (st : S) :
    Bool → S × List LogCall → Prop where
  | goesOn (next : S) (calls : List LogCall) (kept : coherent next)
      (same : receiver next = receiver st) : Drains receiver coherent st false (next, calls)
  | ends (next : S) (calls : List LogCall) (ok : Bool) (msg : String) (kept : coherent next)
      (idle : receiver next = none) :
      Drains receiver coherent st true (next, calls ++ [.done ok msg])

theorem Moves.kept {next : Next S} {calls : List LogCall} {field : Option Receiver} {after : S}
    (moves : Moves receiver coherent st next calls field) (stays : next = .stay after) :
    coherent after := by
  cases moves with
  | stay _ kept _ =>
      cases stays
      exact kept
  | home _ => cases stays
  | panic _ => cases stays
  | starts _ _ kept _ _ _ =>
      cases stays
      exact kept

theorem Drains.kept {ended : Bool} {drained : S × List LogCall}
    (drains : Drains receiver coherent st ended drained) : coherent drained.1 := by
  cases drains with
  | goesOn _ _ kept _ => exact kept
  | ends _ _ _ _ kept _ => exact kept

end Moves

/-! ## Screens with one worker -/

section OneWorker

variable {S : Type} {runs : S → Prop} [DecidablePred runs] {rx : S → Bool} {field : Receiver}
  {st next : S}

def heldWhile (runs : S → Prop) [DecidablePred runs] (field : Receiver) (st : S) :
    Option Receiver :=
  if runs st then some field else none

/-- The receiver is held as long as the worker runs. -/
def WaitsWhile (runs : S → Prop) (rx : S → Bool) (st : S) : Prop := rx st = true ↔ runs st

theorem held_of_idle (field : Receiver) (idle : ¬ runs st) : heldWhile runs field st = none :=
  if_neg idle

omit [DecidablePred runs] in
theorem waits_of_idle (silent : rx st = false) (idle : ¬ runs st) : WaitsWhile runs rx st := by
  unfold WaitsWhile
  rw [silent]
  exact iff_of_false (by simp) idle

/-- A turn between two phases in which nothing runs. -/
theorem moves_idle (waits : WaitsWhile runs rx st) (idle : ¬ runs st) (same : rx next = rx st)
    (still : ¬ runs next) :
    Moves (heldWhile runs field) (WaitsWhile runs rx) st (.stay next) [] none := by
  have silent : rx st = false := by
    by_contra live
    exact idle (waits.mp (by simpa using live))
  apply Moves.stay
  · exact waits_of_idle (same.trans silent) still
  · rw [held_of_idle field idle, held_of_idle field still]

/-- A turn in which whatever runs goes on. -/
theorem moves_same (waits : WaitsWhile runs rx st) (same : rx next = rx st)
    (goesOn : runs next ↔ runs st) :
    Moves (heldWhile runs field) (WaitsWhile runs rx) st (.stay next) [] none := by
  apply Moves.stay
  · unfold WaitsWhile
    rw [same, goesOn]
    exact waits
  · unfold heldWhile
    simp only [goesOn]

/-- The turn that starts the worker. -/
theorem moves_start (idle : ¬ runs st) (action : String) (live : rx next = true)
    (running : runs next) :
    Moves (heldWhile runs field) (WaitsWhile runs rx) st (.stay next) [.begin action]
      (some field) := by
  apply Moves.starts
  · exact held_of_idle field idle
  · exact iff_of_true live running
  · exact if_pos running

theorem rx_of_waits (field : Receiver) (waits : WaitsWhile runs rx st) :
    rx st = decide (heldWhile runs field st = some field) := by
  refine Bool.eq_iff_iff.mpr (waits.trans ?_)
  unfold heldWhile
  split <;> simp [*]

theorem held_eq {receiver : Receiver} (holds : heldWhile runs field st = some receiver) :
    receiver = field := by
  unfold heldWhile at holds
  split at holds
  · exact (Option.some.inj holds).symm
  · cases holds

theorem heldWhile_isSome (field : Receiver) :
    (heldWhile runs field st).isSome = decide (runs st) := by
  unfold heldWhile
  split <;> simp [*]

end OneWorker

namespace Build

def BuildScreen.receiver : BuildScreen → Option Receiver := heldWhile (·.phase = .running) .build

def BuildScreen.Waits : BuildScreen → Prop := WaitsWhile (·.phase = .running) (·.rx)

abbrev Orderly (st : BuildScreen) (turn : Turn BuildScreen) : Prop :=
  Moves BuildScreen.receiver BuildScreen.Waits st turn.next turn.calls
    (turn.spawned.map fun _ => Receiver.build)

theorem orderly_idle {st next : BuildScreen} (waits : st.Waits) (idle : st.phase ≠ .running)
    (rx : next.rx = st.rx) (still : next.phase ≠ .running) : Orderly st (.stay next) :=
  moves_idle waits idle rx still

theorem orderly_home {st : BuildScreen} (idle : st.phase ≠ .running) : Orderly st .home := by
  exact Moves.home (held_of_idle _ idle)

theorem orderly_start (cfg : Config) (a : Answers) {st : BuildScreen} (idle : st.phase ≠ .running)
    (passphrase : String) : Orderly st (st.startBuild cfg a passphrase) := by
  apply moves_start
  · exact idle
  · rfl
  · rfl

theorem orderly_scroll {st : BuildScreen} (waits : st.Waits) (key : KeyCode) :
    Orderly st (.stay (st.scrollKey key)) := by
  have rx : (st.scrollKey key).rx = st.rx := by
    unfold BuildScreen.scrollKey
    split <;> rfl
  have phase : (st.scrollKey key).phase = st.phase := by
    unfold BuildScreen.scrollKey
    split <;> rfl
  exact moves_same waits rx (by rw [phase])

theorem orderly_onKey (cfg : Config) (a : Answers) {st : BuildScreen} (waits : st.Waits)
    (key : KeyCode) : Orderly st (onKey cfg a st key) := by
  unfold onKey
  cases phase : st.phase with
  | passFirst buf error =>
      have idle : st.phase ≠ .running := by simp [phase]
      simp only [onKeyPassFirst]
      split
      · exact orderly_home idle
      · refine orderly_idle waits idle rfl ?_
        dsimp only
        split <;> simp
      · exact orderly_idle waits idle rfl (by simp)
      · exact orderly_idle waits idle rfl (by simp)
      · exact orderly_idle waits idle rfl idle
  | passConfirm first buf =>
      have idle : st.phase ≠ .running := by simp [phase]
      simp only [onKeyPassConfirm]
      split
      · exact orderly_home idle
      · split
        · exact orderly_start cfg a idle first
        · exact orderly_idle waits idle rfl (by simp)
      · exact orderly_idle waits idle rfl (by simp)
      · exact orderly_idle waits idle rfl (by simp)
      · exact orderly_idle waits idle rfl idle
  | running => exact orderly_scroll waits key
  | done ok =>
      have idle : st.phase ≠ .running := by simp [phase]
      simp only
      split
      · exact orderly_home idle
      · exact orderly_home idle
      · exact orderly_scroll waits key

theorem drains {st : BuildScreen} (waits : st.Waits) (live : st.rx = true)
    (events : List BuildEvent) :
    Drains BuildScreen.receiver BuildScreen.Waits st (events.any BuildEvent.isDone)
      (st.drainEvents events) := by
  have ended := foldBuildEvents_verdict st.steps st.log events
  unfold BuildScreen.drainEvents
  rw [if_pos live, ← ended]
  unfold Pane.drain BuildScreen.pane
  simp only
  generalize foldBuildEvents st.steps st.log events = folded
  obtain ⟨steps, lines, calls, verdict⟩ := folded
  cases verdict with
  | none => exact Drains.goesOn _ _ waits rfl
  | some result =>
      cases result with
      | ok img => exact Drains.ends _ _ _ _ (waits_of_idle rfl (by simp)) rfl
      | error e => exact Drains.ends _ _ _ _ (waits_of_idle rfl (by simp)) rfl

theorem new_waits (cfg : Config) :
    (BuildScreen.new cfg).Waits ∧ (BuildScreen.new cfg).receiver = none := by
  have idle : (BuildScreen.new cfg).phase ≠ .running := by simp [BuildScreen.new]
  exact ⟨waits_of_idle rfl idle, held_of_idle _ idle⟩

end Build

namespace Flash

def FlashScreen.receiver : FlashScreen → Option Receiver := heldWhile (·.phase = .running) .flash

def FlashScreen.Waits : FlashScreen → Prop := WaitsWhile (·.phase = .running) (·.rx)

abbrev Orderly (st : FlashScreen) (turn : Turn FlashScreen) : Prop :=
  Moves FlashScreen.receiver FlashScreen.Waits st turn.next turn.calls
    (turn.spawned.map fun _ => Receiver.flash)

theorem orderly_idle {st next : FlashScreen} (waits : st.Waits) (idle : st.phase ≠ .running)
    (rx : next.rx = st.rx) (still : next.phase ≠ .running) : Orderly st (.stay next) :=
  moves_idle waits idle rx still

theorem orderly_home {st : FlashScreen} (idle : st.phase ≠ .running) : Orderly st .home := by
  exact Moves.home (held_of_idle _ idle)

/-- Arming starts the worker, or leaves the screen as the key had it. -/
theorem orderly_arm (configDir : String) (a : Answers) {st before : FlashScreen}
    (waits : before.Waits) (idle : before.phase ≠ .running) (rx : st.rx = before.rx)
    (still : st.phase ≠ .running) (elev : Elevation) :
    Orderly before (st.arm configDir a elev) := by
  unfold FlashScreen.arm
  split
  · exact orderly_idle waits idle rx still
  · split
    · exact Moves.panic _
    · apply moves_start
      · exact idle
      · rfl
      · rfl

theorem orderly_submit (configDir : String) (a : Answers) {st : FlashScreen} (waits : st.Waits)
    (idle : st.phase ≠ .running) (typed : String) (error : Option String) :
    Orderly st (submitConfirm configDir a st typed error) := by
  unfold submitConfirm
  split
  · exact orderly_idle waits idle rfl (by simp)
  · split
    · split
      · refine orderly_arm configDir a waits idle ?_ ?_ _
        · rfl
        · simp
      · exact orderly_idle waits idle rfl (by simp)
      · exact orderly_idle waits idle rfl (by simp)
    · exact orderly_idle waits idle rfl (by simp)

theorem orderly_confirm (configDir : String) (a : Answers) {st : FlashScreen} (waits : st.Waits)
    (typed : String) (error : Option String) (phase : st.phase = .confirm typed error)
    (key : KeyCode) : Orderly st (onKeyConfirm configDir a st typed error key) := by
  have idle : st.phase ≠ .running := by simp [phase]
  cases key with
  | esc => exact orderly_idle waits idle rfl (by simp)
  | backspace | char c => exact orderly_idle waits idle rfl (by simp)
  | enter => exact orderly_submit configDir a waits idle typed error
  | _ => exact orderly_idle waits idle rfl idle

theorem answerBackup_still (st : FlashScreen) (backup : Bool) :
    (st.answerBackup backup).phase ≠ .running := by
  unfold FlashScreen.answerBackup
  dsimp only
  split <;> simp

theorem orderly_devices (a : Answers) {st : FlashScreen} (waits : st.Waits)
    (phase : st.phase = .devices) (key : KeyCode) : Orderly st (onKeyDevices a st key) := by
  have idle : st.phase ≠ .running := by simp [phase]
  unfold onKeyDevices
  split
  · exact orderly_home idle
  · exact orderly_idle waits idle rfl idle
  · exact orderly_idle waits idle rfl idle
  · exact orderly_idle waits idle rfl idle
  · exact orderly_idle waits idle rfl idle
  · exact orderly_idle waits idle rfl idle
  · split
    · exact orderly_idle waits idle rfl (by simp)
    · exact orderly_idle waits idle rfl idle
  · exact orderly_idle waits idle rfl idle

theorem orderly_sudo (configDir : String) (a : Answers) {st : FlashScreen} (waits : st.Waits)
    (buf : String) (error : Option String) (phase : st.phase = .sudoPass buf error)
    (key : KeyCode) : Orderly st (onKeySudoPass configDir a st buf error key) := by
  have idle : st.phase ≠ .running := by simp [phase]
  unfold onKeySudoPass
  split
  · exact orderly_idle waits idle rfl (by simp)
  · split
    · refine orderly_arm configDir a waits idle ?_ ?_ _
      · rfl
      · simp
    · exact orderly_idle waits idle rfl (by simp)
    · exact orderly_idle waits idle rfl (by simp)
    · exact orderly_idle waits idle rfl (by simp)
  · exact orderly_idle waits idle rfl (by simp)
  · exact orderly_idle waits idle rfl (by simp)
  · exact orderly_idle waits idle rfl idle

theorem orderly_onKey (configDir : String) (a : Answers) {st : FlashScreen} (waits : st.Waits)
    (key : KeyCode) : Orderly st (onKey configDir a st key) := by
  unfold onKey
  cases phase : st.phase with
  | devices => exact orderly_devices a waits phase key
  | summary =>
      have idle : st.phase ≠ .running := by simp [phase]
      simp only [onKeySummary]
      split
      · exact orderly_idle waits idle rfl (by simp)
      · split
        · exact orderly_idle waits idle rfl (by simp)
        · exact orderly_idle waits idle rfl idle
      · exact orderly_idle waits idle rfl idle
  | backupAsk =>
      have idle : st.phase ≠ .running := by simp [phase]
      simp only [onKeyBackupAsk]
      split
      · exact orderly_idle waits idle rfl (by simp)
      · exact orderly_idle waits idle rfl (answerBackup_still st true)
      · exact orderly_idle waits idle rfl (answerBackup_still st true)
      · exact orderly_idle waits idle rfl (answerBackup_still st false)
      · exact orderly_idle waits idle rfl (answerBackup_still st false)
      · exact orderly_idle waits idle rfl idle
  | storePass buf =>
      have idle : st.phase ≠ .running := by simp [phase]
      simp only [onKeyStorePass]
      split
      · exact orderly_idle waits idle rfl (by simp)
      · exact orderly_idle waits idle rfl (by simp)
      · exact orderly_idle waits idle rfl (by simp)
      · exact orderly_idle waits idle rfl (by simp)
      · exact orderly_idle waits idle rfl idle
  | confirm typed error => exact orderly_confirm configDir a waits typed error phase key
  | sudoPass buf error => exact orderly_sudo configDir a waits buf error phase key
  | running => exact Moves.stay st waits rfl
  | done ok =>
      have idle : st.phase ≠ .running := by simp [phase]
      simp only
      split
      · exact orderly_home idle
      · exact orderly_home idle
      · exact orderly_idle waits idle rfl idle

theorem drains {st : FlashScreen} (waits : st.Waits) (live : st.rx = true)
    (events : List FlashEvent) :
    Drains FlashScreen.receiver FlashScreen.Waits st (events.any FlashEvent.isDone)
      (st.drainEvents events) := by
  have ended := foldEvents_verdict st.gaugeTitle st.progress events
  unfold FlashScreen.drainEvents
  rw [if_pos live, ← ended]
  generalize foldEvents st.gaugeTitle st.progress events = folded
  obtain ⟨title, progress, calls, verdict⟩ := folded
  cases verdict with
  | none => exact Drains.goesOn _ _ waits rfl
  | some result =>
      cases result with
      | ok msg => exact Drains.ends _ _ _ _ (waits_of_idle rfl (by simp)) rfl
      | error e => exact Drains.ends _ _ _ _ (waits_of_idle rfl (by simp)) rfl

theorem new_waits (configDir : String) (a : Answers) :
    (FlashScreen.new configDir a).Waits ∧ (FlashScreen.new configDir a).receiver = none := by
  have idle : (FlashScreen.new configDir a).rx = false ∧
      (FlashScreen.new configDir a).phase ≠ .running := by
    unfold FlashScreen.new
    dsimp only
    split <;> simp
  exact ⟨waits_of_idle idle.1 idle.2, held_of_idle _ idle.2⟩

end Flash

namespace BuildFlash

def BuildFlowScreen.receiver (st : BuildFlowScreen) : Option Receiver :=
  match st.stage with
  | .building => some .flowBuild
  | .flashing => some .flowFlash
  | _ => none

structure BuildFlowScreen.Waits (st : BuildFlowScreen) : Prop where
  build : st.buildRx = true ↔ st.stage = .building
  flash : st.flashRx = true ↔ st.stage = .flashing

abbrev Orderly (st : BuildFlowScreen) (turn : Turn BuildFlowScreen) : Prop :=
  Moves BuildFlowScreen.receiver BuildFlowScreen.Waits st turn.next turn.calls
    (turn.spawned.map Worker.flowField)

theorem receiver_idle {st : BuildFlowScreen} (idle : st.isRunning = false) : st.receiver = none := by
  unfold BuildFlowScreen.isRunning at idle
  unfold BuildFlowScreen.receiver
  split
  · simp_all
  · simp_all
  · rfl

theorem Waits.of_idle {st : BuildFlowScreen} (build : st.buildRx = false) (flash : st.flashRx = false)
    (idle : st.isRunning = false) : st.Waits := by
  unfold BuildFlowScreen.isRunning at idle
  constructor
  · rw [build]
    simp_all
  · rw [flash]
    simp_all

theorem Waits.rx {st : BuildFlowScreen} (waits : st.Waits) (idle : st.isRunning = false) :
    st.buildRx = false ∧ st.flashRx = false := by
  unfold BuildFlowScreen.isRunning at idle
  rw [Bool.or_eq_false_iff] at idle
  constructor
  · by_contra live
    have building := waits.build.mp (by simpa using live)
    simp [building] at idle
  · by_contra live
    have flashing := waits.flash.mp (by simpa using live)
    simp [flashing] at idle

theorem orderly_idle {st next : BuildFlowScreen} (waits : st.Waits) (idle : st.isRunning = false)
    (build : next.buildRx = st.buildRx) (flash : next.flashRx = st.flashRx)
    (still : next.isRunning = false) : Orderly st (.stay next) := by
  obtain ⟨noBuild, noFlash⟩ := Waits.rx waits idle
  apply Moves.stay
  · exact Waits.of_idle (build.trans noBuild) (flash.trans noFlash) still
  · rw [receiver_idle idle, receiver_idle still]

theorem orderly_home {st : BuildFlowScreen} (idle : st.isRunning = false) : Orderly st .home :=
  Moves.home (receiver_idle idle)

theorem orderly_armFlash (configDir : String) (a : Answers) {st before : BuildFlowScreen}
    (waits : before.Waits) (idle : before.isRunning = false) (build : st.buildRx = before.buildRx)
    (flash : st.flashRx = before.flashRx) (still : st.isRunning = false) (elev : Elevation) :
    Orderly before (st.armFlash configDir a elev) := by
  unfold BuildFlowScreen.armFlash
  split
  · apply Moves.starts
    · exact receiver_idle idle
    · constructor
      · dsimp only
        rw [build, (Waits.rx waits idle).1]
        simp
      · simp
    · rfl
  · exact orderly_idle waits idle build flash still

theorem orderly_start (cfg : Config) (a : Answers) {st : BuildFlowScreen} (waits : st.Waits)
    (idle : st.isRunning = false) (passphrase : String) :
    Orderly st (st.startBuild cfg a passphrase) := by
  apply Moves.starts
  · exact receiver_idle idle
  · constructor
    · simp
    · dsimp only
      rw [(Waits.rx waits idle).2]
      simp
  · rfl

theorem orderly_submit (configDir : String) (a : Answers) {st : BuildFlowScreen} (waits : st.Waits)
    (idle : st.isRunning = false) (typed : String) (error : Option String) :
    Orderly st (submitFlashConfirm configDir a st typed error) := by
  unfold submitFlashConfirm
  split
  · exact orderly_idle waits idle rfl rfl rfl
  · split
    · split
      · refine orderly_armFlash configDir a waits idle ?_ ?_ ?_ _
        · rfl
        · rfl
        · rfl
      · exact orderly_idle waits idle rfl rfl rfl
      · exact orderly_idle waits idle rfl rfl rfl
    · exact orderly_idle waits idle rfl rfl rfl

theorem orderly_confirm (configDir : String) (a : Answers) {st : BuildFlowScreen} (waits : st.Waits)
    (typed : String) (error : Option String) (stage : st.stage = .flashConfirm typed error)
    (key : KeyCode) : Orderly st (onKeyFlashConfirm configDir a st typed error key) := by
  have idle : st.isRunning = false := by simp [BuildFlowScreen.isRunning, stage]
  cases key with
  | esc => exact orderly_idle waits idle rfl rfl rfl
  | backspace | char c => exact orderly_idle waits idle rfl rfl rfl
  | enter => exact orderly_submit configDir a waits idle typed error
  | _ => exact orderly_idle waits idle rfl rfl idle

theorem orderly_pickDevice (a : Answers) {st : BuildFlowScreen} (waits : st.Waits)
    (stage : st.stage = .pickDevice) (key : KeyCode) : Orderly st (onKeyPickDevice a st key) := by
  have idle : st.isRunning = false := by simp [BuildFlowScreen.isRunning, stage]
  unfold onKeyPickDevice
  split
  · exact orderly_home idle
  · exact orderly_idle waits idle rfl rfl idle
  · exact orderly_idle waits idle rfl rfl idle
  · exact orderly_idle waits idle rfl rfl idle
  · exact orderly_idle waits idle rfl rfl idle
  · exact orderly_idle waits idle rfl rfl idle
  · split
    · exact orderly_idle waits idle rfl rfl idle
    · split
      · exact orderly_idle waits idle rfl rfl idle
      · split
        · exact orderly_idle waits idle rfl rfl rfl
        · exact orderly_idle waits idle rfl rfl idle
  · exact orderly_idle waits idle rfl rfl idle

theorem orderly_sudo (configDir : String) (a : Answers) {st : BuildFlowScreen} (waits : st.Waits)
    (buf : String) (error : Option String) (stage : st.stage = .flashSudo buf error)
    (key : KeyCode) : Orderly st (onKeyFlashSudo configDir a st buf error key) := by
  have idle : st.isRunning = false := by simp [BuildFlowScreen.isRunning, stage]
  unfold onKeyFlashSudo
  split
  · exact orderly_idle waits idle rfl rfl rfl
  · split
    · refine orderly_armFlash configDir a waits idle ?_ ?_ ?_ _
      · rfl
      · rfl
      · rfl
    · exact orderly_idle waits idle rfl rfl rfl
    · exact orderly_idle waits idle rfl rfl rfl
    · exact orderly_idle waits idle rfl rfl rfl
  · exact orderly_idle waits idle rfl rfl rfl
  · exact orderly_idle waits idle rfl rfl rfl
  · exact orderly_idle waits idle rfl rfl idle

theorem orderly_onKey (configDir : String) (cfg : Config) (a : Answers) {st : BuildFlowScreen}
    (waits : st.Waits) (key : KeyCode) : Orderly st (onKey configDir cfg a st key) := by
  unfold onKey
  cases stage : st.stage with
  | unavailable | done ok =>
      have idle : st.isRunning = false := by simp [BuildFlowScreen.isRunning, stage]
      simp only
      split
      · exact orderly_home idle
      · exact orderly_home idle
      · exact orderly_idle waits idle rfl rfl idle
  | pickDevice => exact orderly_pickDevice a waits stage key
  | passFirst buf error =>
      have idle : st.isRunning = false := by simp [BuildFlowScreen.isRunning, stage]
      simp only [onKeyPassFirst]
      split
      · exact orderly_home idle
      · refine orderly_idle waits idle rfl rfl ?_
        unfold BuildFlowScreen.isRunning
        dsimp only
        split <;> rfl
      · exact orderly_idle waits idle rfl rfl rfl
      · exact orderly_idle waits idle rfl rfl rfl
      · exact orderly_idle waits idle rfl rfl idle
  | passConfirm first buf =>
      have idle : st.isRunning = false := by simp [BuildFlowScreen.isRunning, stage]
      simp only [onKeyPassConfirm]
      split
      · exact orderly_home idle
      · split
        · exact orderly_start cfg a waits idle first
        · exact orderly_idle waits idle rfl rfl rfl
      · exact orderly_idle waits idle rfl rfl rfl
      · exact orderly_idle waits idle rfl rfl rfl
      · exact orderly_idle waits idle rfl rfl idle
  | building =>
      obtain ⟨follow, scroll, scrolls⟩ := onKeyBuilding_scrolls st key
      simp only [scrolls]
      apply Moves.stay
      · exact ⟨waits.build, waits.flash⟩
      · rfl
  | flashReview =>
      have idle : st.isRunning = false := by simp [BuildFlowScreen.isRunning, stage]
      simp only [onKeyFlashReview]
      split
      · exact orderly_home idle
      · split
        · exact orderly_idle waits idle rfl rfl rfl
        · exact orderly_idle waits idle rfl rfl idle
      · exact orderly_idle waits idle rfl rfl idle
  | flashBackupAsk =>
      have idle : st.isRunning = false := by simp [BuildFlowScreen.isRunning, stage]
      simp only [onKeyFlashBackupAsk]
      split
      · exact orderly_idle waits idle rfl rfl rfl
      · exact orderly_idle waits idle rfl rfl rfl
      · exact orderly_idle waits idle rfl rfl rfl
      · exact orderly_idle waits idle rfl rfl rfl
      · exact orderly_idle waits idle rfl rfl rfl
      · exact orderly_idle waits idle rfl rfl idle
  | flashConfirm typed error => exact orderly_confirm configDir a waits typed error stage key
  | flashSudo buf error => exact orderly_sudo configDir a waits buf error stage key
  | flashing => exact Moves.stay st waits rfl

theorem drainsBuild (a : Answers) {st : BuildFlowScreen} (waits : st.Waits)
    (live : st.buildRx = true) (events : List BuildEvent) :
    Drains BuildFlowScreen.receiver BuildFlowScreen.Waits st (events.any BuildEvent.isDone)
      (st.drainBuild a events) := by
  have ended := Build.foldBuildEvents_verdict st.steps st.log events
  have building := waits.build.mp live
  have noFlash : st.flashRx = false := by
    by_contra both
    have flashing := waits.flash.mp (by simpa using both)
    rw [building] at flashing
    contradiction
  unfold BuildFlowScreen.drainBuild
  rw [if_pos live, ← ended]
  unfold Build.Pane.drain BuildFlowScreen.pane
  simp only
  generalize Build.foldBuildEvents st.steps st.log events = folded
  obtain ⟨steps, lines, calls, verdict⟩ := folded
  cases verdict with
  | none => exact Drains.goesOn _ _ ⟨waits.build, waits.flash⟩ rfl
  | some result =>
      cases result with
      | ok img => exact Drains.ends _ _ _ _ (Waits.of_idle rfl noFlash rfl) rfl
      | error e => exact Drains.ends _ _ _ _ (Waits.of_idle rfl noFlash rfl) rfl

theorem drainsFlash {st : BuildFlowScreen} (waits : st.Waits) (live : st.flashRx = true)
    (events : List FlashEvent) :
    Drains BuildFlowScreen.receiver BuildFlowScreen.Waits st (events.any FlashEvent.isDone)
      (st.drainFlash events) := by
  have ended := Flash.foldEvents_verdict st.gaugeTitle st.progress events
  have flashing := waits.flash.mp live
  have noBuild : st.buildRx = false := by
    by_contra both
    have building := waits.build.mp (by simpa using both)
    rw [flashing] at building
    contradiction
  unfold BuildFlowScreen.drainFlash
  rw [if_pos live, ← ended]
  generalize Flash.foldEvents st.gaugeTitle st.progress events = folded
  obtain ⟨title, progress, calls, verdict⟩ := folded
  cases verdict with
  | none => exact Drains.goesOn _ _ ⟨waits.build, waits.flash⟩ rfl
  | some result =>
      cases result with
      | ok msg => exact Drains.ends _ _ _ _ (Waits.of_idle noBuild rfl rfl) rfl
      | error e => exact Drains.ends _ _ _ _ (Waits.of_idle noBuild rfl rfl) rfl

theorem new_waits (cfg : Config) (a : Answers) :
    (BuildFlowScreen.new cfg a).Waits ∧ (BuildFlowScreen.new cfg a).receiver = none := by
  have idle : (BuildFlowScreen.new cfg a).isRunning = false := by
    unfold BuildFlowScreen.new BuildFlowScreen.isRunning
    dsimp only
    split <;> rfl
  exact ⟨Waits.of_idle rfl rfl idle, receiver_idle idle⟩

end BuildFlash

namespace Verify

def VerifyScreen.receiver : VerifyScreen → Option Receiver :=
  heldWhile (·.phase = .running) .verify

def VerifyScreen.Waits : VerifyScreen → Prop := WaitsWhile (·.phase = .running) (·.rx)

abbrev Orderly (st : VerifyScreen) (turn : VerifyTurn) : Prop :=
  Moves VerifyScreen.receiver VerifyScreen.Waits st turn.next turn.calls
    (turn.spawned.map fun _ => Receiver.verify)

theorem orderly_idle {st next : VerifyScreen} (waits : st.Waits) (idle : st.phase ≠ .running)
    (rx : next.rx = st.rx) (still : next.phase ≠ .running) : Orderly st (.stay next) :=
  moves_idle waits idle rx still

theorem orderly_home {st : VerifyScreen} (idle : st.phase ≠ .running) : Orderly st .home := by
  exact Moves.home (held_of_idle _ idle)

theorem orderly_armInstall (a : Answers) {st before : VerifyScreen}
    (idle : before.phase ≠ .running) (dev : String) (elev : Elevation) :
    Orderly before (st.armInstall a dev elev) := by
  apply moves_start
  · exact idle
  · rfl
  · rfl

theorem orderly_scroll {st : VerifyScreen} (waits : st.Waits) (key : KeyCode) :
    Orderly st (.stay (st.scrollKey key)) := by
  have rx : (st.scrollKey key).rx = st.rx := by
    unfold VerifyScreen.scrollKey
    split <;> rfl
  have phase : (st.scrollKey key).phase = st.phase := by
    unfold VerifyScreen.scrollKey
    split <;> rfl
  exact moves_same waits rx (by rw [phase])

theorem orderly_submit (a : Answers) {st : VerifyScreen} (waits : st.Waits)
    (idle : st.phase ≠ .running) (buf : String) (error : Option String) :
    Orderly st (submitSudo a st buf error) := by
  unfold submitSudo
  simp only
  split
  · split
    · exact orderly_armInstall a idle _ _
    · exact orderly_idle waits idle rfl (by simp)
  · exact orderly_idle waits idle rfl (by simp)
  · split
    · exact orderly_armInstall a idle _ _
    · exact orderly_idle waits idle rfl (by simp)
  · exact orderly_idle waits idle rfl (by simp)

theorem orderly_onKey (a : Answers) {st : VerifyScreen} (waits : st.Waits) (key : KeyCode) :
    Orderly st (onKey a st key) := by
  unfold onKey
  cases phase : st.phase with
  | devices =>
      have idle : st.phase ≠ .running := by simp [phase]
      simp only [onKeyDevices]
      split
      · exact orderly_home idle
      · exact orderly_idle waits idle rfl idle
      · exact orderly_idle waits idle rfl idle
      · exact orderly_idle waits idle rfl idle
      · exact orderly_idle waits idle rfl idle
      · exact orderly_idle waits idle rfl idle
      · split
        · exact orderly_idle waits idle rfl idle
        · split
          · exact orderly_armInstall a idle _ _
          · exact orderly_idle waits idle rfl (by simp)
          · exact orderly_armInstall a idle _ _
      · exact orderly_idle waits idle rfl idle
  | sudoPass buf error =>
      have idle : st.phase ≠ .running := by simp [phase]
      simp only [onKeySudoPass]
      split
      · exact orderly_idle waits idle rfl (by simp)
      · exact orderly_submit a waits idle buf error
      · exact orderly_idle waits idle rfl (by simp)
      · exact orderly_idle waits idle rfl (by simp)
      · exact orderly_idle waits idle rfl idle
  | running =>
      simp only
      split
      · exact moves_same waits rfl (iff_of_true rfl phase)
      · exact orderly_scroll waits key
  | done ok =>
      have idle : st.phase ≠ .running := by simp [phase]
      simp only
      split
      · exact orderly_home idle
      · exact orderly_home idle
      · exact orderly_scroll waits key

theorem drains {st : VerifyScreen} (waits : st.Waits) (live : st.rx = true)
    (events : List Tui.Verify.VerifyEvent) :
    Drains VerifyScreen.receiver VerifyScreen.Waits st (events.any isDone)
      (st.drainEvents events) := by
  have ended := foldEvents_verdict (stepNames st.mode) st.toFindings events
  unfold VerifyScreen.drainEvents
  rw [if_pos live, ← ended]
  generalize foldEvents (stepNames st.mode) st.toFindings events = folded
  obtain ⟨panes, calls, verdict⟩ := folded
  cases verdict with
  | none => exact Drains.goesOn _ _ waits rfl
  | some result =>
      cases result with
      | ok msg => exact Drains.ends _ _ _ _ (waits_of_idle rfl (by simp)) rfl
      | error e => exact Drains.ends _ _ _ _ (waits_of_idle rfl (by simp)) rfl

/-- The constructor of the image check waits for the worker it spawned, if it
found an image. -/
theorem newImage_waits (configDir : String) (a : Answers) :
    (VerifyScreen.newImage configDir a).1.Waits ∧
      (VerifyScreen.newImage configDir a).1.receiver =
        (VerifyScreen.newImage configDir a).2.map fun _ => Receiver.verify := by
  unfold VerifyScreen.newImage
  simp only
  split
  · exact ⟨iff_of_true rfl rfl, rfl⟩
  · exact ⟨waits_of_idle rfl (by simp), rfl⟩

theorem newInstall_waits (configDir : String) (a : Answers) :
    (VerifyScreen.newInstall configDir a).Waits ∧
      (VerifyScreen.newInstall configDir a).receiver = none := by
  have idle : (VerifyScreen.newInstall configDir a).phase ≠ .running := by
    simp [VerifyScreen.newInstall, VerifyScreen.empty]
  exact ⟨waits_of_idle rfl idle, held_of_idle _ idle⟩

end Verify

end Nixnas.Ui
