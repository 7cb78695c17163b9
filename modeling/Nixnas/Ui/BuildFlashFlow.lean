import Nixnas.Ui.Quitting
import Nixnas.Ui.Workers

/-!
# One flow, one target

The Build & Flash screen keeps two notions of its target, the picked pair and
the selection in the disk list, and chains two workers.  A record beside the
screen says what was picked and which builds were started, with the events that
were pulled from each; whatever is flashed is the image that the one build of
the flow returned for the one pick.
-/

set_option autoImplicit false

namespace Nixnas.Ui.BuildFlash

open Nixnas.Logic
open Nixnas.Rust
open Nixnas.Tui.Build (BuildEvent Config SizeOverride nixArgs overrideExpr sizedExpr)
open Nixnas.Tui.Flash
open Nixnas.Tui.Sudo
open Nixnas.Ui.Build (foldBuildEvents foldBuildEvents_verdict)

/-! ## The modals -/

def backupAskLines (configDir : String) : Option Disk → List String
  | none => []
  | some disk =>
      ["Back up the current contents of /dev/" ++ disk.name ++ " before overwriting?",
        "A full image is written to " ++ backupPath configDir ++ " first."]

def confirmLines : Option Disk → List String
  | none => []
  | some disk =>
      ["This will COMPLETELY OVERWRITE /dev/" ++ disk.name ++ ".",
        "Type the bare device name (" ++ disk.name ++ ") to confirm:"]

/-- What the two modals say; the others name no disk. -/
def BuildFlowScreen.modalLines (configDir : String) (st : BuildFlowScreen) : List String :=
  match st.stage with
  | .flashBackupAsk => backupAskLines configDir st.selectedDisk
  | .flashConfirm _ _ => confirmLines st.selectedDisk
  | _ => []

/-! ## The record -/

/-- A build worker and the events pulled from its channel. -/
structure BuildRun where
  job : BuildJob
  pulled : List BuildEvent

def result? : BuildEvent → Option (Except String String)
  | .done result => some result
  | _ => none

def BuildRun.returned (run : BuildRun) : Option (Except String String) :=
  (run.pulled.filterMap result?).getLast?

def BuildRun.pull (events : List BuildEvent) (run : BuildRun) : BuildRun :=
  { run with pulled := run.pulled ++ events }

/-- The disk under the cursor with the size that the system reports for it, if
Enter takes it. -/
def BuildFlowScreen.picks (a : Answers) (st : BuildFlowScreen) (key : KeyCode) :
    List (String × Nat) :=
  if st.stage = .pickDevice ∧ key = .enter then
    match st.selectedDisk, deviceBytes a with
    | some disk, some bytes => if minImageBytes ≤ bytes then [(disk.name, bytes)] else []
    | _, _ => []
  else []

def startedBuild : Option Worker → List BuildRun
  | some (.build job) => [⟨job, []⟩]
  | some (.flash _) | none => []

/-- The application while the flow is open, and the record of it; the last
entries come first. -/
structure Flow (Configure Verify : Type) where
  app : App Configure Verify
  picks : List (String × Nat)
  builds : List BuildRun

inductive FlowEvent where
  | key (a : Answers) (key : KeyCode) (control : Bool)
  | drain (a : Answers) (build : List BuildEvent) (flash : List FlashEvent)

section Flow

variable {Configure Verify : Type}

/-- One step of the flow; leaving the screen ends it. -/
def Flow.step (others : Others Configure Verify) (configDir : String)
    (flow : Flow Configure Verify) : FlowEvent → Option (Flow Configure Verify)
  | .key a key control =>
      match flow.app.buildflash, flow.app.onKey others configDir a key control with
      | some st, .ok (app, spawned) =>
          if app.screen = .buildFlash then
            some ⟨app, st.picks a key ++ flow.picks, startedBuild spawned ++ flow.builds⟩
          else none
      | _, _ => none
  | .drain a build flash =>
      flow.app.buildflash.map fun st =>
        ⟨flow.app.drain others a build flash, flow.picks,
          if st.buildRx then flow.builds.modifyHead (BuildRun.pull build) else flow.builds⟩

/-- The entry of HOME that opens a fresh screen. -/
def Flow.Opens (others : Others Configure Verify) (configDir : String)
    (flow : Flow Configure Verify) : Prop :=
  ∃ (home : App Configure Verify) (a : Answers),
    home.screen = .home ∧ home.home.selected = 1 ∧ home.buildflash.all (!·.isRunning) ∧
      flow = ⟨home.openEntry others configDir a, [], []⟩

def Flow.machine (others : Others Configure Verify) (configDir : String) :
    Machine (Flow Configure Verify) FlowEvent :=
  Machine.ofStep (Flow.Opens others configDir) (Flow.step others configDir)

/-! ## Coherence -/

/-- A flash to `n` of size `b` is what this flow was about from the pick on. -/
structure Justified (flow : Flow Configure Verify) (st : BuildFlowScreen) (job : FlashJob)
    (n : String) (b : Nat) : Prop where
  picked : flow.picks = [(n, b)]
  large : minImageBytes ≤ b
  /-- The one build of the flow returned the image; it was the sized one. -/
  built : ∃ run host, flow.builds = [run] ∧ run.returned = some (.ok job.image) ∧
    run.job.size = .bytes b ∧ run.job.cfg.hostAttr = some host ∧
    ∀ scriptLink, nixArgs scriptLink run.job.cfg run.job.size =
      ["build", "--impure", "--print-build-logs", "--accept-flake-config", "--out-link", scriptLink,
        "--expr", sizedExpr host ("nixnas.boot.usb.imageSize = lib.mkForce \"" ++ toString b ++ "\";")]
  fits : ∃ size, st.built = some (job.image, size) ∧ size ≤ b

structure Flow.Coherent (configDir : String) (flow : Flow Configure Verify) : Prop where
  flash : ∀ st, flow.app.buildflash = some st → ∀ a key job,
    (onKey configDir flow.app.cfg a st key).spawned = some (.flash job) →
      ∃ n b, job.dev = "/dev/" ++ n ∧ job.devSize = some b ∧ Justified flow st job n b
  shown : ∀ st, flow.app.buildflash = some st → ∀ n b, (n, b) ∈ flow.picks →
    st.selectedDisk.map Disk.name = some n ∧
      (st.stage = .flashBackupAsk → st.modalLines configDir =
        ["Back up the current contents of /dev/" ++ n ++ " before overwriting?",
          "A full image is written to " ++ backupPath configDir ++ " first."]) ∧
      ∀ typed error, st.stage = .flashConfirm typed error → st.modalLines configDir =
        ["This will COMPLETELY OVERWRITE /dev/" ++ n ++ ".",
          "Type the bare device name (" ++ n ++ ") to confirm:"]

end Flow

/-! ## Stages -/

/-- The disk `disk` of `bytes` bytes was picked, and the cursor is on it. -/
structure Aimed (cfg : Config) (list : DiskList) (picked : Option (String × Nat))
    (picks : List (String × Nat)) (disk : Disk) (bytes : Nat) : Prop where
  selected : list.selectedDisk = some disk
  picked : picked = some (disk.name, bytes)
  only : picks = [(disk.name, bytes)]
  large : minImageBytes ≤ bytes
  host : cfg.hostAttr.isSome = true

/-- The one build of the flow. -/
structure Sized (cfg : Config) (builds : List BuildRun) (bytes : Nat)
    (returned : Option (Except String String)) (run : BuildRun) : Prop where
  only : builds = [run]
  cfg : run.job.cfg = cfg
  size : run.job.size = .bytes bytes
  returned : run.returned = returned

/-- The image of the one build is recorded. -/
structure Imaged (cfg : Config) (built : Option (String × Nat)) (builds : List BuildRun)
    (bytes : Nat) (image : String) (size : Nat) : Prop where
  recorded : built = some (image, size)
  sized : ∃ run, Sized cfg builds bytes (some (.ok image)) run

/-- How the screen and the record of its flow go together. -/
def Coheres (cfg : Config) (st : BuildFlowScreen) (picks : List (String × Nat))
    (builds : List BuildRun) : Prop :=
  match st.stage with
  | .unavailable => picks = [] ∧ builds = []
  | .pickDevice => picks = [] ∧ builds = [] ∧ cfg.hostAttr.isSome = true
  | .passFirst _ _ | .passConfirm _ _ =>
      builds = [] ∧ ∃ disk bytes, Aimed cfg st.toDiskList st.picked picks disk bytes
  | .building => ∃ disk bytes run,
      Aimed cfg st.toDiskList st.picked picks disk bytes ∧ Sized cfg builds bytes none run
  | .flashReview => ∃ disk bytes image size,
      Aimed cfg st.toDiskList st.picked picks disk bytes ∧
        Imaged cfg st.built builds bytes image size
  | .flashBackupAsk | .flashConfirm _ _ | .flashSudo _ _ | .flashing =>
      ∃ disk bytes image size, Aimed cfg st.toDiskList st.picked picks disk bytes ∧
        Imaged cfg st.built builds bytes image size ∧ size ≤ bytes
  | .done _ => ∃ disk bytes, Aimed cfg st.toDiskList st.picked picks disk bytes

theorem coheres_new (cfg : Config) (a : Answers) : Coheres cfg (.new cfg a) [] [] := by
  unfold Coheres BuildFlowScreen.new
  cases host : cfg.hostAttr.isSome with
  | false => exact ⟨rfl, rfl⟩
  | true => exact ⟨rfl, rfl, rfl⟩

/-! ## Worker events -/

/-- The verdict of a batch is the last result in it. -/
theorem verdict_eq (steps : List Nixnas.Tui.Build.StepState) (log : List String)
    (events : List BuildEvent) :
    (foldBuildEvents steps log events).2.2.2 = (events.filterMap result?).getLast? := by
  induction events generalizing steps log with
  | nil => rfl
  | cons event rest ih =>
      cases event with
      | step i state => simpa [foldBuildEvents, result?] using ih (steps.set i state) log
      | log line => simpa [foldBuildEvents, result?] using ih steps (log ++ [line])
      | done result =>
          simp only [foldBuildEvents, ih, List.filterMap_cons, result?, List.getLast?_cons]
          cases (rest.filterMap result?).getLast? <;> rfl

theorem returned_pull (run : BuildRun) (events : List BuildEvent) :
    (run.pull events).returned = (events.filterMap result?).getLast?.or run.returned := by
  unfold BuildRun.returned BuildRun.pull
  rw [List.filterMap_append, List.getLast?_append]

section Stages

variable {cfg : Config} {st : BuildFlowScreen} {picks : List (String × Nat)}
  {builds : List BuildRun}

theorem coheres_drainBuild (coheres : Coheres cfg st picks builds) (waits : st.Waits) (a : Answers)
    (events : List BuildEvent) :
    Coheres cfg (st.drainBuild a events).1 picks
      (if st.buildRx then builds.modifyHead (BuildRun.pull events) else builds) := by
  have verdict := verdict_eq st.steps st.log events
  unfold BuildFlowScreen.drainBuild
  by_cases live : st.buildRx = true
  · have building := waits.build.mp live
    unfold Coheres at coheres
    rw [building] at coheres
    obtain ⟨disk, bytes, run, aimed, sized⟩ := coheres
    have pulled := returned_pull run events
    rw [sized.returned, ← verdict] at pulled
    have ran : ∀ returned, (run.pull events).returned = returned →
        Sized cfg (builds.modifyHead (BuildRun.pull events)) bytes returned (run.pull events) := by
      intro returned same
      rw [sized.only]
      exact ⟨rfl, sized.cfg, sized.size, same⟩
    rw [if_pos live, if_pos live]
    unfold Build.Pane.drain BuildFlowScreen.pane
    simp only
    generalize foldBuildEvents st.steps st.log events = folded at pulled
    obtain ⟨steps, lines, calls, returned⟩ := folded
    cases returned with
    | none =>
        unfold Coheres BuildFlowScreen.withPane
        simp only [building]
        exact ⟨disk, bytes, _, aimed, ran none pulled⟩
    | some result =>
        cases result with
        | ok img =>
            exact ⟨disk, bytes, img, _, aimed, rfl, _, ran (some (.ok img)) pulled⟩
        | error e => exact ⟨disk, bytes, aimed⟩
  · rw [if_neg live, if_neg live]
    exact coheres

theorem coheres_drainFlash (coheres : Coheres cfg st picks builds) (waits : st.Waits)
    (events : List FlashEvent) : Coheres cfg (st.drainFlash events).1 picks builds := by
  rcases drainFlash_cases st events with ⟨-, title, progress, same⟩ |
    ⟨decided, title, progress, msg, ok, same⟩
  · rw [same]
    exact coheres
  · have flashing := waits.flash.mp (Bool.and_eq_true_iff.mp decided).1
    unfold Coheres at coheres
    rw [flashing] at coheres
    obtain ⟨disk, bytes, _, _, aimed, -⟩ := coheres
    rw [same]
    exact ⟨disk, bytes, aimed⟩

/-! ## Keys -/

/-- What the turn shows next goes with the record it leaves. -/
def Follow (cfg : Config) (picks : List (String × Nat)) (builds : List BuildRun)
    (turn : Turn BuildFlowScreen) : Prop :=
  ∀ st, turn.next = .stay st → Coheres cfg st picks (startedBuild turn.spawned ++ builds)

theorem Follow.stay (coheres : Coheres cfg st picks builds) :
    Follow cfg picks builds (.stay st) := by
  intro next stays
  cases stays
  exact coheres

theorem Follow.home : Follow cfg picks builds .home := fun _ stays => by cases stays

theorem follow_pickDevice (picking : st.stage = .pickDevice)
    (coheres : Coheres cfg st picks builds) (a : Answers) (key : KeyCode) :
    Follow cfg (st.picks a key ++ picks) builds (onKeyPickDevice a st key) := by
  unfold Coheres at coheres
  rw [picking] at coheres
  obtain ⟨noPicks, noBuilds, host⟩ := coheres
  have same : ∀ (list : DiskList) (e : Option String),
      Coheres cfg { st with toDiskList := list, pickError := e } [] [] := by
    intro list e
    unfold Coheres
    simp only [picking]
    exact ⟨trivial, trivial, host⟩
  subst noPicks noBuilds
  rw [List.append_nil]
  by_cases enter : key = .enter
  · subst enter
    have picks : st.picks a .enter =
        match st.selectedDisk, deviceBytes a with
        | some disk, some bytes => if minImageBytes ≤ bytes then [(disk.name, bytes)] else []
        | _, _ => [] := if_pos ⟨picking, rfl⟩
    rw [picks]
    unfold onKeyPickDevice
    simp only
    cases selected : st.selectedDisk with
    | none => exact Follow.stay (same _ _)
    | some disk =>
        cases size : deviceBytes a with
        | none => exact Follow.stay (same _ _)
        | some bytes =>
            simp only [checkTargetBytes]
            by_cases small : bytes < minImageBytes
            · rw [if_pos small, if_neg (Nat.not_le_of_lt small)]
              exact Follow.stay (same _ _)
            · rw [if_neg small, if_pos (Nat.le_of_not_lt small)]
              exact Follow.stay
                ⟨rfl, disk, bytes, selected, rfl, rfl, Nat.le_of_not_lt small, host⟩
  · have nothing : st.picks a key = [] := if_neg fun both => enter both.2
    rw [nothing]
    unfold onKeyPickDevice
    split
    · exact Follow.home
    · exact Follow.stay (same _ _)
    · exact Follow.stay (same _ _)
    · exact Follow.stay (same _ _)
    · exact Follow.stay (same _ _)
    · exact Follow.stay (same _ _)
    · contradiction
    · exact Follow.stay (same _ _)

variable {disk : Disk} {bytes : Nat}

theorem follow_passFirst (aimed : Aimed cfg st.toDiskList st.picked picks disk bytes)
    (buf : String) (error : Option String) (key : KeyCode)
    (typing : st.stage = .passFirst buf error) :
    Follow cfg picks [] (onKeyPassFirst st buf error key) := by
  unfold onKeyPassFirst
  split
  · exact Follow.home
  · by_cases empty : buf.isEmpty = true
    · rw [if_pos empty]
      exact Follow.stay ⟨rfl, disk, bytes, aimed⟩
    · rw [if_neg empty]
      exact Follow.stay ⟨rfl, disk, bytes, aimed⟩
  · exact Follow.stay ⟨rfl, disk, bytes, aimed⟩
  · exact Follow.stay ⟨rfl, disk, bytes, aimed⟩
  · refine Follow.stay ?_
    unfold Coheres
    rw [typing]
    exact ⟨rfl, disk, bytes, aimed⟩

theorem follow_startBuild (aimed : Aimed cfg st.toDiskList st.picked picks disk bytes)
    (a : Answers) (passphrase : String) :
    Follow cfg picks [] (st.startBuild cfg a passphrase) := by
  intro next stays
  cases stays
  have size : (st.picked.map Prod.snd).getD 0 = bytes := by
    rw [aimed.picked]
    rfl
  exact ⟨disk, bytes, _, aimed, rfl, rfl, congrArg SizeOverride.bytes size, rfl⟩

theorem follow_passConfirm (aimed : Aimed cfg st.toDiskList st.picked picks disk bytes)
    (a : Answers) (first buf : String) (key : KeyCode) (typing : st.stage = .passConfirm first buf) :
    Follow cfg picks [] (onKeyPassConfirm cfg a st first buf key) := by
  unfold onKeyPassConfirm
  split
  · exact Follow.home
  · split
    · exact follow_startBuild aimed a first
    · exact Follow.stay ⟨rfl, disk, bytes, aimed⟩
  · exact Follow.stay ⟨rfl, disk, bytes, aimed⟩
  · exact Follow.stay ⟨rfl, disk, bytes, aimed⟩
  · refine Follow.stay ?_
    unfold Coheres
    rw [typing]
    exact ⟨rfl, disk, bytes, aimed⟩

variable {image : String} {size : Nat}

theorem follow_armFlash (st : BuildFlowScreen)
    (aimed : Aimed cfg st.toDiskList st.picked picks disk bytes)
    (imaged : Imaged cfg st.built builds bytes image size) (fits : size ≤ bytes)
    (configDir : String) (a : Answers) (elev : Elevation) :
    Follow cfg picks builds (st.armFlash configDir a elev) := by
  unfold BuildFlowScreen.armFlash
  rw [aimed.picked, imaged.recorded]
  intro next stays
  cases stays
  exact ⟨disk, bytes, image, size, ⟨aimed.selected, rfl, aimed.only, aimed.large, aimed.host⟩,
    ⟨rfl, imaged.sized⟩, fits⟩

theorem follow_flashReview (aimed : Aimed cfg st.toDiskList st.picked picks disk bytes)
    (imaged : Imaged cfg st.built builds bytes image size) (a : Answers) (key : KeyCode)
    (reviewing : st.stage = .flashReview) : Follow cfg picks builds (onKeyFlashReview a st key) := by
  have same : Coheres cfg st picks builds := by
    unfold Coheres
    rw [reviewing]
    exact ⟨disk, bytes, image, size, aimed, imaged⟩
  unfold onKeyFlashReview
  split
  · exact Follow.home
  · by_cases fits : st.imageFits a = true
    · rw [if_pos fits]
      have small := fits_of_imageFits fits imaged.recorded aimed.picked
      exact Follow.stay ⟨disk, bytes, image, size, aimed, imaged, small⟩
    · rw [if_neg fits]
      exact Follow.stay same
  · exact Follow.stay same

section Armed

variable (aimed : Aimed cfg st.toDiskList st.picked picks disk bytes)
  (imaged : Imaged cfg st.built builds bytes image size) (fits : size ≤ bytes)
include aimed imaged fits

theorem follow_flashBackupAsk (key : KeyCode) (asking : st.stage = .flashBackupAsk) :
    Follow cfg picks builds (onKeyFlashBackupAsk st key) := by
  unfold onKeyFlashBackupAsk
  split
  · exact Follow.stay ⟨disk, bytes, image, size, aimed, imaged⟩
  · exact Follow.stay ⟨disk, bytes, image, size, aimed, imaged, fits⟩
  · exact Follow.stay ⟨disk, bytes, image, size, aimed, imaged, fits⟩
  · exact Follow.stay ⟨disk, bytes, image, size, aimed, imaged, fits⟩
  · exact Follow.stay ⟨disk, bytes, image, size, aimed, imaged, fits⟩
  · refine Follow.stay ?_
    unfold Coheres
    rw [asking]
    exact ⟨disk, bytes, image, size, aimed, imaged, fits⟩

theorem follow_submit (configDir : String) (a : Answers) (typed : String) (error : Option String) :
    Follow cfg picks builds (submitFlashConfirm configDir a st typed error) := by
  unfold submitFlashConfirm
  split
  · exact Follow.stay ⟨disk, bytes, image, size, aimed, imaged, fits⟩
  · split
    · split
      · exact follow_armFlash { st with stage := .flashConfirm "" error } aimed imaged fits
          configDir a .root
      · exact Follow.stay ⟨disk, bytes, image, size, aimed, imaged, fits⟩
      · exact Follow.stay ⟨disk, bytes, aimed⟩
    · exact Follow.stay ⟨disk, bytes, image, size, aimed, imaged, fits⟩

theorem follow_flashConfirm (configDir : String) (a : Answers) (typed : String)
    (error : Option String) (key : KeyCode) (confirming : st.stage = .flashConfirm typed error) :
    Follow cfg picks builds (onKeyFlashConfirm configDir a st typed error key) := by
  cases key with
  | esc => exact Follow.stay ⟨disk, bytes, image, size, aimed, imaged⟩
  | backspace | char c => exact Follow.stay ⟨disk, bytes, image, size, aimed, imaged, fits⟩
  | enter => exact follow_submit aimed imaged fits configDir a typed error
  | _ =>
      refine Follow.stay ?_
      unfold Coheres
      rw [confirming]
      exact ⟨disk, bytes, image, size, aimed, imaged, fits⟩

theorem follow_flashSudo (configDir : String) (a : Answers) (buf : String) (error : Option String)
    (key : KeyCode) (prompting : st.stage = .flashSudo buf error) :
    Follow cfg picks builds (onKeyFlashSudo configDir a st buf error key) := by
  unfold onKeyFlashSudo
  split
  · exact Follow.stay ⟨disk, bytes, image, size, aimed, imaged⟩
  · split
    · exact follow_armFlash { st with stage := .flashSudo "" error } aimed imaged fits
        configDir a _
    · exact Follow.stay ⟨disk, bytes, image, size, aimed, imaged, fits⟩
    · exact Follow.stay ⟨disk, bytes, aimed⟩
    · exact Follow.stay ⟨disk, bytes, aimed⟩
  · exact Follow.stay ⟨disk, bytes, image, size, aimed, imaged, fits⟩
  · exact Follow.stay ⟨disk, bytes, image, size, aimed, imaged, fits⟩
  · refine Follow.stay ?_
    unfold Coheres
    rw [prompting]
    exact ⟨disk, bytes, image, size, aimed, imaged, fits⟩

end Armed

theorem picks_elsewhere (other : st.stage ≠ .pickDevice) (a : Answers) (key : KeyCode) :
    st.picks a key = [] := if_neg fun both => other both.1

/-- One key, whatever the stage. -/
theorem follow_onKey (coheres : Coheres cfg st picks builds) (configDir : String) (a : Answers)
    (key : KeyCode) :
    Follow cfg (st.picks a key ++ picks) builds (onKey configDir cfg a st key) := by
  by_cases picking : st.stage = .pickDevice
  · unfold onKey
    rw [picking]
    exact follow_pickDevice picking coheres a key
  · rw [picks_elsewhere picking, List.nil_append]
    have stage := coheres
    unfold Coheres at stage
    unfold onKey
    cases at_ : st.stage with
    | pickDevice => contradiction
    | unavailable | done ok =>
        dsimp only
        split
        · exact Follow.home
        · exact Follow.home
        · exact Follow.stay coheres
    | passFirst buf error =>
        rw [at_] at stage
        obtain ⟨rfl, disk, bytes, aimed⟩ := stage
        exact follow_passFirst aimed buf error key at_
    | passConfirm first buf =>
        rw [at_] at stage
        obtain ⟨rfl, disk, bytes, aimed⟩ := stage
        exact follow_passConfirm aimed a first buf key at_
    | building =>
        obtain ⟨follow, scroll, scrolls⟩ := onKeyBuilding_scrolls st key
        simp only [scrolls]
        exact Follow.stay coheres
    | flashReview =>
        rw [at_] at stage
        obtain ⟨disk, bytes, image, size, aimed, imaged⟩ := stage
        exact follow_flashReview aimed imaged a key at_
    | flashBackupAsk =>
        rw [at_] at stage
        obtain ⟨disk, bytes, image, size, aimed, imaged, fits⟩ := stage
        exact follow_flashBackupAsk aimed imaged fits key at_
    | flashConfirm typed error =>
        rw [at_] at stage
        obtain ⟨disk, bytes, image, size, aimed, imaged, fits⟩ := stage
        exact follow_flashConfirm aimed imaged fits configDir a typed error key at_
    | flashSudo buf error =>
        rw [at_] at stage
        obtain ⟨disk, bytes, image, size, aimed, imaged, fits⟩ := stage
        exact follow_flashSudo aimed imaged fits configDir a buf error key at_
    | flashing => exact Follow.stay coheres

/-! ## What follows for one screen -/

theorem aimed_of_coheres (coheres : Coheres cfg st picks builds) (some_ : picks ≠ []) :
    ∃ disk bytes, Aimed cfg st.toDiskList st.picked picks disk bytes := by
  unfold Coheres at coheres
  split at coheres
  · exact absurd coheres.1 some_
  · exact absurd coheres.1 some_
  · exact coheres.2
  · exact coheres.2
  · obtain ⟨disk, bytes, _, aimed, -⟩ := coheres
    exact ⟨disk, bytes, aimed⟩
  · obtain ⟨disk, bytes, _, _, aimed, -⟩ := coheres
    exact ⟨disk, bytes, aimed⟩
  · obtain ⟨disk, bytes, _, _, aimed, -⟩ := coheres
    exact ⟨disk, bytes, aimed⟩
  · obtain ⟨disk, bytes, _, _, aimed, -⟩ := coheres
    exact ⟨disk, bytes, aimed⟩
  · obtain ⟨disk, bytes, _, _, aimed, -⟩ := coheres
    exact ⟨disk, bytes, aimed⟩
  · obtain ⟨disk, bytes, _, _, aimed, -⟩ := coheres
    exact ⟨disk, bytes, aimed⟩
  · exact coheres

/-- What the confirmation and the password modal know. -/
theorem armed_of_spawned (coheres : Coheres cfg st picks builds) {configDir : String} {a : Answers}
    {key : KeyCode} {job : FlashJob}
    (spawns : (onKey configDir cfg a st key).spawned = some (.flash job)) :
    ∃ disk bytes size, Aimed cfg st.toDiskList st.picked picks disk bytes ∧
      Imaged cfg st.built builds bytes job.image size ∧ size ≤ bytes ∧
      job.dev = "/dev/" ++ disk.name ∧ job.devSize = some bytes := by
  obtain ⟨elev, name, bytes, image, size, picked, recorded, rfl, -, how⟩ :=
    spawned_cases configDir cfg a spawns
  have armed : ∃ disk bytes image size, Aimed cfg st.toDiskList st.picked picks disk bytes ∧
      Imaged cfg st.built builds bytes image size ∧ size ≤ bytes := by
    unfold Coheres at coheres
    rcases how with ⟨typed, error, confirming, -⟩ | ⟨buf, error, prompting, -⟩
    · rw [confirming] at coheres
      exact coheres
    · rw [prompting] at coheres
      exact coheres
  obtain ⟨disk, _, _, size, aimed, imaged, fits⟩ := armed
  cases picked.symm.trans aimed.picked
  cases recorded.symm.trans imaged.recorded
  exact ⟨disk, bytes, size, aimed, imaged, fits, rfl, rfl⟩

theorem nixArgs_of_sized {run : BuildRun} {returned : Option (Except String String)}
    (sized : Sized cfg builds bytes returned run) {host : String} (set : cfg.hostAttr = some host)
    (scriptLink : String) :
    nixArgs scriptLink run.job.cfg run.job.size =
      ["build", "--impure", "--print-build-logs", "--accept-flake-config", "--out-link", scriptLink,
        "--expr",
        sizedExpr host ("nixnas.boot.usb.imageSize = lib.mkForce \"" ++ toString bytes ++ "\";")] := by
  unfold nixArgs
  rw [sized.cfg, sized.size, set]
  rfl

end Stages

/-! ## Runs -/

section Runs

variable {Configure Verify : Type}

/-- What every step of the flow keeps. -/
structure Flow.Kept (flow : Flow Configure Verify) : Prop where
  shown : flow.app.screen = .buildFlash
  coheres : ∀ st, flow.app.buildflash = some st →
    Coheres flow.app.cfg st flow.picks flow.builds ∧ st.Waits

variable {others : Others Configure Verify} {configDir : String} {flow next : Flow Configure Verify}

theorem kept_of_opens (opens : Flow.Opens others configDir flow) : flow.Kept := by
  obtain ⟨home, a, -, entry, idle, rfl⟩ := opens
  have fresh : home.openEntry others configDir a =
      { home with buildflash := some (.new home.cfg a), screen := .buildFlash } := by
    unfold App.openEntry
    rw [entry]
    cases slot : home.buildflash with
    | none => rfl
    | some st =>
        rw [slot] at idle
        have stopped : st.isRunning = false := by simpa using idle
        simp [stopped]
  rw [fresh]
  refine ⟨rfl, ?_⟩
  intro st opened
  cases opened
  exact ⟨coheres_new home.cfg a, (new_waits home.cfg a).1⟩

theorem kept_key (kept : flow.Kept) {a : Answers} {key : KeyCode} {control : Bool}
    (taken : flow.step others configDir (.key a key control) = some next) : next.Kept := by
  unfold Flow.step at taken
  dsimp only at taken
  split at taken
  · rename_i st app spawned opened reacts
    split at taken
    · rename_i shown
      cases taken
      refine ⟨shown, ?_⟩
      obtain ⟨coheres, waits⟩ := kept.coheres st opened
      unfold App.onKey at reacts
      split at reacts
      · rename_i interrupt
        cases reacts
        -- Ctrl+C is no Enter: it picks nothing.
        have nothing : st.picks a key = [] := by
          refine if_neg fun both => ?_
          rw [both.2] at interrupt
          simp at interrupt
        intro other same
        cases opened.symm.trans same
        rw [nothing]
        exact ⟨coheres, waits⟩
      · unfold App.screenKey at reacts
        simp only [kept.shown, opened] at reacts
        obtain ⟨rfl, ⟨after, stays, rfl⟩ | ⟨-, rfl⟩⟩ := takeTurn_ok reacts
        · intro other same
          cases same
          exact ⟨follow_onKey coheres configDir a key after stays,
            (orderly_onKey configDir flow.app.cfg a waits key).kept stays⟩
        · cases shown
    · cases taken
  · cases taken

theorem waits_drainBuild {st : BuildFlowScreen} (waits : st.Waits) (a : Answers)
    (events : List BuildEvent) : (st.drainBuild a events).1.Waits := by
  by_cases live : st.buildRx = true
  · exact (drainsBuild a waits live events).kept
  · unfold BuildFlowScreen.drainBuild
    rw [if_neg live]
    exact waits

theorem waits_drainFlash {st : BuildFlowScreen} (waits : st.Waits) (events : List FlashEvent) :
    (st.drainFlash events).1.Waits := by
  by_cases live : st.flashRx = true
  · exact (drainsFlash waits live events).kept
  · unfold BuildFlowScreen.drainFlash
    rw [if_neg live]
    exact waits

theorem kept_drain (kept : flow.Kept) {a : Answers} {build : List BuildEvent}
    {flash : List FlashEvent}
    (taken : flow.step others configDir (.drain a build flash) = some next) : next.Kept := by
  unfold Flow.step at taken
  obtain ⟨st, opened, rfl⟩ := Option.map_eq_some_iff.mp taken
  refine ⟨kept.shown, ?_⟩
  intro other same
  obtain ⟨coheres, waits⟩ := kept.coheres st opened
  dsimp only [App.drain] at same
  rw [opened, Option.map_some, Option.some.injEq] at same
  subst same
  have built := coheres_drainBuild coheres waits a build
  have waiting := waits_drainBuild waits a build
  exact ⟨coheres_drainFlash built waiting flash, waits_drainFlash waiting flash⟩

theorem Flow.Kept.coherent (kept : flow.Kept) (configDir : String) : flow.Coherent configDir := by
  constructor
  · intro st opened a key job spawns
    obtain ⟨coheres, -⟩ := kept.coheres st opened
    obtain ⟨disk, bytes, size, aimed, imaged, fits, dev, devSize⟩ :=
      armed_of_spawned coheres spawns
    obtain ⟨run, sized⟩ := imaged.sized
    obtain ⟨host, set⟩ := Option.isSome_iff_exists.mp aimed.host
    refine ⟨disk.name, bytes, dev, devSize, aimed.only, aimed.large, ?_, size, imaged.recorded, fits⟩
    refine ⟨run, host, sized.only, sized.returned, sized.size, ?_, nixArgs_of_sized sized set⟩
    rw [sized.cfg]
    exact set
  · intro st opened n b picked
    obtain ⟨coheres, -⟩ := kept.coheres st opened
    obtain ⟨disk, bytes, aimed⟩ := aimed_of_coheres coheres (List.ne_nil_of_mem picked)
    rw [aimed.only, List.mem_singleton, Prod.mk.injEq] at picked
    obtain ⟨rfl, rfl⟩ := picked
    refine ⟨by rw [aimed.selected]; rfl, ?_, ?_⟩
    · intro asking
      unfold BuildFlowScreen.modalLines
      rw [asking, aimed.selected]
      rfl
    · intro typed error confirming
      unfold BuildFlowScreen.modalLines
      rw [confirming, aimed.selected]
      rfl

/-- Whatever is pressed, listed and sent while the flow is open. -/
theorem flow_coherent (others : Others Configure Verify) (configDir : String)
    (flow : Flow Configure Verify) (reached : (Flow.machine others configDir).Reachable flow) :
    flow.Coherent configDir := by
  have kept : ∀ flow, (Flow.machine others configDir).Reachable flow → flow.Kept := by
    apply Machine.invariant
    · exact fun _ opens => kept_of_opens opens
    · rintro before event next - kept taken
      cases event with
      | key a key control => exact kept_key kept taken
      | drain a build flash => exact kept_drain kept taken
  exact (kept flow reached).coherent configDir

end Runs

/-! ## A flow to its end -/

/-- One stick of 8 GiB, and the privileges to write it. -/
def stickAnswers : Answers :=
  { Process.plainAnswers with
    listDisks := .ok [⟨"sdb", some 8589934592, some "usb", true, none, []⟩]
    privileges := ⟨some "0", false⟩
    blockdev := some "8589934592"
    imageLen := .ok 8589934592 }

/-- HOME with the cursor on Build & Flash. -/
def stickHome : App Unit Unit :=
  { App.new { Config.plain with hostAttr := some "nas" } with home := ⟨1, false⟩ }

/-- The pick, the passphrase twice, a build that returns its image, the review, no
backup, and the name of the stick. -/
def stickFlow : List FlowEvent :=
  [.enter, .char 's', .enter, .char 's', .enter].map (.key stickAnswers · false) ++
    [.drain stickAnswers [.done (.ok "/srv/nas.raw")] []] ++
    [.enter, .char 'n', .char 's', .char 'd', .char 'b'].map (.key stickAnswers · false)

/-- The device and the size of the flash that Enter starts. -/
def Flow.target (flow : Flow Unit Unit) : Option (String × Option Nat) :=
  match flow.app.buildflash with
  | none => none
  | some st =>
      match (onKey "/srv" flow.app.cfg stickAnswers st .enter).spawned with
      | some (.flash job) => some (job.dev, job.devSize)
      | _ => none

theorem flow_coherent_stick :
    ∃ (flow : Flow Unit Unit) (st : BuildFlowScreen) (job : FlashJob),
      flow.app.buildflash = some st ∧
        (onKey "/srv" flow.app.cfg stickAnswers st .enter).spawned = some (.flash job) ∧
        Justified flow st job "sdb" 8589934592 := by
  have run : (Machine.replay (Flow.step Process.plainOthers "/srv")
      ⟨stickHome.openEntry Process.plainOthers "/srv" stickAnswers, [], []⟩ stickFlow).bind
        Flow.target = some ("/dev/sdb", some 8589934592) := by decide
  obtain ⟨flow, replayed, target⟩ := Option.bind_eq_some_iff.mp run
  have reached : (Flow.machine Process.plainOthers "/srv").Reachable flow :=
    Machine.Reachable.steps (.initial ⟨stickHome, stickAnswers, rfl, rfl, rfl, rfl⟩)
      (Machine.steps_of_replay stickFlow _ flow replayed)
  unfold Flow.target at target
  split at target
  · cases target
  · rename_i st opened
    split at target
    · rename_i job spawned
      simp only [Option.some.injEq, Prod.mk.injEq] at target
      obtain ⟨n, b, dev, devSize, justified⟩ :=
        (flow_coherent Process.plainOthers "/srv" flow reached).flash st opened stickAnswers .enter
          job spawned
      have name : n = "sdb" := by
        have same : "/dev/" ++ n = "/dev/" ++ "sdb" := by
          rw [← dev, target.1]
          decide
        exact (String.append_right_inj _).mp same
      have size : b = 8589934592 := Option.some.inj (devSize.symm.trans target.2)
      subst name size
      exact ⟨flow, st, job, opened, spawned, justified⟩
    · cases target

end Nixnas.Ui.BuildFlash
