import Nixnas.Ui.FlashGate

/-!
# The gates of the Build & Flash screen

The second copy of the confirmation.  Its modal shows the selected disk, while
the worker writes to the disk picked before the build: nothing after the pick
moves the selection, so they are the same.
-/

set_option autoImplicit false

namespace Nixnas.Ui.BuildFlash

open Nixnas.Logic
open Nixnas.Rust
open Nixnas.Tui.Build (BuildEvent Config)
open Nixnas.Tui.Flash
open Nixnas.Tui.Sudo
open Nixnas.Ui.Build (Pane foldBuildEvents foldBuildEvents_verdict)

def BuildFlowScreen.view (st : BuildFlowScreen) : View :=
  match st.stage with
  | .flashReview => .review
  | .flashBackupAsk => .backupAsk
  | .flashConfirm _ _ => .confirm (st.selectedDisk.map Disk.name)
  | _ => .elsewhere

def BuildFlowScreen.live (st : BuildFlowScreen) : Bool := st.buildRx || st.flashRx

/-- The live channel yields the last event of its worker. -/
def BuildFlowScreen.ended (st : BuildFlowScreen) (events : List BuildEvent × List FlashEvent) :
    Bool :=
  (st.buildRx && events.1.any BuildEvent.isDone) || (st.flashRx && events.2.any FlashEvent.isDone)

def screen (configDir : String) (cfg : Config) : ScreenModel where
  State := BuildFlowScreen
  Events := List BuildEvent × List FlashEvent
  opens := BuildFlowScreen.new cfg
  onKey := onKey configDir cfg
  drain a st events := (st.drainEvents a events).1
  ended := BuildFlowScreen.ended
  view := BuildFlowScreen.view
  image := BuildFlowScreen.built

/-- The selected disk is the picked one. -/
def Target (list : DiskList) (picked : Option (String × Nat)) : Prop :=
  ∃ disk bytes, list.selectedDisk = some disk ∧ picked = some (disk.name, bytes)

/-- The target is picked and its image is built. -/
structure Built (list : DiskList) (picked built : Option (String × Nat)) : Prop where
  target : Target list picked
  recorded : built.isSome = true

/-- Every gate before the confirmation was passed in the recorded pass. -/
structure Ready (list : DiskList) (picked built : Option (String × Nat)) (backup : Bool)
    (answer : Option Bool) : Prop extends Built list picked built where
  fits : ∀ image size name bytes, built = some (image, size) → picked = some (name, bytes) →
    size ≤ bytes
  answered : answer = some backup

/-- How the screen and the operator's record of it go together. -/
def Follows (st : BuildFlowScreen) (w : Watch) : Prop :=
  w.running = st.live ∧
  match st.stage with
  | .unavailable | .pickDevice | .done _ => st.live = false
  | .passFirst _ _ | .passConfirm _ _ => st.live = false ∧ Target st.toDiskList st.picked
  | .building => st.buildRx = true ∧ st.flashRx = false ∧ Target st.toDiskList st.picked
  | .flashReview => st.live = false ∧ Built st.toDiskList st.picked st.built
  | .flashBackupAsk => st.live = false ∧ Built st.toDiskList st.picked st.built ∧
      ∀ image size name bytes, st.built = some (image, size) → st.picked = some (name, bytes) →
        size ≤ bytes
  | .flashConfirm typed _ =>
      st.live = false ∧ Ready st.toDiskList st.picked st.built st.backup w.answer ∧
        w.typed = typed
  | .flashSudo _ _ =>
      st.live = false ∧ Ready st.toDiskList st.picked st.built st.backup w.answer ∧
        Flash.Confirmed st.toDiskList w.submitted
  | .flashing => st.buildRx = false ∧ st.flashRx = true

theorem follows_new (cfg : Config) (a : Answers) :
    Follows (BuildFlowScreen.new cfg a) Watch.fresh := by
  unfold BuildFlowScreen.new
  refine ⟨rfl, ?_⟩
  cases cfg.hostAttr.isSome <;> rfl

theorem fits_of_imageFits {st : BuildFlowScreen} {a : Answers} (fits : st.imageFits a = true)
    {image name : String} {size bytes : Nat} (recorded : st.built = some (image, size))
    (picked : st.picked = some (name, bytes)) : size ≤ bytes := by
  refine Nat.le_of_not_lt fun larger => ?_
  have note : ∃ e, st.exactFitNote a = some (.error e) := by
    unfold BuildFlowScreen.exactFitNote
    rw [recorded, picked]
    simp only
    rw [if_neg (by omega), if_neg (by omega)]
    exact ⟨_, rfl⟩
  obtain ⟨e, note⟩ := note
  unfold BuildFlowScreen.imageFits at fits
  rw [note] at fits
  cases fits

/-! ## Worker events -/

/-- A build that goes on changes the pane only; one that ended hands over to the
review or to the end. -/
theorem drainBuild_cases (a : Answers) (st : BuildFlowScreen) (events : List BuildEvent) :
    ((st.buildRx && events.any BuildEvent.isDone) = false ∧ ∃ pane,
      (st.drainBuild a events).1 = st.withPane pane) ∨
    ((st.buildRx && events.any BuildEvent.isDone) = true ∧ ∃ pane,
      (∃ image size, (st.drainBuild a events).1 =
        { st.withPane pane with buildRx := false, built := some (image, size),
                                stage := .flashReview }) ∨
      ∃ e, (st.drainBuild a events).1 =
        { st.withPane pane with buildRx := false, message := some e, stage := .done false }) := by
  have decided := foldBuildEvents_verdict st.steps st.log events
  unfold BuildFlowScreen.drainBuild
  by_cases live : st.buildRx = true
  · rw [if_pos live, live, Bool.true_and, ← decided]
    unfold Pane.drain BuildFlowScreen.pane
    simp only
    generalize foldBuildEvents st.steps st.log events = folded
    obtain ⟨steps, lines, calls, verdict⟩ := folded
    rcases verdict with _ | e | image
    · exact Or.inl ⟨rfl, _, rfl⟩
    · exact Or.inr ⟨rfl, _, Or.inr ⟨e, rfl⟩⟩
    · exact Or.inr ⟨rfl, _, Or.inl ⟨image, _, rfl⟩⟩
  · have idle : (st.buildRx && events.any BuildEvent.isDone) = false := by
      rw [(Bool.not_eq_true _).mp live, Bool.false_and]
    rw [if_neg live]
    exact Or.inl ⟨idle, st.pane, rfl⟩

theorem drainFlash_cases (st : BuildFlowScreen) (events : List FlashEvent) :
    ((st.flashRx && events.any FlashEvent.isDone) = false ∧ ∃ title progress,
      (st.drainFlash events).1 = { st with gaugeTitle := title, progress := progress }) ∨
    ((st.flashRx && events.any FlashEvent.isDone) = true ∧ ∃ title progress msg ok,
      (st.drainFlash events).1 =
        { st with gaugeTitle := title, progress := progress, flashRx := false,
                  message := some msg, stage := .done ok }) := by
  have decided := Flash.foldEvents_verdict st.gaugeTitle st.progress events
  unfold BuildFlowScreen.drainFlash
  by_cases live : st.flashRx = true
  · rw [if_pos live, live, Bool.true_and, ← decided]
    generalize Flash.foldEvents st.gaugeTitle st.progress events = folded
    obtain ⟨title, progress, calls, verdict⟩ := folded
    rcases verdict with _ | e | msg
    · exact Or.inl ⟨rfl, title, progress, rfl⟩
    · exact Or.inr ⟨rfl, title, progress, e, false, rfl⟩
    · exact Or.inr ⟨rfl, title, progress, msg, true, rfl⟩
  · have idle : (st.flashRx && events.any FlashEvent.isDone) = false := by
      rw [(Bool.not_eq_true _).mp live, Bool.false_and]
    rw [if_neg live]
    exact Or.inl ⟨idle, st.gaugeTitle, st.progress, rfl⟩

section Follows

variable {st : BuildFlowScreen} {w : Watch} (configDir : String) (cfg : Config) (a : Answers)

theorem live_of_not {buildRx flashRx : Bool} (idle : (buildRx || flashRx) = false) :
    buildRx = false ∧ flashRx = false := by
  cases buildRx <;> cases flashRx <;> simp_all

theorem stage_of_build (follows : Follows st w) (live : st.buildRx = true) :
    st.stage = .building := by
  obtain ⟨-, stage⟩ := follows
  unfold BuildFlowScreen.live at stage
  rw [live] at stage
  cases at_ : st.stage <;> rw [at_] at stage <;> simp at stage ⊢

theorem stage_of_flash (follows : Follows st w) (live : st.flashRx = true) :
    st.stage = .flashing := by
  obtain ⟨-, stage⟩ := follows
  unfold BuildFlowScreen.live at stage
  rw [live] at stage
  cases at_ : st.stage <;> rw [at_] at stage <;> simp at stage ⊢

theorem drainBuild_flashRx (events : List BuildEvent) :
    (st.drainBuild a events).1.flashRx = st.flashRx := by
  rcases drainBuild_cases a st events with ⟨_, pane, same⟩ | ⟨_, pane, ⟨_, _, same⟩ | ⟨_, same⟩⟩ <;>
  · rw [same]
    rfl

theorem follows_drainBuild (follows : Follows st w) (events : List BuildEvent) :
    Follows (st.drainBuild a events).1
      { w with running := w.running && !(st.buildRx && events.any BuildEvent.isDone) } := by
  rcases drainBuild_cases a st events with ⟨undecided, pane, same⟩ | ⟨decided, pane, ended⟩
  · rw [undecided, same, Bool.not_false, Bool.and_true]
    exact follows
  · have live : st.buildRx = true := (Bool.and_eq_true_iff.mp decided).1
    have building := stage_of_build follows live
    obtain ⟨-, stage⟩ := follows
    rw [building] at stage
    obtain ⟨-, noFlash, target⟩ := stage
    rw [decided, Bool.not_true, Bool.and_false]
    rcases ended with ⟨image, size, same⟩ | ⟨e, same⟩ <;> rw [same]
    · exact ⟨noFlash.symm, noFlash, target, rfl⟩
    · exact ⟨noFlash.symm, noFlash⟩

theorem follows_drainFlash (follows : Follows st w) (events : List FlashEvent) :
    Follows (st.drainFlash events).1
      { w with running := w.running && !(st.flashRx && events.any FlashEvent.isDone) } := by
  rcases drainFlash_cases st events with ⟨undecided, title, progress, same⟩ |
    ⟨decided, title, progress, msg, ok, same⟩
  · rw [undecided, same, Bool.not_false, Bool.and_true]
    exact follows
  · have live : st.flashRx = true := (Bool.and_eq_true_iff.mp decided).1
    have flashing := stage_of_flash follows live
    obtain ⟨-, stage⟩ := follows
    rw [flashing] at stage
    have idle : (st.buildRx || false) = false := by rw [stage.1]; rfl
    rw [decided, same, Bool.not_true, Bool.and_false]
    exact ⟨idle.symm, idle⟩

theorem follows_drain (follows : Follows st w) (events : List BuildEvent × List FlashEvent) :
    Follows (st.drainEvents a events).1
      { w with running := w.running && !st.ended events } := by
  have both := follows_drainFlash (follows_drainBuild a follows events.1) events.2
  rw [drainBuild_flashRx, Bool.and_assoc, ← Bool.not_or] at both
  exact both

/-! ## Keys -/

/-- What the turn shows next follows `w`, which is idle before it. -/
def Keeps (w : Watch) (turn : Turn BuildFlowScreen) : Prop :=
  ∀ st, turn.next = .stay st → Follows st { w with running := turn.spawned.isSome }

theorem Keeps.stay (follows : Follows st { w with running := false }) : Keeps w (.stay st) := by
  intro next stays
  cases stays
  exact follows

theorem Keeps.home : Keeps w .home := fun _ stays => by cases stays

theorem keeps_armFlash (built : Built st.toDiskList st.picked st.built) (idle : st.live = false)
    (elev : Elevation) : Keeps w (st.armFlash configDir a elev) := by
  obtain ⟨disk, bytes, -, picked⟩ := built.target
  obtain ⟨⟨image, size⟩, recorded⟩ := Option.isSome_iff_exists.mp built.recorded
  obtain ⟨noBuild, -⟩ := live_of_not idle
  unfold BuildFlowScreen.armFlash
  rw [picked, recorded]
  intro next stays
  cases stays
  refine ⟨?_, noBuild, rfl⟩
  simp only [BuildFlowScreen.live, Bool.or_true, Option.isSome_some]

theorem keeps_pickDevice (idle : st.live = false) (key : KeyCode) (picking : st.stage = .pickDevice) :
    Keeps w (onKeyPickDevice a st key) := by
  have same : ∀ (list : DiskList) (e : Option String),
      Follows { st with toDiskList := list, pickError := e } { w with running := false } := by
    intro list e
    refine ⟨idle.symm, ?_⟩
    simp only [picking]
    exact idle
  unfold onKeyPickDevice
  split
  · exact Keeps.home
  · exact Keeps.stay (same _ _)
  · exact Keeps.stay (same _ _)
  · exact Keeps.stay (same _ _)
  · exact Keeps.stay (same _ _)
  · exact Keeps.stay (same _ _)
  · split
    · exact Keeps.stay (same _ _)
    · rename_i disk selected
      split
      · exact Keeps.stay (same _ _)
      · rename_i bytes _
        split
        · exact Keeps.stay ⟨idle.symm, idle, disk, bytes, selected, rfl⟩
        · exact Keeps.stay (same _ _)
  · exact Keeps.stay (same _ _)

theorem keeps_passFirst (idle : st.live = false) (target : Target st.toDiskList st.picked)
    (buf : String) (error : Option String) (key : KeyCode) (typing : st.stage = .passFirst buf error) :
    Keeps w (onKeyPassFirst st buf error key) := by
  unfold onKeyPassFirst
  split
  · exact Keeps.home
  · refine Keeps.stay ⟨idle.symm, ?_⟩
    split <;> rename_i next <;> split at next <;> cases next <;> exact ⟨idle, target⟩
  · exact Keeps.stay ⟨idle.symm, idle, target⟩
  · exact Keeps.stay ⟨idle.symm, idle, target⟩
  · refine Keeps.stay ⟨idle.symm, ?_⟩
    simp only [typing]
    exact ⟨idle, target⟩

theorem keeps_passConfirm (idle : st.live = false) (target : Target st.toDiskList st.picked)
    (first buf : String) (key : KeyCode) (typing : st.stage = .passConfirm first buf) :
    Keeps w (onKeyPassConfirm cfg a st first buf key) := by
  unfold onKeyPassConfirm
  split
  · exact Keeps.home
  · split
    · intro next stays
      cases stays
      exact ⟨rfl, rfl, (live_of_not idle).2, target⟩
    · exact Keeps.stay ⟨idle.symm, idle, target⟩
  · exact Keeps.stay ⟨idle.symm, idle, target⟩
  · exact Keeps.stay ⟨idle.symm, idle, target⟩
  · refine Keeps.stay ⟨idle.symm, ?_⟩
    simp only [typing]
    exact ⟨idle, target⟩

theorem keeps_flashReview (idle : st.live = false)
    (built : Built st.toDiskList st.picked st.built) (key : KeyCode)
    (reviewing : st.stage = .flashReview) : Keeps w (onKeyFlashReview a st key) := by
  have same : Follows st { w with running := false } := by
    refine ⟨idle.symm, ?_⟩
    simp only [reviewing]
    exact ⟨idle, built⟩
  unfold onKeyFlashReview
  split
  · exact Keeps.home
  · refine Keeps.stay ?_
    split
    · rename_i fits
      exact ⟨idle.symm, idle, built, fun _ _ _ _ => fits_of_imageFits fits⟩
    · exact same
  · exact Keeps.stay same

theorem keeps_flashBackupAsk (idle : st.live = false)
    (built : Built st.toDiskList st.picked st.built)
    (fits : ∀ image size name bytes, st.built = some (image, size) →
      st.picked = some (name, bytes) → size ≤ bytes)
    (key : KeyCode) (asking : st.stage = .flashBackupAsk) :
    Keeps (w.key .backupAsk key) (onKeyFlashBackupAsk st key) := by
  unfold onKeyFlashBackupAsk
  split
  · exact Keeps.stay ⟨idle.symm, idle, built⟩
  · exact Keeps.stay ⟨idle.symm, idle, ⟨built, fits, rfl⟩, rfl⟩
  · exact Keeps.stay ⟨idle.symm, idle, ⟨built, fits, rfl⟩, rfl⟩
  · exact Keeps.stay ⟨idle.symm, idle, ⟨built, fits, rfl⟩, rfl⟩
  · exact Keeps.stay ⟨idle.symm, idle, ⟨built, fits, rfl⟩, rfl⟩
  · refine Keeps.stay ⟨idle.symm, ?_⟩
    simp only [asking]
    exact ⟨idle, built, fits⟩

/-- Enter in the confirmation: the modal names the selected disk, the gate
compares with the picked one. -/
theorem keeps_submit (idle : st.live = false)
    (ready : Ready st.toDiskList st.picked st.built st.backup w.answer) (error : Option String) :
    Keeps (w.key (.confirm (st.selectedDisk.map Disk.name)) .enter)
      (submitFlashConfirm configDir a st w.typed error) := by
  obtain ⟨disk, bytes, selected, picked⟩ := ready.target
  unfold submitFlashConfirm
  split
  · rename_i unpicked
    cases picked.symm.trans unpicked
  · rename_i name _ named
    cases picked.symm.trans named
    split
    · rename_i exactly
      split
      · refine keeps_armFlash configDir a ?_ ?_ .root
        · exact ready.toBuilt
        · exact idle
      · refine Keeps.stay ⟨idle.symm, idle, ready, disk, w.typed, selected, ?_, exactly⟩
        simp only [Watch.key_enter, selected, Option.map_some]
      · exact Keeps.stay ⟨idle.symm, idle⟩
    · exact Keeps.stay ⟨idle.symm, idle, ready, rfl⟩

theorem keeps_flashConfirm (idle : st.live = false)
    (ready : Ready st.toDiskList st.picked st.built st.backup w.answer) (error : Option String)
    (key : KeyCode) (confirming : st.stage = .flashConfirm w.typed error) :
    Keeps (w.key (.confirm (st.selectedDisk.map Disk.name)) key)
      (onKeyFlashConfirm configDir a st w.typed error key) := by
  cases key with
  | esc => exact Keeps.stay ⟨idle.symm, idle, ready.toBuilt⟩
  | backspace | char c => exact Keeps.stay ⟨idle.symm, idle, ready, rfl⟩
  | enter => exact keeps_submit configDir a idle ready error
  | _ =>
      apply Keeps.stay
      refine ⟨idle.symm, ?_⟩
      simp only [confirming]
      exact ⟨idle, ready, rfl⟩

theorem keeps_flashSudo (idle : st.live = false)
    (ready : Ready st.toDiskList st.picked st.built st.backup w.answer)
    (confirmed : Flash.Confirmed st.toDiskList w.submitted) (buf : String) (error : Option String)
    (key : KeyCode) (prompting : st.stage = .flashSudo buf error) :
    Keeps (w.key .elsewhere key) (onKeyFlashSudo configDir a st buf error key) := by
  unfold onKeyFlashSudo
  split
  · exact Keeps.stay ⟨idle.symm, idle, ready.toBuilt⟩
  · split
    · refine keeps_armFlash configDir a ?_ ?_ _
      · exact ready.toBuilt
      · exact idle
    · exact Keeps.stay ⟨idle.symm, idle, ready, confirmed⟩
    · exact Keeps.stay ⟨idle.symm, idle⟩
    · exact Keeps.stay ⟨idle.symm, idle⟩
  · exact Keeps.stay ⟨idle.symm, idle, ready, confirmed⟩
  · exact Keeps.stay ⟨idle.symm, idle, ready, confirmed⟩
  · refine Keeps.stay ⟨idle.symm, ?_⟩
    simp only [prompting]
    exact ⟨idle, ready, confirmed⟩

theorem keeps_onKey (follows : Follows st w) (idle : st.live = false) (key : KeyCode) :
    Keeps (w.key st.view key) (onKey configDir cfg a st key) := by
  obtain ⟨-, stage⟩ := follows
  unfold onKey BuildFlowScreen.view
  cases at_ : st.stage with
  | unavailable | done ok =>
      simp only
      split
      · exact Keeps.home
      · exact Keeps.home
      · refine Keeps.stay ⟨idle.symm, ?_⟩
        simp only [at_]
        exact idle
  | pickDevice => exact keeps_pickDevice a idle key at_
  | passFirst buf error =>
      rw [at_] at stage
      exact keeps_passFirst stage.1 stage.2 buf error key at_
  | passConfirm first buf =>
      rw [at_] at stage
      exact keeps_passConfirm cfg a stage.1 stage.2 first buf key at_
  | building =>
      rw [at_] at stage
      exact absurd (stage.1.symm.trans (live_of_not idle).1) (by decide)
  | flashReview =>
      rw [at_] at stage
      exact keeps_flashReview a stage.1 stage.2 key at_
  | flashBackupAsk =>
      rw [at_] at stage
      exact keeps_flashBackupAsk stage.1 stage.2.1 stage.2.2 key at_
  | flashConfirm typed error =>
      rw [at_] at stage
      obtain ⟨-, ready, rfl⟩ := stage
      exact keeps_flashConfirm configDir a idle ready error key at_
  | flashSudo buf error =>
      rw [at_] at stage
      exact keeps_flashSudo configDir a stage.1 stage.2.1 stage.2.2 buf error key at_
  | flashing =>
      rw [at_] at stage
      exact absurd (stage.2.symm.trans (live_of_not idle).2) (by decide)

theorem onKeyBuilding_scrolls (st : BuildFlowScreen) (key : KeyCode) : ∃ follow scroll,
    onKeyBuilding st key = .stay { st with follow := follow, scroll := scroll } := by
  unfold onKeyBuilding
  split <;> exact ⟨_, _, rfl⟩

/-- While a worker runs, a key scrolls the log at most. -/
theorem onKey_live (follows : Follows st w) (live : st.live = true) (key : KeyCode) :
    ∃ follow scroll, onKey configDir cfg a st key =
      .stay { st with follow := follow, scroll := scroll } := by
  rcases Bool.or_eq_true_iff.mp live with build | flash
  · have turn : onKey configDir cfg a st key = onKeyBuilding st key := by
      unfold onKey
      rw [stage_of_build follows build]
    rw [turn]
    exact onKeyBuilding_scrolls st key
  · have turn : onKey configDir cfg a st key = .stay st := by
      unfold onKey
      rw [stage_of_flash follows flash]
    exact ⟨st.follow, st.scroll, turn⟩

theorem follows_scrolled (follows : Follows st w) (live : st.live = true) {later : Watch}
    (running : later.running = true) (follow : Bool) (scroll : Nat) :
    Follows { st with follow := follow, scroll := scroll } later := by
  have stage := follows.2
  refine ⟨running.trans live.symm, ?_⟩
  rcases Bool.or_eq_true_iff.mp live with build | flash
  · have building := stage_of_build follows build
    rw [building] at stage
    simp only [building]
    exact stage
  · have flashing := stage_of_flash follows flash
    rw [flashing] at stage
    simp only [flashing]
    exact stage

theorem armFlash_spawned {elev : Elevation} {worker : Worker}
    (spawns : (st.armFlash configDir a elev).spawned = some worker) :
    ∃ name bytes image size, st.picked = some (name, bytes) ∧ st.built = some (image, size) ∧
      worker = .flash ⟨image, "/dev/" ++ name, some bytes,
        if st.backup then some (backupPath configDir) else none, false, none, elev⟩ := by
  unfold BuildFlowScreen.armFlash at spawns
  split at spawns
  · rename_i name bytes image size picked recorded
    cases spawns
    exact ⟨name, bytes, image, size, picked, recorded, rfl⟩
  · cases spawns

theorem onKeyFlashConfirm_spawned {typed : String} {error : Option String} {key : KeyCode}
    {worker : Worker}
    (spawns : (onKeyFlashConfirm configDir a st typed error key).spawned = some worker) :
    key = .enter ∧ (submitFlashConfirm configDir a st typed error).spawned = some worker := by
  cases key with
  | enter => exact ⟨rfl, spawns⟩
  | _ => cases spawns

/-- Only Enter spawns a flash: in the confirmation as root, or in the password
modal after the password was accepted. -/
theorem spawned_cases {key : KeyCode} {job : FlashJob}
    (spawns : (onKey configDir cfg a st key).spawned = some (.flash job)) :
    ∃ elev name bytes image size, st.picked = some (name, bytes) ∧ st.built = some (image, size) ∧
      job = ⟨image, "/dev/" ++ name, some bytes,
        if st.backup then some (backupPath configDir) else none, false, none, elev⟩ ∧
      key = .enter ∧
      ((∃ typed error, st.stage = .flashConfirm typed error ∧ trim typed = name ∧
          elev = .root ∧ preflight a.privileges = .root) ∨
        ∃ buf error, st.stage = .flashSudo buf error ∧ authenticate buf a.sudo = .ok elev) := by
  unfold onKey at spawns
  split at spawns
  · split at spawns <;> cases spawns
  · split at spawns <;> cases spawns
  · unfold onKeyPickDevice at spawns
    split at spawns <;> try cases spawns
    split at spawns <;> try cases spawns
    split at spawns <;> try cases spawns
    split at spawns <;> cases spawns
  · unfold onKeyPassFirst at spawns
    split at spawns <;> cases spawns
  · unfold onKeyPassConfirm at spawns
    split at spawns <;> try cases spawns
    split at spawns <;> cases spawns
  · unfold onKeyBuilding at spawns
    split at spawns <;> cases spawns
  · unfold onKeyFlashReview at spawns
    split at spawns <;> cases spawns
  · unfold onKeyFlashBackupAsk at spawns
    split at spawns <;> cases spawns
  · rename_i typed error confirming
    obtain ⟨rfl, submits⟩ := onKeyFlashConfirm_spawned configDir a spawns
    unfold submitFlashConfirm at submits
    split at submits
    · cases submits
    · rename_i name bytes picked
      split at submits
      · rename_i exactly
        split at submits <;> try cases submits
        rename_i isRoot
        obtain ⟨_, _, image, size, same, recorded, made⟩ := armFlash_spawned configDir a submits
        cases picked.symm.trans same
        cases made
        exact ⟨.root, name, bytes, image, size, picked, recorded, rfl, rfl,
          Or.inl ⟨typed, error, confirming, exactly, rfl, isRoot⟩⟩
      · cases submits
  · rename_i buf error prompting
    unfold onKeyFlashSudo at spawns
    split at spawns <;> try cases spawns
    split at spawns <;> try cases spawns
    rename_i elev accepted
    obtain ⟨name, bytes, image, size, picked, recorded, made⟩ := armFlash_spawned configDir a spawns
    cases made
    exact ⟨elev, name, bytes, image, size, picked, recorded, rfl, rfl,
      Or.inr ⟨buf, error, prompting, accepted⟩⟩
  · cases spawns

theorem authorised_of_follows (follows : Follows st w) {key : KeyCode} {job : FlashJob}
    (spawns : (onKey configDir cfg a st key).spawned = some (.flash job)) :
    Authorised a (w.key st.view key) st.built job := by
  obtain ⟨-, stage⟩ := follows
  obtain ⟨elev, name, bytes, image, size, picked, recorded, rfl, rfl, how⟩ :=
    spawned_cases configDir cfg a spawns
  have fits : ∀ answer, Ready st.toDiskList st.picked st.built st.backup answer →
      ∃ size, st.built = some (image, size) ∧
        ∀ known, some bytes = some known → size ≤ known := by
    intro answer ready
    refine ⟨size, recorded, fun known same => ?_⟩
    cases same
    exact ready.fits image size name bytes recorded picked
  have answered : ∀ answer, Ready st.toDiskList st.picked st.built st.backup answer →
      answer = some (if st.backup then some (backupPath configDir) else none).isSome := by
    intro answer ready
    rw [ready.answered]
    cases st.backup <;> rfl
  rcases how with ⟨typed, error, confirming, exactly, rfl, asRoot⟩ | ⟨buf, error, prompting, accepted⟩
  · rw [confirming] at stage
    obtain ⟨-, ready, rfl⟩ := stage
    obtain ⟨disk, _, selected, named⟩ := ready.target
    cases picked.symm.trans named
    unfold BuildFlowScreen.view
    rw [confirming]
    refine ⟨⟨disk.name, w.typed, ?_, exactly, rfl⟩, fits _ ready, answered _ ready,
      Or.inl ⟨rfl, asRoot⟩⟩
    simp only [Watch.key_enter, selected, Option.map_some]
  · rw [prompting] at stage
    obtain ⟨-, ready, disk, text, selected, submitted, exactly⟩ := stage
    obtain ⟨other, _, same, named⟩ := ready.target
    cases selected.symm.trans same
    cases picked.symm.trans named
    unfold BuildFlowScreen.view
    rw [prompting]
    exact ⟨⟨disk.name, text, submitted, exactly, rfl⟩, fits _ ready, answered _ ready,
      Or.inr ⟨buf, accepted, authenticate_ok accepted⟩⟩

end Follows

theorem follows_step {configDir : String} {cfg : Config} {s next : BuildFlowScreen × Watch}
    {label : Answers × Input (List BuildEvent × List FlashEvent)} (follows : Follows s.1 s.2)
    (taken : (screen configDir cfg).machine.step s label next) : Follows next.1 next.2 := by
  obtain ⟨st, w⟩ := s
  obtain ⟨a, input⟩ := label
  cases input with
  | key key =>
      obtain ⟨shown, stays, rfl⟩ := taken
      change (onKey configDir cfg a st key).next = .stay shown at stays
      change Follows shown { w.key st.view key with
        running := w.running || (onKey configDir cfg a st key).spawned.isSome }
      by_cases live : st.live = true
      · have running : w.running = true := follows.1.trans live
        obtain ⟨follow, scroll, same⟩ := onKey_live configDir cfg a follows live key
        rw [same] at stays ⊢
        cases stays
        exact follows_scrolled follows live (by rw [running]; rfl) follow scroll
      · have idle : st.live = false := (Bool.not_eq_true _).mp live
        have stopped : w.running = false := follows.1.trans idle
        rw [stopped, Bool.false_or]
        exact keeps_onKey configDir cfg a follows idle key shown stays
  | drain events =>
      cases taken
      exact follows_drain a follows events

theorem follows_reachable (configDir : String) (cfg : Config) :
    ∀ s, (screen configDir cfg).machine.Reachable s → Follows s.1 s.2 := by
  apply Machine.invariant
  · rintro _ ⟨a, rfl⟩
    exact follows_new cfg a
  · exact fun _ _ _ _ follows taken => follows_step follows taken

theorem gated (configDir : String) (cfg : Config) : Gated (screen configDir cfg) where
  authorised st w reached a key job spawns :=
    authorised_of_follows configDir cfg a (follows_reachable configDir cfg _ reached) spawns
  exclusive st w reached running a key := by
    have follows := follows_reachable configDir cfg _ reached
    have live : st.live = true := follows.1.symm.trans running
    obtain ⟨follow, scroll, same⟩ := onKey_live configDir cfg a follows live key
    have stays : (screen configDir cfg).onKey a st key =
      .stay { st with follow := follow, scroll := scroll } := same
    rw [stays]
    exact ⟨rfl, _, rfl⟩

/-- On both screens every flash is the one its pass confirmed, and a running
worker keeps every other away. -/
theorem flashScreens_gated (configDir : String) (cfg : Config) :
    Gated (Flash.screen configDir) ∧ Gated (BuildFlash.screen configDir cfg) :=
  ⟨Flash.gated configDir, gated configDir cfg⟩

end Nixnas.Ui.BuildFlash
