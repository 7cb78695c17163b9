import Nixnas.Ui.Confirmation

/-!
# The gates of the Flash screen

The Flash screen follows the operator's record through every phase, so that the
worker it spawns is the one the operator confirmed.
-/

set_option autoImplicit false

namespace Nixnas.Ui.Flash

open Nixnas.Logic
open Nixnas.Rust
open Nixnas.Tui.Flash
open Nixnas.Tui.Sudo

def FlashScreen.view (st : FlashScreen) : View :=
  match st.phase with
  | .summary => .review
  | .backupAsk => .backupAsk
  | .confirm _ _ => .confirm (st.selectedDisk.map Disk.name)
  | _ => .elsewhere

def screen (configDir : String) : ScreenModel where
  State := FlashScreen
  Events := List FlashEvent
  opens := FlashScreen.new configDir
  onKey := onKey configDir
  drain _ st events := (st.drainEvents events).1
  ended st events := st.rx && events.any FlashEvent.isDone
  view := FlashScreen.view
  image := FlashScreen.image

/-- A disk is selected and an image is recorded. -/
structure Chosen (list : DiskList) (image : Option (String × Nat)) : Prop where
  selected : list.selectedDisk.isSome = true
  recorded : image.isSome = true

/-- Every gate before the confirmation was passed in the recorded pass. -/
structure Ready (list : DiskList) (image : Option (String × Nat)) (backup : Bool)
    (answer : Option Bool) : Prop extends Chosen list image where
  fits : ∀ path size disk bytes, image = some (path, size) → list.selectedDisk = some disk →
    disk.size = some bytes → size ≤ bytes
  answered : answer = some backup

/-- The selected disk's name was submitted. -/
def Confirmed (list : DiskList) (submitted : Option (String × String)) : Prop :=
  ∃ disk text, list.selectedDisk = some disk ∧ submitted = some (disk.name, text) ∧
    trim text = disk.name

/-- How the screen and the operator's record of it go together. -/
def Follows (st : FlashScreen) (w : Watch) : Prop :=
  w.running = st.rx ∧
  match st.phase with
  | .devices => st.rx = false ∧ st.image.isSome = true
  | .summary => st.rx = false ∧ Chosen st.toDiskList st.image
  | .backupAsk => st.rx = false ∧ Chosen st.toDiskList st.image ∧ st.imageFits = true
  | .storePass _ => st.rx = false ∧ Ready st.toDiskList st.image st.backup w.answer
  | .confirm typed _ =>
      st.rx = false ∧ Ready st.toDiskList st.image st.backup w.answer ∧ w.typed = typed
  | .sudoPass _ _ =>
      st.rx = false ∧ Ready st.toDiskList st.image st.backup w.answer ∧
        Confirmed st.toDiskList w.submitted
  | .running => st.rx = true
  | .done _ => st.rx = false

theorem fits_of_imageFits {st : FlashScreen} (fits : st.imageFits = true) {path : String}
    {size bytes : Nat} {disk : Disk} (recorded : st.image = some (path, size))
    (selected : st.selectedDisk = some disk) (known : disk.size = some bytes) : size ≤ bytes := by
  simp only [FlashScreen.imageFits, recorded, selected, Option.bind_some, known] at fits
  exact of_decide_eq_true fits

theorem follows_new (configDir : String) (a : Answers) :
    Follows (FlashScreen.new configDir a) Watch.fresh := by
  unfold FlashScreen.new
  simp only
  split
  · exact ⟨rfl, rfl, rfl⟩
  · exact ⟨rfl, rfl⟩

theorem foldEvents_verdict (title : String) (progress : Nat × Nat) (events : List FlashEvent) :
    (foldEvents title progress events).2.2.2.isSome = events.any FlashEvent.isDone := by
  induction events generalizing title progress with
  | nil => rfl
  | cons event rest ih =>
      cases event with
      | phase next => simpa [foldEvents, FlashEvent.isDone] using ih next (0, 0)
      | progress done total => simpa [foldEvents, FlashEvent.isDone] using ih title (done, total)
      | done result =>
          simp only [foldEvents, FlashEvent.isDone, List.any_cons, Bool.true_or]
          cases (foldEvents title progress rest).2.2.2 <;> rfl

/-- Without a last event only the gauge moves; with one the screen is done. -/
theorem drainEvents_cases (st : FlashScreen) (events : List FlashEvent) :
    ((st.rx && events.any FlashEvent.isDone) = false ∧ ∃ title progress,
      (st.drainEvents events).1 = { st with gaugeTitle := title, progress := progress }) ∨
    ((st.rx && events.any FlashEvent.isDone) = true ∧ (st.drainEvents events).1.rx = false ∧
      ∃ ok, (st.drainEvents events).1.phase = .done ok) := by
  have decided := foldEvents_verdict st.gaugeTitle st.progress events
  unfold FlashScreen.drainEvents
  by_cases live : st.rx = true
  · rw [if_pos live, live, Bool.true_and, ← decided]
    generalize foldEvents st.gaugeTitle st.progress events = folded
    obtain ⟨title, progress, calls, verdict⟩ := folded
    rcases verdict with _ | e | msg
    · exact Or.inl ⟨rfl, title, progress, rfl⟩
    · exact Or.inr ⟨rfl, rfl, false, rfl⟩
    · exact Or.inr ⟨rfl, rfl, true, rfl⟩
  · have idle : (st.rx && events.any FlashEvent.isDone) = false := by
      rw [(Bool.not_eq_true _).mp live, Bool.false_and]
    rw [if_neg live]
    exact Or.inl ⟨idle, st.gaugeTitle, st.progress, rfl⟩

theorem follows_drain {st : FlashScreen} {w : Watch} (follows : Follows st w)
    (events : List FlashEvent) :
    Follows (st.drainEvents events).1
      { w with running := w.running && !(st.rx && events.any FlashEvent.isDone) } := by
  rcases drainEvents_cases st events with ⟨undecided, title, progress, same⟩ | ⟨decided, idle, ok, ended⟩
  · rw [undecided, same, Bool.not_false, Bool.and_true]
    exact follows
  · rw [decided, Bool.not_true, Bool.and_false]
    refine ⟨idle.symm, ?_⟩
    simp only [ended]
    exact idle

/-- What a successful `arm` does. -/
theorem arm_of_chosen {st : FlashScreen} (chosen : Chosen st.toDiskList st.image)
    (configDir : String) (a : Answers) (elev : Elevation) :
    ∃ disk image size, st.selectedDisk = some disk ∧ st.image = some (image, size) ∧
      st.arm configDir a elev =
        { next := .stay
            { st with storePass := none, sessionLog := a.beginLog, rx := true, phase := .running }
          calls := [.begin "flash"]
          spawned := some (.flash
            { image := image, dev := disk.devPath, devSize := disk.size
              backupTo := if st.backup then some (backupPath configDir) else none
              grow := st.growsToFill, storePass := st.storePass, elev := elev }) } := by
  obtain ⟨disk, selected⟩ := Option.isSome_iff_exists.mp chosen.selected
  obtain ⟨⟨image, size⟩, recorded⟩ := Option.isSome_iff_exists.mp chosen.recorded
  refine ⟨disk, image, size, selected, recorded, ?_⟩
  simp only [FlashScreen.arm, selected, recorded]

/-- A turn that keeps the record: what it shows next follows `w`, which is idle
before it. -/
def Keeps (w : Watch) (turn : Turn FlashScreen) : Prop :=
  ∀ st, turn.next = .stay st → Follows st { w with running := turn.spawned.isSome }

theorem Keeps.stay {w : Watch} {st : FlashScreen}
    (follows : Follows st { w with running := false }) : Keeps w (.stay st) := by
  intro next stays
  cases stays
  exact follows

theorem Keeps.home {w : Watch} : Keeps w (.home) := fun _ stays => by cases stays

theorem keeps_arm {st : FlashScreen} (chosen : Chosen st.toDiskList st.image) (configDir : String)
    (a : Answers) (elev : Elevation) (w : Watch) : Keeps w (st.arm configDir a elev) := by
  obtain ⟨disk, image, size, -, -, armed⟩ := arm_of_chosen chosen configDir a elev
  rw [armed]
  intro next stays
  cases stays
  exact ⟨rfl, rfl⟩

section Keys

variable {st : FlashScreen} {w : Watch} (configDir : String) (a : Answers)

theorem keeps_devices (idle : st.rx = false) (image : st.image.isSome = true) (key : KeyCode)
    (atDevices : st.phase = .devices) : Keeps w (onKeyDevices a st key) := by
  have same : ∀ list : DiskList, Follows { st with toDiskList := list } { w with running := false } := by
    intro list
    refine ⟨idle.symm, ?_⟩
    simp only [atDevices]
    exact ⟨idle, image⟩
  unfold onKeyDevices
  split
  · exact Keeps.home
  · exact Keeps.stay (same _)
  · exact Keeps.stay (same _)
  · exact Keeps.stay (same _)
  · exact Keeps.stay (same _)
  · exact Keeps.stay (same _)
  · refine Keeps.stay ?_
    split
    · rename_i selected
      exact ⟨idle.symm, idle, selected, image⟩
    · exact same st.toDiskList
  · exact Keeps.stay (same st.toDiskList)

theorem keeps_summary (idle : st.rx = false) (chosen : Chosen st.toDiskList st.image)
    (key : KeyCode) (atSummary : st.phase = .summary) : Keeps w (onKeySummary st key) := by
  have same : Follows st { w with running := false } := by
    refine ⟨idle.symm, ?_⟩
    simp only [atSummary]
    exact ⟨idle, chosen⟩
  unfold onKeySummary
  split
  · exact Keeps.stay ⟨idle.symm, idle, chosen.recorded⟩
  · refine Keeps.stay ?_
    split
    · rename_i fits
      exact ⟨idle.symm, idle, chosen, fits⟩
    · exact same
  · exact Keeps.stay same

theorem keeps_backupAsk (idle : st.rx = false) (chosen : Chosen st.toDiskList st.image)
    (fits : st.imageFits = true) (key : KeyCode) (asking : st.phase = .backupAsk) :
    Keeps (w.key .backupAsk key) (onKeyBackupAsk st key) := by
  have answered : ∀ (backup : Bool) (w : Watch), w.answer = some backup → w.typed = "" →
      w.running = false → Follows (st.answerBackup backup) w := by
    intro backup w answer empty stopped
    have ready : Ready st.toDiskList st.image backup w.answer :=
      ⟨chosen, fun _ _ _ _ => fits_of_imageFits fits, answer⟩
    refine ⟨stopped.trans idle.symm, ?_⟩
    unfold FlashScreen.answerBackup
    split <;> rename_i next <;> split at next <;> cases next
    · exact ⟨idle, ready⟩
    · exact ⟨idle, ready, empty⟩
  unfold onKeyBackupAsk
  split
  · exact Keeps.stay ⟨idle.symm, idle, chosen⟩
  · exact Keeps.stay (answered true _ rfl rfl rfl)
  · exact Keeps.stay (answered true _ rfl rfl rfl)
  · exact Keeps.stay (answered false _ rfl rfl rfl)
  · exact Keeps.stay (answered false _ rfl rfl rfl)
  · refine Keeps.stay ⟨idle.symm, ?_⟩
    simp only [asking]
    exact ⟨idle, chosen, fits⟩

theorem keeps_storePass (idle : st.rx = false)
    (ready : Ready st.toDiskList st.image st.backup w.answer) (buf : String) (key : KeyCode)
    (prompting : st.phase = .storePass buf) :
    Keeps (w.key .elsewhere key) (onKeyStorePass st buf key) := by
  unfold onKeyStorePass
  split
  · exact Keeps.stay ⟨idle.symm, idle, ready.toChosen⟩
  · exact Keeps.stay ⟨idle.symm, idle, ready, rfl⟩
  · exact Keeps.stay ⟨idle.symm, idle, ready⟩
  · exact Keeps.stay ⟨idle.symm, idle, ready⟩
  · refine Keeps.stay ⟨idle.symm, ?_⟩
    simp only [prompting]
    exact ⟨idle, ready⟩

/-- Enter in the confirmation: the elevation decides what comes next. -/
theorem keeps_submit (idle : st.rx = false)
    (ready : Ready st.toDiskList st.image st.backup w.answer) (error : Option String) :
    Keeps (w.key (.confirm (st.selectedDisk.map Disk.name)) .enter)
      (submitConfirm configDir a st w.typed error) := by
  obtain ⟨disk, selected⟩ := Option.isSome_iff_exists.mp ready.selected
  unfold submitConfirm
  simp only [selected]
  split
  · rename_i exactly
    split
    · refine keeps_arm ?_ configDir a .root _
      exact ready.toChosen
    · exact Keeps.stay ⟨idle.symm, idle, ready, disk, w.typed, selected, rfl, exactly⟩
    · exact Keeps.stay ⟨idle.symm, idle⟩
  · exact Keeps.stay ⟨idle.symm, idle, ready, rfl⟩

theorem keeps_confirm (idle : st.rx = false)
    (ready : Ready st.toDiskList st.image st.backup w.answer) (error : Option String)
    (key : KeyCode) (confirming : st.phase = .confirm w.typed error) :
    Keeps (w.key (.confirm (st.selectedDisk.map Disk.name)) key)
      (onKeyConfirm configDir a st w.typed error key) := by
  cases key with
  | esc => exact Keeps.stay ⟨idle.symm, idle, ready.toChosen⟩
  | backspace | char c => exact Keeps.stay ⟨idle.symm, idle, ready, rfl⟩
  | enter => exact keeps_submit configDir a idle ready error
  | _ =>
      apply Keeps.stay
      refine ⟨idle.symm, ?_⟩
      simp only [confirming]
      exact ⟨idle, ready, rfl⟩

theorem keeps_sudoPass (idle : st.rx = false)
    (ready : Ready st.toDiskList st.image st.backup w.answer)
    (confirmed : Confirmed st.toDiskList w.submitted) (buf : String) (error : Option String)
    (key : KeyCode) (prompting : st.phase = .sudoPass buf error) :
    Keeps (w.key .elsewhere key) (onKeySudoPass configDir a st buf error key) := by
  unfold onKeySudoPass
  split
  · exact Keeps.stay ⟨idle.symm, idle, ready.toChosen⟩
  · split
    · refine keeps_arm ?_ configDir a _ _
      exact ready.toChosen
    · exact Keeps.stay ⟨idle.symm, idle, ready, confirmed⟩
    · exact Keeps.stay ⟨idle.symm, idle⟩
    · exact Keeps.stay ⟨idle.symm, idle⟩
  · exact Keeps.stay ⟨idle.symm, idle, ready, confirmed⟩
  · exact Keeps.stay ⟨idle.symm, idle, ready, confirmed⟩
  · refine Keeps.stay ⟨idle.symm, ?_⟩
    simp only [prompting]
    exact ⟨idle, ready, confirmed⟩

theorem keeps_onKey (follows : Follows st w) (idle : st.rx = false) (key : KeyCode) :
    Keeps (w.key st.view key) (onKey configDir a st key) := by
  obtain ⟨-, phase⟩ := follows
  unfold onKey FlashScreen.view
  cases at_ : st.phase with
  | devices =>
      rw [at_] at phase
      exact keeps_devices a phase.1 phase.2 key at_
  | summary =>
      rw [at_] at phase
      exact keeps_summary phase.1 phase.2 key at_
  | backupAsk =>
      rw [at_] at phase
      exact keeps_backupAsk phase.1 phase.2.1 phase.2.2 key at_
  | storePass buf =>
      rw [at_] at phase
      exact keeps_storePass phase.1 phase.2 buf key at_
  | confirm typed error =>
      rw [at_] at phase
      obtain ⟨-, ready, rfl⟩ := phase
      exact keeps_confirm configDir a idle ready error key at_
  | sudoPass buf error =>
      rw [at_] at phase
      exact keeps_sudoPass configDir a phase.1 phase.2.1 phase.2.2 buf error key at_
  | running =>
      rw [at_] at phase
      rw [idle] at phase
      contradiction
  | done ok =>
      simp only
      split
      · exact Keeps.home
      · exact Keeps.home
      · refine Keeps.stay ⟨idle.symm, ?_⟩
        simp only [at_]
        exact idle

theorem phase_of_live (follows : Follows st w) (live : st.rx = true) : st.phase = .running := by
  obtain ⟨-, phase⟩ := follows
  rw [live] at phase
  cases at_ : st.phase <;> rw [at_] at phase <;> simp at phase ⊢

/-- While the worker runs, every key leaves the screen as it is. -/
theorem onKey_running (follows : Follows st w) (live : st.rx = true) (key : KeyCode) :
    onKey configDir a st key = .stay st := by
  unfold onKey
  rw [phase_of_live follows live]

/-- The flash that `arm` makes of the screen's fields. -/
def FlashScreen.job (configDir : String) (st : FlashScreen) (disk : Disk) (image : String)
    (elev : Elevation) : FlashJob :=
  ⟨image, disk.devPath, disk.size, if st.backup then some (backupPath configDir) else none,
    st.growsToFill, st.storePass, elev⟩

theorem arm_spawned {elev : Elevation} {worker : Worker}
    (spawns : (st.arm configDir a elev).spawned = some worker) :
    ∃ disk image size, st.selectedDisk = some disk ∧ st.image = some (image, size) ∧
      worker = .flash (st.job configDir disk image elev) := by
  unfold FlashScreen.arm at spawns
  split at spawns
  · cases spawns
  · rename_i disk selected
    split at spawns
    · cases spawns
    · rename_i image size recorded
      cases spawns
      exact ⟨disk, image, size, selected, recorded, rfl⟩

theorem onKeyConfirm_spawned {typed : String} {error : Option String} {key : KeyCode}
    {worker : Worker} (spawns : (onKeyConfirm configDir a st typed error key).spawned = some worker) :
    key = .enter ∧ (submitConfirm configDir a st typed error).spawned = some worker := by
  cases key with
  | enter => exact ⟨rfl, spawns⟩
  | _ => cases spawns

/-- Only Enter spawns a worker: in the confirmation as root, or in the password
modal after the password was accepted. -/
theorem spawned_cases {key : KeyCode} {worker : Worker}
    (spawns : (onKey configDir a st key).spawned = some worker) :
    ∃ elev disk image size, st.selectedDisk = some disk ∧ st.image = some (image, size) ∧
      worker = .flash (st.job configDir disk image elev) ∧ key = .enter ∧
      ((∃ typed error, st.phase = .confirm typed error ∧ trim typed = disk.name ∧
          elev = .root ∧ preflight a.privileges = .root) ∨
        ∃ buf error, st.phase = .sudoPass buf error ∧ authenticate buf a.sudo = .ok elev) := by
  unfold onKey at spawns
  split at spawns
  · unfold onKeyDevices at spawns
    split at spawns <;> cases spawns
  · unfold onKeySummary at spawns
    split at spawns <;> cases spawns
  · unfold onKeyBackupAsk at spawns
    split at spawns <;> cases spawns
  · unfold onKeyStorePass at spawns
    split at spawns <;> cases spawns
  · rename_i typed error confirming
    obtain ⟨rfl, submits⟩ := onKeyConfirm_spawned configDir a spawns
    unfold submitConfirm at submits
    split at submits
    · cases submits
    · rename_i disk selected
      split at submits
      · rename_i exactly
        split at submits <;> try cases submits
        rename_i isRoot
        obtain ⟨other, image, size, same, recorded, made⟩ := arm_spawned configDir a submits
        cases selected.symm.trans same
        exact ⟨.root, disk, image, size, selected, recorded, made, rfl,
          Or.inl ⟨typed, error, confirming, exactly, rfl, isRoot⟩⟩
      · cases submits
  · rename_i buf error prompting
    unfold onKeySudoPass at spawns
    split at spawns <;> try cases spawns
    split at spawns <;> try cases spawns
    rename_i elev accepted
    obtain ⟨disk, image, size, selected, recorded, made⟩ := arm_spawned configDir a spawns
    exact ⟨elev, disk, image, size, selected, recorded, made, rfl,
      Or.inr ⟨buf, error, prompting, accepted⟩⟩
  · cases spawns
  · split at spawns <;> cases spawns

theorem backupTo_isSome (disk : Disk) (image : String) (elev : Elevation) :
    (st.job configDir disk image elev).backupTo.isSome = st.backup := by
  unfold FlashScreen.job
  cases st.backup <;> rfl

theorem authorised_of_follows (follows : Follows st w) {key : KeyCode} {job : FlashJob}
    (spawns : (onKey configDir a st key).spawned = some (.flash job)) :
    Authorised a (w.key st.view key) st.image job := by
  obtain ⟨-, phase⟩ := follows
  obtain ⟨elev, disk, image, size, selected, recorded, made, rfl, how⟩ :=
    spawned_cases configDir a spawns
  cases made
  have gates : ∀ answer, Ready st.toDiskList st.image st.backup answer →
      (∃ size, st.image = some (image, size) ∧
        ∀ bytes, disk.size = some bytes → size ≤ bytes) ∧
        answer = some (st.job configDir disk image elev).backupTo.isSome := by
    intro answer ready
    refine ⟨⟨size, recorded, fun bytes => ready.fits image size disk bytes recorded selected⟩, ?_⟩
    rw [backupTo_isSome]
    exact ready.answered
  rcases how with ⟨typed, error, confirming, exactly, isRoot, asRoot⟩ | ⟨buf, error, prompting, accepted⟩
  · rw [confirming] at phase
    obtain ⟨-, ready, rfl⟩ := phase
    obtain ⟨fits, answer⟩ := gates _ ready
    unfold FlashScreen.view
    rw [confirming]
    refine ⟨⟨disk.name, w.typed, ?_, exactly, rfl⟩, fits, answer, Or.inl ⟨isRoot, asRoot⟩⟩
    simp only [Watch.key_enter, selected, Option.map_some]
  · rw [prompting] at phase
    obtain ⟨-, ready, other, text, same, submitted, exactly⟩ := phase
    cases selected.symm.trans same
    obtain ⟨fits, answer⟩ := gates _ ready
    unfold FlashScreen.view
    rw [prompting]
    exact ⟨⟨disk.name, text, submitted, exactly, rfl⟩, fits, answer, Or.inr ⟨buf, accepted, authenticate_ok accepted⟩⟩

end Keys

theorem follows_step {configDir : String} {s next : FlashScreen × Watch}
    {label : Answers × Input (List FlashEvent)} (follows : Follows s.1 s.2)
    (taken : (screen configDir).machine.step s label next) : Follows next.1 next.2 := by
  obtain ⟨st, w⟩ := s
  obtain ⟨a, input⟩ := label
  cases input with
  | key key =>
      obtain ⟨shown, stays, rfl⟩ := taken
      change (onKey configDir a st key).next = .stay shown at stays
      change Follows shown { w.key st.view key with
        running := w.running || (onKey configDir a st key).spawned.isSome }
      by_cases live : st.rx = true
      · rw [onKey_running configDir a follows live] at stays ⊢
        cases stays
        have running : w.running = true := follows.1.trans live
        refine ⟨by rw [running, live]; rfl, ?_⟩
        rw [phase_of_live follows live]
        exact live
      · have idle : st.rx = false := (Bool.not_eq_true _).mp live
        have stopped : w.running = false := follows.1.trans idle
        rw [stopped, Bool.false_or]
        exact keeps_onKey configDir a follows idle key shown stays
  | drain events =>
      cases taken
      exact follows_drain follows events

theorem follows_reachable (configDir : String) :
    ∀ s, (screen configDir).machine.Reachable s → Follows s.1 s.2 := by
  apply Machine.invariant
  · rintro _ ⟨a, rfl⟩
    exact follows_new configDir a
  · exact fun _ _ _ _ follows taken => follows_step follows taken

theorem gated (configDir : String) : Gated (screen configDir) where
  authorised st w reached a key job spawns :=
    authorised_of_follows configDir a (follows_reachable configDir _ reached) spawns
  exclusive st w reached running a key := by
    have follows := follows_reachable configDir _ reached
    have live : st.rx = true := follows.1.symm.trans running
    have same : (screen configDir).onKey a st key = .stay st :=
      onKey_running configDir a follows live key
    rw [same]
    exact ⟨rfl, st, rfl⟩

/-- As root, with one disk of the image's size. -/
def oneDisk : Answers where
  listDisks := .ok [⟨"sda", some 64, some "usb", true, none, []⟩]
  privileges := ⟨some "0\n", false⟩
  «sudo» := .notFound
  beginLog := none
  blockdev := none
  lsblk := none
  listing := some ["nixnas.raw"]
  imageLen := .ok 64
  humanSize n := toString n

/-- The gates do open: an operator who answers them gets the flash. -/
example :
    let press (turn : Turn FlashScreen) (key : KeyCode) : Turn FlashScreen :=
      match turn.next with
      | .stay st => onKey "." oneDisk st key
      | _ => turn
    ([.enter, .enter, .char 'n', .char 's', .char 'd', .char 'a', .enter].foldl press
      (.stay (FlashScreen.new "." oneDisk))).spawned.isSome = true := rfl

end Nixnas.Ui.Flash
