import Nixnas.Logic.Machine
import Nixnas.Tui.FlashSafety
import Nixnas.Ui.BuildFlashGate

/-!
# The backups of a sequence of flash runs

Every run that is started with a backup saves the device to the same file, and
creating that file empties it.  What an earlier run overwrote is therefore held
as long as no later run gets that far, and lost when one does.
-/

set_option autoImplicit false

namespace Nixnas.Ui

open Nixnas.Logic Nixnas.Logic.Action
open Nixnas.Rust
open Nixnas.Tui.Flash
open Nixnas.Tui.Sudo

/-! ## Runs started from the screens -/

/-- A flash that a key press on one of the two screens starts. -/
inductive Started (configDir : String) (job : FlashJob) : Prop where
  | flash (a : Answers) (st : Flash.FlashScreen) (key : KeyCode)
      (spawned : (Flash.onKey configDir a st key).spawned = some (.flash job))
  | buildFlash (cfg : Tui.Build.Config) (a : Answers) (st : BuildFlash.BuildFlowScreen)
      (key : KeyCode) (spawned : (BuildFlash.onKey configDir cfg a st key).spawned = some (.flash job))

/-- Whichever screen starts it, a backup goes to the file next to the
configuration. -/
theorem Started.backupTo {configDir : String} {job : FlashJob} (started : Started configDir job)
    (answered : job.backupTo.isSome = true) : job.backupTo = some (backupPath configDir) := by
  have same : ∀ wanted : Bool, job.backupTo = (if wanted then some (backupPath configDir) else none) →
      job.backupTo = some (backupPath configDir) := by
    intro wanted goes
    cases wanted with
    | true => exact goes
    | false =>
        rw [goes] at answered
        cases answered
  cases started with
  | flash a st key spawned =>
      obtain ⟨elev, disk, image, size, -, -, made, -⟩ := Flash.spawned_cases configDir a spawned
      cases made
      exact same st.backup rfl
  | buildFlash cfg a st key spawned =>
      obtain ⟨elev, name, bytes, image, size, -, -, made, -⟩ :=
        BuildFlash.spawned_cases configDir cfg a spawned
      cases made
      exact same st.backup rfl

/-! ## Histories -/

structure History where
  world : FlashWorld
  /-- What the devices held that were written, each right before its run. -/
  overwritten : List Bytes

/-- One more run; until its first write its device holds what it held before. -/
def History.run (env : Env) (h : History) (job : FlashJob) (fuel : Nat) : History :=
  let after := (runFlash env job h.world.fresh fuel).world
  { world := after
    overwritten := if after.wrote then h.overwritten ++ [h.world.devices job.dev] else h.overwritten }

/-- Any runs one after the other, each with a backup and each stopped anywhere. -/
def history (configDir : String) (env : Env) : Machine History (FlashJob × Nat) where
  initial h := h.overwritten = []
  step h label next := Started configDir label.1 ∧ label.1.backupTo.isSome = true ∧
    next = h.run env label.1 label.2

/-- Everything that was overwritten is held by some file. -/
def Held (h : History) : Prop := ∀ content ∈ h.overwritten, ∃ path, h.world.files path = some content

/-- The run opens its device and creates the backup file anew. -/
def Truncates (env : Env) (dest : String) (w : FlashWorld) (job : FlashJob) (fuel : Nat) : Prop :=
  ∃ src opened left, openBackup env job dest w fuel = .ok src opened left

/-- Nothing was overwritten yet, or the run does not get as far as the file. -/
def Spares (env : Env) (configDir : String) (h : History) (label : FlashJob × Nat) : Prop :=
  h.overwritten = [] ∨ ¬ Truncates env (backupPath configDir) h.world.fresh label.1 label.2

/-! ## What one run leaves -/

section OneRun

variable {env : Env} {job : FlashJob} {dest : String}

/-- Before the file is created no file changes. -/
theorem openBackup_files (files : String → Option Bytes) :
    Spec (fun w => w.files = files) (openBackup env job dest)
      ⟨fun _ _ => True, fun _ w => w.files = files, fun w => w.files = files⟩ := by
  apply Spec.bind fun _ w => w.files = files
  · exact Spec.modify fun _ holds => holds
  intro _
  apply Spec.bind fun _ w => w.files = files
  · apply Spec.mapError
    exact ((openReader_still env _ _).comp fun w : FlashWorld => w.files).spec files
  intro src
  apply Spec.bind fun _ _ => True
  · apply Spec.mapError
    refine call_spec (fun _ holds => holds) ?_
    intro w holds
    cases (env.reply w.clock).error with
    | some e => exact holds
    | none => exact trivial
  · exact fun _ => Spec.pure fun _ _ => trivial

/-- A run that does not get as far as the file changes no file and writes nothing. -/
theorem runFlash_spared {w : FlashWorld} {fuel : Nat} (wanted : job.backupTo = some dest)
    (unwritten : w.wrote = false) (spared : ¬ Truncates env dest w job fuel) :
    (runFlash env job w fuel).world.files = w.files ∧
      (runFlash env job w fuel).world.wrote = false := by
  have phase : backupPhase env job = backup env job dest := by
    unfold backupPhase
    rw [wanted]
  have opens : Spec (fun w => w.files = _) (openBackup env job dest) _ := openBackup_files w.files
  have files := opens w fuel rfl
  have wrote := (openBackup_disk env job dest).comp (fun d => d.2.2.2) w fuel
  cases outcome : openBackup env job dest w fuel with
  | ok src opened left => exact absurd ⟨src, opened, left, outcome⟩ spared
  | error e after left =>
      rw [outcome] at files wrote
      have failed : backupPhase env job w fuel = .error e after left := by
        rw [phase]
        exact bind_error outcome
      have ended : runFlash env job w fuel = .error e after left := bind_error (bind_error failed)
      rw [ended]
      exact ⟨files, wrote.trans unwritten⟩
  | stopped after =>
      rw [outcome] at files wrote
      have failed : backupPhase env job w fuel = .stopped after := by
        rw [phase]
        exact bind_stopped outcome
      have ended : runFlash env job w fuel = .stopped after := bind_stopped (bind_stopped failed)
      rw [ended]
      exact ⟨files, wrote.trans unwritten⟩

/-- A run that wrote has saved what its device held. -/
theorem runFlash_saved (honest : env.Honest) {before : FlashWorld} {fuel : Nat}
    (wanted : job.backupTo = some dest)
    (wrote : (runFlash env job before.fresh fuel).world.wrote = true) :
    (runFlash env job before.fresh fuel).world.files dest = some (before.devices job.dev) := by
  have complete := (runFlash_ordered env job).always fuel ⟨⟨rfl, rfl⟩, rfl⟩ wrote dest wanted
  rw [complete.backedUp.content, complete.whole honest]
  rfl

/-- Every other file stays as it is. -/
theorem runFlash_otherFiles (wanted : job.backupTo = some dest) {path : String}
    (other : path ≠ dest) : Preserves (fun w => w.files path) (runFlash env job) := by
  have silent : Silent fun w => w.files path := fun _ _ => rfl
  have setFile : ∀ (w : FlashWorld) content synced,
      (w.setFile dest content synced).files path = w.files path := by
    intro w content synced
    simp [World.setFile, other]
  have opens : Preserves (fun w => w.files path) (openBackup env job dest) := by
    apply Preserves.bind (send_preserves silent _)
    intro _
    apply Preserves.bind
      (Preserves.mapError ((openReader_still env _ _).comp fun w : FlashWorld => w.files path))
    intro src
    apply Preserves.bind _ fun _ => Preserves.pure _
    apply Preserves.mapError
    apply call_preserves fun _ => rfl
    intro reply w
    cases reply.error with
    | some e => rfl
    | none => exact setFile _ [] false
  have reads : ∀ src size, Preserves (fun w => w.files path) (readRecorded env src size) := by
    intro src size
    apply Preserves.bind ((src.read_still env size).comp fun w : FlashWorld => w.files path)
    intro result
    exact Preserves.bind (Preserves.modify fun _ => rfl) fun _ => Preserves.pure _
  have writes : ∀ buf, Preserves (fun w => w.files path) (writeFile env dest buf) := by
    intro buf
    apply call_preserves fun _ => rfl
    intro reply w
    cases reply.error with
    | some e => rfl
    | none => exact setFile _ _ false
  have syncs : Preserves (fun w => w.files path) (syncFile env dest) := by
    apply call_preserves fun _ => rfl
    intro reply w
    cases reply.error <;> rfl
  apply Preserves.bind
  · apply Preserves.bind
    · unfold backupPhase
      rw [wanted]
      apply Preserves.bind opens
      intro src
      apply Preserves.bind
        (Preserves.mapError (copyWithProgress_preserves silent reads writes src _))
      exact fun _ => Preserves.mapError syncs
    intro _
    apply Preserves.bind ((writePhase_saved env job).comp fun s => s.1 path)
    exact fun _ => (verifyPhase_quiet env job).comp fun w => w.files path
  intro _
  apply Preserves.ite
  · apply Preserves.bind ((growPhase_kept env job).comp fun w => w.files path)
    exact fun _ => Preserves.pure _
  · exact Preserves.pure _

end OneRun

/-! ## Whole histories -/

/-- The file holds everything that was overwritten. -/
def HeldByFile (configDir : String) (h : History) : Prop :=
  ∀ content ∈ h.overwritten, h.world.files (backupPath configDir) = some content

theorem heldByFile_run {configDir : String} {env : Env} (honest : env.Honest) {h : History}
    {job : FlashJob} {fuel : Nat} (started : Started configDir job)
    (answered : job.backupTo.isSome = true) (spares : Spares env configDir h (job, fuel))
    (held : HeldByFile configDir h) : HeldByFile configDir (h.run env job fuel) := by
  have wanted := started.backupTo answered
  intro content member
  simp only [History.run] at member ⊢
  rcases spares with none | spared
  · by_cases wrote : (runFlash env job h.world.fresh fuel).world.wrote = true
    · rw [if_pos wrote, none, List.nil_append, List.mem_singleton] at member
      subst member
      exact runFlash_saved honest wanted wrote
    · rw [if_neg wrote, none] at member
      cases member
  · obtain ⟨files, unwritten⟩ := runFlash_spared wanted rfl spared
    rw [unwritten] at member
    rw [files]
    exact held content member

/-- A later run that writes keeps only what equals its own device. -/
theorem heldByFile_iff_of_wrote {configDir : String} {env : Env} (honest : env.Honest)
    {h : History} {job : FlashJob} {fuel : Nat} (started : Started configDir job)
    (answered : job.backupTo.isSome = true)
    (wrote : (runFlash env job h.world.fresh fuel).world.wrote = true) :
    HeldByFile configDir (h.run env job fuel) ↔
      ∀ content ∈ h.overwritten, content = h.world.devices job.dev := by
  have saved := runFlash_saved honest (started.backupTo answered) wrote
  simp only [HeldByFile, History.run, wrote, if_true, List.mem_append, List.mem_singleton, saved,
    Option.some.injEq]
  constructor
  · exact fun held content member => (held content (.inl member)).symm
  · intro same content member
    rcases member with member | rfl
    · exact (same content member).symm
    · rfl

/-- As long as no run empties the backup file after something was overwritten,
every overwritten device is still held when the sequence ends. -/
theorem history_held (configDir : String) (env : Env) (honest : env.Honest) :
    ∀ h, ((history configDir env).restrict (Spares env configDir)).Reachable h → Held h := by
  intro h reached
  have held : HeldByFile configDir h := by
    refine Machine.invariant ?_ ?_ h reached
    · intro first (start : first.overwritten = []) content member
      rw [start] at member
      cases member
    · intro first label next _ held taken
      obtain ⟨spares, started, answered, rfl⟩ := taken
      exact heldByFile_run honest started answered spares held
  exact fun content member => ⟨backupPath configDir, held content member⟩

/-! ## Two sticks -/

/-- Everything succeeds, one byte at a time. -/
def calmReply : Reply where
  error := none
  count := 1
  short := 0
  output := ⟨true, "", ""⟩
  blockdev _ := ⟨false, "", ""⟩
  present := true
  deliver original accepted _ := accepted ++ original.drop accepted.length
  settle original accepted _ := accepted ++ original.drop accepted.length
  tool content := content

def calm : Env := ⟨fun _ => [9], fun _ => calmReply⟩

theorem calm_honest : calm.Honest where
  size _ _ _ success := by cases success
  range _ := rfl

def sticks : FlashWorld where
  clock := 0
  devices dev := if dev = "/dev/sda" then [1] else [2]
  files _ := none
  synced _ := false
  original := []
  accepted := []
  wrote := false
  delivered := []
  ended := false
  events := []

/-- The Flash screen before the last Enter: the backup wanted, the name typed. -/
def armed (name : String) : Flash.FlashScreen where
  disks := [⟨name, some 1, some "usb", true, none, []⟩]
  selected := 0
  listError := none
  image := some ("nixnas.raw", 1)
  backup := true
  storePass := none
  phase := .confirm name none
  rx := false
  gaugeTitle := ""
  progress := (0, 0)
  message := none
  sessionLog := none

def stickJob (name : String) : FlashJob :=
  ⟨"nixnas.raw", "/dev/" ++ name, some 1, some (backupPath "."), false, none, .root⟩

theorem sda_started : Started "." (stickJob "sda") := .flash Flash.oneDisk (armed "sda") .enter rfl

theorem sdb_started : Started "." (stickJob "sdb") := .flash Flash.oneDisk (armed "sdb") .enter rfl

/-- The same as an ordinary user, who has given sudo the password. -/
def sudoJob (name : String) : FlashJob := { stickJob name with elev := .sudo "pass" }

theorem sdb_started_sudo : Started "." (sudoJob "sdb") :=
  .flash { Flash.oneDisk with «sudo» := .exited true }
    { armed "sdb" with phase := .sudoPass "pass" none } .enter rfl

/-- The size of the device is not told, so the run does not get as far as the file. -/
theorem sudo_backup_fails (w : FlashWorld) :
    ∃ e after left, openBackup calm (sudoJob "sdb") (backupPath ".") w 40 = .error e after left :=
  ⟨_, _, _, rfl⟩

/-- The first stick is flashed, and the run on the second one fails at its device. -/
def sparingRuns : History :=
  ((History.mk sticks []).run calm (stickJob "sda") 40).run calm (sudoJob "sdb") 40

theorem sparingRuns_held :
    sparingRuns.overwritten = [[1]] ∧ sparingRuns.world.events.length = 6 ∧ Held sparingRuns := by
  refine ⟨by decide +kernel, by decide +kernel, history_held "." calm calm_honest sparingRuns ?_⟩
  have first : ((history "." calm).restrict (Spares calm ".")).Reachable (History.mk sticks []) :=
    .initial rfl
  have second := first.step (stickJob "sda", 40) ⟨Or.inl rfl, sda_started, rfl, rfl⟩
  have spared (w : FlashWorld) : ¬ Truncates calm (backupPath ".") w (sudoJob "sdb") 40 := by
    rintro ⟨src, opened, left, outcome⟩
    obtain ⟨e, after, rest, failed⟩ := sudo_backup_fails w
    rw [failed] at outcome
    cases outcome
  exact second.step (sudoJob "sdb", 40) ⟨Or.inr (spared _), sdb_started_sudo, rfl, rfl⟩

/-- Both sticks are flashed. -/
def twoRuns : History :=
  ((History.mk sticks []).run calm (stickJob "sda") 40).run calm (stickJob "sdb") 40

/-- The backup of the second stick takes the place of that of the first. -/
theorem second_backup_loses_first :
    ¬ ∀ (configDir : String) (env : Env), env.Honest →
      ∀ h, (history configDir env).Reachable h → Held h := by
  intro always
  have first : (history "." calm).Reachable (History.mk sticks []) := .initial rfl
  have second := first.step (stickJob "sda", 40) ⟨sda_started, rfl, rfl⟩
  have third : (history "." calm).Reachable twoRuns :=
    second.step (stickJob "sdb", 40) ⟨sdb_started, rfl, rfl⟩
  have member : [1] ∈ twoRuns.overwritten := by decide +kernel
  obtain ⟨path, has⟩ := always "." calm calm_honest twoRuns third [1] member
  by_cases backup : path = backupPath "."
  · subst backup
    have other : twoRuns.world.files (backupPath ".") = some [2] := by decide +kernel
    rw [other] at has
    cases has
  · have unchanged : ∀ (h : History) name,
        (h.run calm (stickJob name) 40).world.files path = h.world.files path := fun h name =>
      runFlash_otherFiles rfl backup h.world.fresh 40
    rw [twoRuns, unchanged, unchanged] at has
    cases has

end Nixnas.Ui
