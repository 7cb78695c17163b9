import Nixnas.Tui.Lsblk
import Nixnas.Ui.Coherence

/-!
# The devices of a session

Every device that a worker is sent to comes from a disk list that was read in
the same session: the screens keep the disks of their last list, the flow the
one it picked from it, the verification the one it asks the password for.
-/

set_option autoImplicit false

namespace Nixnas.Ui

open Nixnas.Logic
open Nixnas.Rust
open Nixnas.Tui.Build (BuildEvent Config)
open Nixnas.Tui.Flash
open Nixnas.Tui.Sudo
open Nixnas.Ui.Verify (VerifyScreen VerifyJob)

/-! ## Turns -/

/-- What is known of the screen stays known when the answers are, and the worker is
one that may be sent. -/
structure Vouched {S W : Type} (fresh : Prop) (known : S → Prop) (allowed : W → Prop)
    (next : Next S) (spawned : Option W) : Prop where
  stays : fresh → ∀ st, next = .stay st → known st
  spawns : ∀ worker, spawned = some worker → allowed worker

namespace Vouched

variable {S W : Type} {fresh : Prop} {known : S → Prop} {allowed : W → Prop}

theorem refreshes {st : S} (holds : fresh → known st) :
    Vouched fresh known allowed (.stay st) none where
  stays answered _ same := (Next.stay.inj same) ▸ holds answered
  spawns _ nobody := by cases nobody

theorem stay {st : S} (holds : known st) : Vouched fresh known allowed (.stay st) none :=
  refreshes fun _ => holds

theorem home : Vouched fresh known allowed .home none where
  stays _ _ other := by cases other
  spawns _ nobody := by cases nobody

theorem panic {message : String} : Vouched fresh known allowed (.panic message) none where
  stays _ _ other := by cases other
  spawns _ nobody := by cases nobody

theorem arms {st : S} {worker : W} (holds : known st) (may : allowed worker) :
    Vouched fresh known allowed (.stay st) (some worker) where
  stays _ _ same := (Next.stay.inj same) ▸ holds
  spawns _ same := (Option.some.inj same) ▸ may

end Vouched

/-! ## Lists -/

section Lists

variable (listed : Disk → Prop)

def DiskList.Known (list : DiskList) : Prop := ∀ disk ∈ list.disks, listed disk

/-- The environment lists no other disks. -/
def Fresh (a : Answers) : Prop := ∀ disks, a.listDisks = .ok disks → ∀ disk ∈ disks, listed disk

variable {listed} {list : DiskList} {a : Answers}

theorem DiskList.Known.selected {disk : Disk} (known : list.Known listed)
    (selected : list.selectedDisk = some disk) : listed disk :=
  known disk (List.mem_of_getElem? selected)

theorem Fresh.refreshed (fresh : Fresh listed a) :
    (list.refreshDisks a.listDisks).Known listed := by
  intro disk member
  unfold DiskList.refreshDisks at member
  cases answered : a.listDisks with
  | ok disks =>
      rw [answered] at member
      exact fresh disks answered disk member
  | error e =>
      rw [answered] at member
      cases member

/-- The device path is that of a listed disk. -/
def Leads (listed : Disk → Prop) (dev : String) : Prop := ∃ disk, listed disk ∧ dev = disk.devPath

/-- A flash goes to a listed disk, and grows to its listed size only. -/
def Worker.Allowed (listed : Disk → Prop) : Worker → Prop
  | .build _ => True
  | .flash job => ∃ disk, listed disk ∧ job.dev = disk.devPath ∧
      (job.grow = true → job.devSize = disk.size)

end Lists

/-! ## The Flash screen -/

namespace Flash

variable {listed : Disk → Prop} {st : FlashScreen} {a : Answers} (configDir : String)

def FlashScreen.Known (listed : Disk → Prop) (st : FlashScreen) : Prop :=
  st.toDiskList.Known listed

abbrev Vouches (listed : Disk → Prop) (a : Answers) (turn : Turn FlashScreen) : Prop :=
  Vouched (Fresh listed a) (FlashScreen.Known listed) (Worker.Allowed listed) turn.next turn.spawned

theorem arm_vouched (st : FlashScreen) (known : st.Known listed) (elev : Elevation) :
    Vouches listed a (st.arm configDir a elev) := by
  unfold FlashScreen.arm
  cases selected : st.selectedDisk with
  | none => exact Vouched.stay known
  | some disk =>
      cases st.image with
      | none => exact Vouched.panic
      | some image => exact Vouched.arms known ⟨disk, known.selected selected, rfl, fun _ => rfl⟩

theorem devices_vouched (known : st.Known listed) (key : KeyCode) :
    Vouches listed a (onKeyDevices a st key) := by
  unfold onKeyDevices
  split
  · exact Vouched.home
  · exact Vouched.stay known
  · exact Vouched.stay known
  · exact Vouched.stay known
  · exact Vouched.stay known
  · exact Vouched.refreshes fun fresh => fresh.refreshed
  · refine Vouched.stay ?_
    split <;> exact known
  · exact Vouched.stay known

theorem submit_vouched (known : st.Known listed) (typed : String) (error : Option String) :
    Vouches listed a (submitConfirm configDir a st typed error) := by
  unfold submitConfirm
  cases st.selectedDisk with
  | none => exact Vouched.stay known
  | some disk =>
      dsimp only
      split
      · cases preflight a.privileges with
        | root => exact arm_vouched configDir { st with phase := .confirm "" error } known .root
        | needsSudo => exact Vouched.stay known
        | noSudo => exact Vouched.stay known
      · exact Vouched.stay known

theorem sudoPass_vouched (known : st.Known listed) (buf : String) (error : Option String)
    (key : KeyCode) :
    Vouches listed a (onKeySudoPass configDir a st buf error key) := by
  cases key with
  | enter =>
      unfold onKeySudoPass
      dsimp only
      cases authenticate buf a.sudo with
      | ok elev => exact arm_vouched configDir { st with phase := .sudoPass "" error } known elev
      | wrong => exact Vouched.stay known
      | missing => exact Vouched.stay known
      | error e => exact Vouched.stay known
  | esc | backspace | char c => exact Vouched.stay known
  | delete | up | down | pageUp | pageDown | «end» | other => exact Vouched.stay known

theorem onKey_vouched (a : Answers) (known : st.Known listed) (key : KeyCode) :
    Vouches listed a (onKey configDir a st key) := by
  unfold onKey
  cases st.phase with
  | devices => exact devices_vouched known key
  | summary =>
      dsimp only
      unfold onKeySummary
      split
      · exact Vouched.stay known
      · refine Vouched.stay ?_
        split <;> exact known
      · exact Vouched.stay known
  | backupAsk =>
      dsimp only
      unfold onKeyBackupAsk
      split <;> exact Vouched.stay known
  | storePass buf =>
      dsimp only
      unfold onKeyStorePass
      split <;> exact Vouched.stay known
  | confirm typed error =>
      cases key with
      | enter => exact submit_vouched configDir known typed error
      | esc | backspace | char c => exact Vouched.stay known
      | delete | up | down | pageUp | pageDown | «end» | other => exact Vouched.stay known
  | sudoPass buf error => exact sudoPass_vouched configDir known buf error key
  | running => exact Vouched.stay known
  | done ok =>
      dsimp only
      split
      · exact Vouched.home
      · exact Vouched.home
      · exact Vouched.stay known

theorem new_known (fresh : Fresh listed a) : (FlashScreen.new configDir a).Known listed := by
  unfold FlashScreen.new
  dsimp only
  split <;> exact fresh.refreshed

theorem drainEvents_known (known : st.Known listed) (events : List FlashEvent) :
    (st.drainEvents events).1.Known listed := by
  unfold FlashScreen.drainEvents
  split
  · generalize foldEvents st.gaugeTitle st.progress events = folded
    obtain ⟨title, progress, calls, verdict⟩ := folded
    rcases verdict with _ | e | msg <;> exact known
  · exact known

end Flash

/-! ## The Build & Flash screen -/

namespace BuildFlash

variable {listed : Disk → Prop} {st : BuildFlowScreen} {a : Answers} (configDir : String)

/-- What was picked is the name of a listed disk; its size was asked for anew. -/
structure BuildFlowScreen.Known (listed : Disk → Prop) (st : BuildFlowScreen) : Prop where
  disks : st.toDiskList.Known listed
  picked : ∀ name bytes, st.picked = some (name, bytes) → ∃ disk, listed disk ∧ disk.name = name

abbrev Vouches (listed : Disk → Prop) (a : Answers) (turn : Turn BuildFlowScreen) : Prop :=
  Vouched (Fresh listed a) (BuildFlowScreen.Known listed) (Worker.Allowed listed) turn.next
    turn.spawned

theorem armFlash_vouched (st : BuildFlowScreen) (known : st.Known listed) (elev : Elevation) :
    Vouches listed a (st.armFlash configDir a elev) := by
  unfold BuildFlowScreen.armFlash
  split
  · rename_i name bytes image size picked built
    obtain ⟨disk, isListed, rfl⟩ := known.picked name bytes picked
    exact Vouched.arms ⟨known.disks, known.picked⟩
      ⟨disk, isListed, rfl, fun grows => absurd grows Bool.false_ne_true⟩
  · exact Vouched.stay known

theorem pickDevice_vouched (known : st.Known listed) (key : KeyCode) :
    Vouches listed a (onKeyPickDevice a st key) := by
  have same : ∀ next : BuildFlowScreen, next.disks = st.disks → next.picked = st.picked →
      next.Known listed := by
    intro next disks picked
    refine ⟨?_, ?_⟩
    · unfold DiskList.Known
      rw [disks]
      exact known.disks
    · rw [picked]
      exact known.picked
  unfold onKeyPickDevice
  split
  · exact Vouched.home
  · exact Vouched.stay (same _ rfl rfl)
  · exact Vouched.stay (same _ rfl rfl)
  · exact Vouched.stay (same _ rfl rfl)
  · exact Vouched.stay (same _ rfl rfl)
  · exact Vouched.refreshes fun fresh => ⟨fresh.refreshed, known.picked⟩
  · cases selected : st.selectedDisk with
    | none => exact Vouched.stay known
    | some disk =>
        dsimp only
        split
        · exact Vouched.stay (same _ rfl rfl)
        · split
          · refine Vouched.stay ⟨known.disks, ?_⟩
            intro name bytes picked
            cases picked
            exact ⟨disk, known.disks.selected selected, rfl⟩
          · exact Vouched.stay (same _ rfl rfl)
  · exact Vouched.stay known

theorem passFirst_vouched (known : st.Known listed) (buf : String) (error : Option String)
    (key : KeyCode) :
    Vouches listed a (onKeyPassFirst st buf error key) := by
  unfold onKeyPassFirst
  split
  · exact Vouched.home
  · exact Vouched.stay ⟨known.disks, known.picked⟩
  · exact Vouched.stay ⟨known.disks, known.picked⟩
  · exact Vouched.stay ⟨known.disks, known.picked⟩
  · exact Vouched.stay known

theorem passConfirm_vouched (known : st.Known listed) (cfg : Config) (first buf : String)
    (key : KeyCode) :
    Vouches listed a (onKeyPassConfirm cfg a st first buf key) := by
  unfold onKeyPassConfirm
  split
  · exact Vouched.home
  · split
    · exact Vouched.arms ⟨known.disks, known.picked⟩ trivial
    · exact Vouched.stay ⟨known.disks, known.picked⟩
  · exact Vouched.stay ⟨known.disks, known.picked⟩
  · exact Vouched.stay ⟨known.disks, known.picked⟩
  · exact Vouched.stay known

theorem submit_vouched (known : st.Known listed) (typed : String) (error : Option String) :
    Vouches listed a (submitFlashConfirm configDir a st typed error) := by
  unfold submitFlashConfirm
  split
  · exact Vouched.stay ⟨known.disks, known.picked⟩
  · split
    · cases preflight a.privileges with
      | root =>
          exact armFlash_vouched configDir { st with stage := .flashConfirm "" error }
            ⟨known.disks, known.picked⟩ .root
      | needsSudo => exact Vouched.stay ⟨known.disks, known.picked⟩
      | noSudo => exact Vouched.stay ⟨known.disks, known.picked⟩
    · exact Vouched.stay ⟨known.disks, known.picked⟩

theorem flashSudo_vouched (known : st.Known listed) (buf : String) (error : Option String)
    (key : KeyCode) :
    Vouches listed a (onKeyFlashSudo configDir a st buf error key) := by
  cases key with
  | enter =>
      unfold onKeyFlashSudo
      dsimp only
      cases authenticate buf a.sudo with
      | ok elev =>
          exact armFlash_vouched configDir { st with stage := .flashSudo "" error }
            ⟨known.disks, known.picked⟩ elev
      | wrong => exact Vouched.stay ⟨known.disks, known.picked⟩
      | missing => exact Vouched.stay ⟨known.disks, known.picked⟩
      | error e => exact Vouched.stay ⟨known.disks, known.picked⟩
  | esc | backspace | char c => exact Vouched.stay ⟨known.disks, known.picked⟩
  | delete | up | down | pageUp | pageDown | «end» | other => exact Vouched.stay known

theorem onKey_vouched (a : Answers) (known : st.Known listed) (cfg : Config)
    (key : KeyCode) :
    Vouches listed a (onKey configDir cfg a st key) := by
  unfold onKey
  cases st.stage with
  | unavailable =>
      dsimp only
      split
      · exact Vouched.home
      · exact Vouched.home
      · exact Vouched.stay known
  | pickDevice => exact pickDevice_vouched known key
  | passFirst buf error => exact passFirst_vouched known buf error key
  | passConfirm first buf => exact passConfirm_vouched known cfg first buf key
  | building =>
      obtain ⟨follow, scroll, scrolls⟩ := onKeyBuilding_scrolls st key
      dsimp only
      rw [scrolls]
      exact Vouched.stay ⟨known.disks, known.picked⟩
  | flashReview =>
      dsimp only
      unfold onKeyFlashReview
      split
      · exact Vouched.home
      · split
        · exact Vouched.stay ⟨known.disks, known.picked⟩
        · exact Vouched.stay known
      · exact Vouched.stay known
  | flashBackupAsk =>
      dsimp only
      unfold onKeyFlashBackupAsk
      split
      · exact Vouched.stay ⟨known.disks, known.picked⟩
      · exact Vouched.stay ⟨known.disks, known.picked⟩
      · exact Vouched.stay ⟨known.disks, known.picked⟩
      · exact Vouched.stay ⟨known.disks, known.picked⟩
      · exact Vouched.stay ⟨known.disks, known.picked⟩
      · exact Vouched.stay known
  | flashConfirm typed error =>
      cases key with
      | enter => exact submit_vouched configDir known typed error
      | esc | backspace | char c => exact Vouched.stay ⟨known.disks, known.picked⟩
      | delete | up | down | pageUp | pageDown | «end» | other => exact Vouched.stay known
  | flashSudo buf error => exact flashSudo_vouched configDir known buf error key
  | flashing => exact Vouched.stay known
  | done ok =>
      dsimp only
      split
      · exact Vouched.home
      · exact Vouched.home
      · exact Vouched.stay known

theorem new_known (fresh : Fresh listed a) (cfg : Config) :
    (BuildFlowScreen.new cfg a).Known listed := by
  refine ⟨?_, fun name bytes picked => by cases picked⟩
  change (if cfg.hostAttr.isSome then DiskList.empty.refreshDisks a.listDisks
    else .empty).Known listed
  split
  · exact fresh.refreshed
  · intro disk member
    cases member

theorem drainBuild_known (known : st.Known listed) (events : List BuildEvent) :
    (st.drainBuild a events).1.Known listed := by
  unfold BuildFlowScreen.drainBuild
  split
  · generalize st.pane.drain events = drained
    obtain ⟨pane, calls, verdict⟩ := drained
    rcases verdict with _ | e | img <;> exact ⟨known.disks, known.picked⟩
  · exact known

theorem drainFlash_known (known : st.Known listed) (events : List FlashEvent) :
    (st.drainFlash events).1.Known listed := by
  unfold BuildFlowScreen.drainFlash
  split
  · generalize Flash.foldEvents st.gaugeTitle st.progress events = folded
    obtain ⟨title, progress, calls, verdict⟩ := folded
    rcases verdict with _ | e | msg <;> exact ⟨known.disks, known.picked⟩
  · exact known

end BuildFlash

/-! ## The Verify screen -/

namespace Verify

variable {listed : Disk → Prop} {st : VerifyScreen} {a : Answers}

structure VerifyScreen.Known (listed : Disk → Prop) (st : VerifyScreen) : Prop where
  disks : st.toDiskList.Known listed
  pending : ∀ dev, st.pendingDev = some dev → Leads listed dev

def VerifyJob.Allowed (listed : Disk → Prop) : VerifyJob → Prop
  | .image _ => True
  | .install dev _ _ => Leads listed dev

abbrev Vouches (listed : Disk → Prop) (a : Answers) (turn : VerifyTurn) : Prop :=
  Vouched (Fresh listed a) (VerifyScreen.Known listed) (VerifyJob.Allowed listed) turn.next
    turn.spawned

theorem armInstall_vouched (st : VerifyScreen) (known : st.Known listed) {dev : String}
    (leads : Leads listed dev) (elev : Elevation) :
    Vouches listed a (st.armInstall a dev elev) :=
  Vouched.arms ⟨known.disks, known.pending⟩ leads

theorem devices_vouched (known : st.Known listed) (key : KeyCode) :
    Vouches listed a (onKeyDevices a st key) := by
  unfold onKeyDevices
  split
  · exact Vouched.home
  · exact Vouched.stay ⟨known.disks, known.pending⟩
  · exact Vouched.stay ⟨known.disks, known.pending⟩
  · exact Vouched.stay ⟨known.disks, known.pending⟩
  · exact Vouched.stay ⟨known.disks, known.pending⟩
  · exact Vouched.refreshes fun fresh => ⟨fresh.refreshed, known.pending⟩
  · cases selected : st.selectedDisk with
    | none => exact Vouched.stay known
    | some disk =>
        have leads : Leads listed disk.devPath := ⟨disk, known.disks.selected selected, rfl⟩
        dsimp only
        cases preflight a.privileges with
        | root => exact armInstall_vouched st known leads .root
        | needsSudo =>
            refine Vouched.stay ⟨known.disks, ?_⟩
            intro dev pending
            cases pending
            exact leads
        | noSudo => exact armInstall_vouched st known leads .root
  · exact Vouched.stay known

theorem submit_vouched (known : st.Known listed) (buf : String) (error : Option String) :
    Vouches listed a (submitSudo a st buf error) := by
  have shown : VerifyScreen.Known listed { st with phase := .sudoPass "" error } :=
    ⟨known.disks, known.pending⟩
  unfold submitSudo
  dsimp only
  cases authenticate buf a.sudo with
  | ok elev =>
      dsimp only
      split
      · rename_i dev pending
        exact armInstall_vouched { st with phase := .sudoPass "" error } shown
          (known.pending dev pending) elev
      · exact Vouched.stay shown
  | wrong => exact Vouched.stay ⟨known.disks, known.pending⟩
  | missing =>
      dsimp only
      split
      · rename_i dev pending
        exact armInstall_vouched { st with phase := .sudoPass "" error } shown
          (known.pending dev pending) .root
      · exact Vouched.stay shown
  | error e => exact Vouched.stay ⟨known.disks, known.pending⟩

theorem scrollKey_known (known : st.Known listed) (key : KeyCode) :
    (st.scrollKey key).Known listed := by
  unfold VerifyScreen.scrollKey
  split <;> exact ⟨known.disks, known.pending⟩

theorem onKey_vouched (a : Answers) (known : st.Known listed) (key : KeyCode) :
    Vouches listed a (onKey a st key) := by
  unfold onKey
  cases st.phase with
  | devices => exact devices_vouched known key
  | sudoPass buf error =>
      cases key with
      | enter => exact submit_vouched known buf error
      | esc | backspace | char c => exact Vouched.stay ⟨known.disks, known.pending⟩
      | delete | up | down | pageUp | pageDown | «end» | other => exact Vouched.stay known
  | running =>
      dsimp only
      split
      · exact Vouched.stay ⟨known.disks, known.pending⟩
      · exact Vouched.stay (scrollKey_known known key)
  | done ok =>
      dsimp only
      split
      · exact Vouched.home
      · exact Vouched.home
      · exact Vouched.stay (scrollKey_known known key)

theorem empty_known (mode : VerifyMode) : (VerifyScreen.empty mode).Known listed where
  disks disk member := by cases member
  pending dev pending := by cases pending

theorem newImage_known (configDir : String) :
    (VerifyScreen.newImage configDir a).1.Known listed := by
  have empty : (VerifyScreen.empty .image).Known listed := empty_known .image
  unfold VerifyScreen.newImage
  dsimp only
  split <;> exact ⟨empty.disks, empty.pending⟩

theorem newInstall_known (fresh : Fresh listed a) (configDir : String) :
    (VerifyScreen.newInstall configDir a).Known listed :=
  ⟨fresh.refreshed, fun dev pending => by cases pending⟩

theorem drainEvents_known (known : st.Known listed)
    (events : List Nixnas.Tui.Verify.VerifyEvent) : (st.drainEvents events).1.Known listed := by
  unfold VerifyScreen.drainEvents
  split
  · generalize foldEvents (stepNames st.mode) st.toFindings events = folded
    obtain ⟨panes, calls, verdict⟩ := folded
    rcases verdict with _ | e | msg <;> exact ⟨known.disks, known.pending⟩
  · exact known

end Verify

/-! ## The application -/

def Worker.dev : Worker → Option String
  | .build _ => none
  | .flash job => some job.dev

def Verify.VerifyJob.dev : VerifyJob → Option String
  | .image _ => none
  | .install dev _ _ => some dev

theorem Worker.Allowed.leads {listed : Disk → Prop} {worker : Worker}
    (allowed : worker.Allowed listed) : ∀ dev, worker.dev = some dev → Leads listed dev := by
  intro dev isDev
  cases worker with
  | build job => cases isDev
  | flash job =>
      obtain ⟨disk, isListed, same, _⟩ := allowed
      exact ⟨disk, isListed, (Option.some.inj isDev).symm.trans same⟩

theorem Verify.VerifyJob.Allowed.leads {listed : Disk → Prop} {job : VerifyJob}
    (allowed : job.Allowed listed) : ∀ dev, job.dev = some dev → Leads listed dev := by
  intro dev isDev
  cases job with
  | image image => cases isDev
  | install other image elev =>
      cases isDev
      exact allowed

section Loop

variable {Configure : Type} {listed : Disk → Prop} {app next : App Configure VerifyScreen}
  {a : Answers} (configDir : String)

structure App.Known (listed : Disk → Prop) (app : App Configure VerifyScreen) : Prop where
  buildflash : ∀ st, app.buildflash = some st → st.Known listed
  flash : ∀ st, app.flash = some st → st.Known listed
  verify : ∀ st, app.verify = some st → st.Known listed

/-- The device of the worker that the screen on display spawns on the key. -/
def App.target (a : Answers) (app : App Configure VerifyScreen) (key : KeyCode) : Option String :=
  match app.screen with
  | .home | .configure | .build => none
  | .buildFlash => app.buildflash.bind fun st =>
      (BuildFlash.onKey configDir app.cfg a st key).spawned.bind Worker.dev
  | .flash => app.flash.bind fun st => (Flash.onKey configDir a st key).spawned.bind Worker.dev
  | .verify => app.verify.bind fun st => (Verify.onKey a st key).spawned.bind Verify.VerifyJob.dev

theorem target_leads (known : app.Known listed) {key : KeyCode} {dev : String}
    (target : app.target configDir a key = some dev) : Leads listed dev := by
  unfold App.target at target
  cases shown : app.screen with
  | home | configure | build =>
      rw [shown] at target
      cases target
  | buildFlash =>
      rw [shown] at target
      obtain ⟨st, slot, spawned⟩ := Option.bind_eq_some_iff.mp target
      obtain ⟨worker, isSpawned, isDev⟩ := Option.bind_eq_some_iff.mp spawned
      have vouched := BuildFlash.onKey_vouched configDir a (known.buildflash st slot) app.cfg key
      exact (vouched.spawns worker isSpawned).leads dev isDev
  | flash =>
      rw [shown] at target
      obtain ⟨st, slot, spawned⟩ := Option.bind_eq_some_iff.mp target
      obtain ⟨worker, isSpawned, isDev⟩ := Option.bind_eq_some_iff.mp spawned
      have vouched := Flash.onKey_vouched configDir a (known.flash st slot) key
      exact (vouched.spawns worker isSpawned).leads dev isDev
  | verify =>
      rw [shown] at target
      obtain ⟨st, slot, spawned⟩ := Option.bind_eq_some_iff.mp target
      obtain ⟨job, isSpawned, isDev⟩ := Option.bind_eq_some_iff.mp spawned
      have vouched := Verify.onKey_vouched a (known.verify st slot) key
      exact (vouched.spawns job isSpawned).leads dev isDev

/-! ## Keys -/

/-- The slots of the three screens are as they were. -/
theorem App.Known.frame (known : app.Known listed) (buildflash : next.buildflash = app.buildflash)
    (flash : next.flash = app.flash) (verify : next.verify = app.verify) : next.Known listed where
  buildflash st slot := known.buildflash st (buildflash ▸ slot)
  flash st slot := known.flash st (flash ▸ slot)
  verify st slot := known.verify st (verify ▸ slot)

variable (configure : ConfigureModel Configure)

theorem openEntry_known (known : app.Known listed) (fresh : Fresh listed a) :
    (app.openEntry (configure.others configDir) configDir a).Known listed := by
  unfold App.openEntry
  split
  · exact known.frame rfl rfl rfl
  · refine ⟨?_, known.flash, known.verify⟩
    intro st slot
    rw [← Option.some.inj slot]
    split
    · rename_i shown slot
      split
      · exact known.buildflash shown slot
      · exact BuildFlash.new_known fresh app.cfg
    · exact BuildFlash.new_known fresh app.cfg
  · exact known.frame rfl rfl rfl
  · refine ⟨known.buildflash, ?_, known.verify⟩
    intro st slot
    rw [← Option.some.inj slot]
    split
    · rename_i shown slot
      split
      · exact known.flash shown slot
      · exact Flash.new_known configDir fresh
    · exact Flash.new_known configDir fresh
  · split
    · exact known.frame rfl rfl rfl
    · refine ⟨known.buildflash, known.flash, ?_⟩
      intro st slot
      rw [← Option.some.inj slot]
      exact Verify.newImage_known configDir
  · split
    · exact known.frame rfl rfl rfl
    · refine ⟨known.buildflash, known.flash, ?_⟩
      intro st slot
      rw [← Option.some.inj slot]
      exact Verify.newInstall_known fresh configDir
  · unfold App.requestQuit
    split <;> exact known.frame rfl rfl rfl

theorem homeKey_known (known : app.Known listed) (fresh : Fresh listed a) (key : KeyCode) :
    (app.homeKey (configure.others configDir) configDir a key).Known listed := by
  unfold App.homeKey
  split
  · unfold App.exitPromptKey
    split <;> exact known.frame rfl rfl rfl
  · split
    · exact known.frame rfl rfl rfl
    · exact known.frame rfl rfl rfl
    · exact known.frame rfl rfl rfl
    · exact known.frame rfl rfl rfl
    · unfold App.requestQuit
      split <;> exact known.frame rfl rfl rfl
    · exact openEntry_known configDir configure known fresh
    · exact known

/-- A turn of the screen in one slot, when a known screen may be put there. -/
theorem takeTurn_known {S : Type} {put : App Configure VerifyScreen → Option S →
      App Configure VerifyScreen} {turn : Turn S} {spawned : Option Worker}
    (reacts : app.takeTurn a put turn = .ok (next, spawned))
    (stays : ∀ st, turn.next = .stay st → (put (app.logged a turn.calls) (some st)).Known listed)
    (leaves : (put (app.logged a turn.calls) none).Known listed) : next.Known listed := by
  obtain ⟨_, ⟨st, shown, rfl⟩ | ⟨_, rfl⟩⟩ := takeTurn_ok reacts
  · exact stays st shown
  · exact leaves.frame rfl rfl rfl

theorem App.onKey_known (known : app.Known listed) (fresh : Fresh listed a) {key : KeyCode}
    {control : Bool} {spawned : Option Worker}
    (reacts : app.onKey (configure.others configDir) configDir a key control =
      .ok (next, spawned)) : next.Known listed := by
  unfold App.onKey at reacts
  split at reacts
  · cases reacts
    exact known.frame rfl rfl rfl
  unfold App.screenKey at reacts
  split at reacts
  · cases reacts
    exact homeKey_known configDir configure known fresh key
  · split at reacts
    · cases reacts
      exact known
    · refine takeTurn_known reacts ?_ ?_
      · exact fun _ _ => known.frame rfl rfl rfl
      · exact known.frame rfl rfl rfl
  · split at reacts
    · cases reacts
      exact known
    · rename_i st slot
      refine takeTurn_known reacts ?_ ?_
      · intro shown stays
        refine ⟨fun other same => ?_, known.flash, known.verify⟩
        have vouched := BuildFlash.onKey_vouched configDir a (known.buildflash st slot) app.cfg key
        rw [← Option.some.inj same]
        exact vouched.stays fresh shown stays
      · exact ⟨fun _ none_ => (by cases none_), known.flash, known.verify⟩
  · split at reacts
    · cases reacts
      exact known
    · refine takeTurn_known reacts ?_ ?_
      · exact fun _ _ => known.frame rfl rfl rfl
      · exact known.frame rfl rfl rfl
  · split at reacts
    · cases reacts
      exact known
    · rename_i st slot
      refine takeTurn_known reacts ?_ ?_
      · intro shown stays
        refine ⟨known.buildflash, fun other same => ?_, known.verify⟩
        have vouched := Flash.onKey_vouched configDir a (known.flash st slot) key
        rw [← Option.some.inj same]
        exact vouched.stays fresh shown stays
      · exact ⟨known.buildflash, fun _ none_ => (by cases none_), known.verify⟩
  · split at reacts
    · cases reacts
      exact known
    · rename_i st slot
      refine takeTurn_known reacts ?_ ?_
      · intro shown stays
        refine ⟨known.buildflash, known.flash, fun other same => ?_⟩
        have vouched := Verify.onKey_vouched a (known.verify st slot) key
        rw [← Option.some.inj same]
        exact vouched.stays fresh shown stays
      · exact ⟨known.buildflash, known.flash, fun _ none_ => (by cases none_)⟩

/-! ## Drains -/

theorem pull_known (known : app.Known listed) {events : List WorkerEvent} {receiver : Receiver}
    {calls : List LogCall} (pulled : app.pull a events receiver = some (next, calls)) :
    next.Known listed := by
  unfold App.pull at pulled
  split at pulled
  · obtain ⟨st, held, same⟩ := Option.map_eq_some_iff.mp pulled
    cases same
    refine ⟨fun other slot => ?_, known.flash, known.verify⟩
    have shown := known.buildflash st (Option.eq_some_of_filter_eq_some held)
    rw [← Option.some.inj slot]
    exact BuildFlash.drainBuild_known shown _
  · obtain ⟨st, held, same⟩ := Option.map_eq_some_iff.mp pulled
    cases same
    refine ⟨fun other slot => ?_, known.flash, known.verify⟩
    have shown := known.buildflash st (Option.eq_some_of_filter_eq_some held)
    rw [← Option.some.inj slot]
    exact BuildFlash.drainFlash_known shown _
  · obtain ⟨st, held, same⟩ := Option.map_eq_some_iff.mp pulled
    cases same
    exact known.frame rfl rfl rfl
  · obtain ⟨st, held, same⟩ := Option.map_eq_some_iff.mp pulled
    cases same
    refine ⟨known.buildflash, fun other slot => ?_, known.verify⟩
    have shown := known.flash st (Option.eq_some_of_filter_eq_some held)
    rw [← Option.some.inj slot]
    exact Flash.drainEvents_known shown _
  · obtain ⟨st, held, same⟩ := Option.map_eq_some_iff.mp pulled
    cases same
    refine ⟨known.buildflash, known.flash, fun other slot => ?_⟩
    have shown := known.verify st (Option.eq_some_of_filter_eq_some held)
    rw [← Option.some.inj slot]
    exact Verify.drainEvents_known shown _

/-! ## Runs -/

/-- What `list_disks` answers during a key. -/
def SessionEvent.lists : SessionEvent → Option (Except String (List Disk))
  | .key a _ _ _ => some a.listDisks
  | .drain _ _ | .picked _ | .send _ _ => none

/-- One of the answers lists the disk. -/
def ListedIn (events : List SessionEvent) (disk : Disk) : Prop :=
  ∃ event ∈ events, ∃ disks, event.lists = some (.ok disks) ∧ disk ∈ disks

theorem drainReceiver_known {s : Session Configure} (known : s.app.Known listed) (writes : Nat)
    (receiver : Receiver) : (s.drainReceiver a writes receiver).app.Known listed := by
  unfold Session.drainReceiver
  split
  · exact known
  · split
    · exact known
    · split
      · exact known
      · rename_i pulled
        exact pull_known known pulled

theorem drain_known {s : Session Configure} (known : s.app.Known listed) (writes : Receiver → Nat)
    (order : List Receiver) :
    (order.foldl (fun s receiver => s.drainReceiver a (writes receiver) receiver) s).app.Known
      listed := by
  induction order generalizing s with
  | nil => exact known
  | cons receiver rest ih => exact ih (drainReceiver_known known (writes receiver) receiver)

theorem spawn_app (s : Session Configure) (receiver : Option Receiver) :
    (s.spawn receiver).app = s.app := by
  cases receiver <;> rfl

theorem Session.onKey_known {s : Session Configure} (known : s.app.Known listed)
    (fresh : Fresh listed a) (writes : Nat) (key : KeyCode) (control : Bool) :
    (s.onKey configure configDir a writes key control).app.Known listed := by
  unfold Session.onKey
  split
  · exact known
  · rename_i app spawned reacts
    have shown : app.Known listed := App.onKey_known configDir configure known fresh reacts
    split
    · exact shown
    · dsimp only
      rw [spawn_app]
      exact shown

theorem step_known {events : List SessionEvent} {event : SessionEvent} (member : event ∈ events)
    {s after : Session Configure} (known : s.app.Known (ListedIn events))
    (taken : Session.step configure configDir s event = some after) :
    after.app.Known (ListedIn events) := by
  unfold Session.step at taken
  split at taken
  · cases taken
  · cases event with
    | key a writes key control =>
        dsimp only at taken
        split at taken
        · cases taken
        · cases taken
          refine Session.onKey_known configDir configure known ?_ writes key control
          intro disks answered disk isListed
          exact ⟨_, member, disks, congrArg some answered, isListed⟩
    | drain a writes =>
        dsimp only at taken
        split at taken
        · cases taken
        · cases taken
          exact drain_known known writes receivers
    | picked a =>
        cases taken
        exact known.frame rfl rfl rfl
    | send id event =>
        obtain ⟨thread, found, sent⟩ := Option.bind_eq_some_iff.mp taken
        split at sent
        · cases sent
          exact known
        · cases sent

theorem start_known (cfg : Config) : (Session.start cfg : Session Configure).app.Known listed where
  buildflash _ none_ := by cases none_
  flash _ none_ := by cases none_
  verify _ none_ := by cases none_

/-- Whatever the operator presses and the workers send: the device that a worker
is spawned on is a disk as a whole, which an output of lsblk named at the top in
this session. -/
theorem targets_listed (refusal : Json → String) (cfg : Config) (events : List SessionEvent)
    (s : Session Configure)
    (ran : Machine.replay (Session.step configure configDir) (.start cfg) events = some s)
    (reads : ∀ event ∈ events, ∀ answer, event.lists = some answer →
      ∃ run, answer = listDisks refusal run)
    (a : Answers) (key : KeyCode) (dev : String)
    (target : s.app.target configDir a key = some dev) :
    ∃ event ∈ events, ∃ json disk,
      event.lists = some (listDisks refusal (.output (.ok json))) ∧ Lists json disk ∧
        dev = disk.devPath := by
  have known : s.app.Known (ListedIn events) :=
    Machine.replay_keeps events (fun _ _ _ member known taken =>
      step_known configDir configure member known taken) _ s (start_known cfg) ran
  obtain ⟨disk, ⟨event, member, disks, answered, isListed⟩, isDev⟩ :=
    target_leads configDir known target
  obtain ⟨run, same⟩ := reads event member _ answered
  obtain ⟨json, isOutput, lists⟩ := lists_of_listDisks same.symm isListed
  refine ⟨event, member, json, disk, ?_, lists, isDev⟩
  rw [answered, same, isOutput]

end Loop

/-- As root, with an image and one stick that an older lsblk prints. -/
def stickAnswers : Answers :=
  { Process.plainAnswers with
    listDisks := listDisks (fun _ => "") (.output (.ok quotedStick))
    privileges := ⟨some "0\n", false⟩
    listing := some ["nixnas.raw"]
    imageLen := .ok 128 }

/-- HOME, the Flash entry, the stick, no backup, and its name. -/
def flashSession : List SessionEvent :=
  [.down, .down, .down, .enter, .enter, .enter, .char 'n', .char 's', .char 'd', .char 'a'].map
    (.key stickAnswers 0 · false)

theorem targets_listed_stick :
    ∃ event ∈ flashSession, ∃ json disk,
      event.lists = some (listDisks (fun _ => "") (.output (.ok json))) ∧ Lists json disk ∧
        "/dev/sda" = disk.devPath := by
  have run : (Machine.replay (Session.step plainConfigure "") (.start .plain) flashSession).map
      (fun s => s.app.target "" stickAnswers .enter) = some (some "/dev/sda") := by decide
  obtain ⟨s, replayed, target⟩ := Option.map_eq_some_iff.mp run
  refine targets_listed "" plainConfigure (fun _ => "") .plain flashSession s replayed ?_
    stickAnswers .enter "/dev/sda" target
  intro event member answer isAnswer
  obtain ⟨key, -, rfl⟩ := List.mem_map.mp member
  exact ⟨.output (.ok quotedStick), (Option.some.inj isAnswer).symm⟩

end Nixnas.Ui
