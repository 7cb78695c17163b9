import Nixnas.Ui.FlashGate

/-!
# The store passphrase of a flash

What the operator submits in the store-passphrase prompt, recorded beside the
Flash screen: the device that the prompt was shown for and the text typed there,
since the device list was last left, and the last text of the passes before.

The screen keeps the passphrase in a field that only a flash and another
submission empty.  Going back to the list does not, and a device that needs no
growing is not asked about it, so such a device can be armed with a passphrase
that was typed for another one.
-/

set_option autoImplicit false

namespace Nixnas.Ui.Flash

open Nixnas.Logic
open Nixnas.Rust
open Nixnas.Tui.Flash
open Nixnas.Tui.Sudo

/-! ## The operator's view -/

inductive PassView where
  /-- The device list; a pass starts when it is left. -/
  | list
  /-- The store-passphrase prompt, with the device it is shown for. -/
  | prompt (shown : Option String)
  | elsewhere
  deriving DecidableEq, Repr

structure PassRecord where
  /-- The text typed since the prompt was opened. -/
  typed : String
  /-- The device and the text of the last submission in this pass. -/
  submitted : Option (String × String)
  /-- The text of the last submission before this pass, empty if there was none. -/
  earlier : String
  deriving DecidableEq, Repr

def PassRecord.fresh : PassRecord := ⟨"", none, ""⟩

/-- The text of the last submission in any pass. -/
def PassRecord.last (r : PassRecord) : String := (r.submitted.map Prod.snd).getD r.earlier

def PassRecord.key (r : PassRecord) (view : PassView) (key : KeyCode) : PassRecord :=
  match view with
  | .list => ⟨"", none, r.last⟩
  | .prompt shown =>
      match key with
      | .char c => { r with typed := r.typed.push c }
      | .backspace => { r with typed := pop r.typed }
      | .enter => { r with typed := "", submitted := shown.map fun name => (name, r.typed) }
      | _ => r
  | .elsewhere => { r with typed := "" }

def FlashScreen.passView (st : FlashScreen) : PassView :=
  match st.phase with
  | .devices => .list
  | .storePass _ => .prompt (st.selectedDisk.map Disk.name)
  | _ => .elsewhere

namespace Passphrases

abbrev Label := Answers × Input (List FlashEvent)

variable (configDir : String)

/-- The screen and the record, under any keys, events and answers. -/
def step (s : FlashScreen × PassRecord) : Label → Option (FlashScreen × PassRecord)
  | (a, .key key) =>
      match (onKey configDir a s.1 key).next with
      | .stay st => some (st, s.2.key s.1.passView key)
      | _ => none
  | (_, .drain events) => some ((s.1.drainEvents events).1, s.2)

def opened (s : FlashScreen × PassRecord) : Prop :=
  ∃ a, s = (FlashScreen.new configDir a, PassRecord.fresh)

def machine : Machine (FlashScreen × PassRecord) Label := .ofStep (opened configDir) (step configDir)

/-- The worker gets a store passphrase only for a device that grows, and it is what
was submitted for that device in this pass. -/
def Fresh (r : PassRecord) (job : FlashJob) : Prop :=
  ∀ pass, job.storePass = some pass → job.grow = true ∧ pass ≠ "" ∧
    ∃ name, r.submitted = some (name, pass) ∧ job.dev = "/dev/" ++ name

/-! ## What the screen holds -/

/-- The screen keeps the last submission of any pass, unless it is empty. -/
def Held (st : FlashScreen) (r : PassRecord) : Prop :=
  st.storePass = if r.last.isEmpty then none else some r.last

/-- What was submitted in this pass was submitted for the selected disk, which grows. -/
def Ours (st : FlashScreen) (r : PassRecord) : Prop :=
  ∀ name text, r.submitted = some (name, text) →
    st.growsToFill = true ∧ ∃ disk, st.selectedDisk = some disk ∧ disk.name = name

/-- How the screen and the record go together. -/
def Follows (st : FlashScreen) (r : PassRecord) : Prop :=
  match st.phase with
  | .devices => Held st r
  | .storePass buf => Held st r ∧ Ours st r ∧ r.typed = buf ∧ st.growsToFill = true
  | .summary | .backupAsk | .confirm _ _ | .sudoPass _ _ => Held st r ∧ Ours st r
  | .running | .done _ => True

theorem selected_of_grows {st : FlashScreen} (grows : st.growsToFill = true) :
    st.selectedDisk.isSome = true := by
  cases selected : st.selectedDisk with
  | none => simp [FlashScreen.growsToFill, selected] at grows
  | some disk => rfl

/-- A turn that keeps the record `r`. -/
def Keeps (r : PassRecord) (turn : Turn FlashScreen) : Prop :=
  ∀ st, turn.next = .stay st → Follows st r

theorem Keeps.stay {r : PassRecord} {st : FlashScreen} (follows : Follows st r) :
    Keeps r (.stay st) := by
  intro next stays
  cases stays
  exact follows

theorem Keeps.home {r : PassRecord} : Keeps r .home := fun _ stays => by cases stays

section Keys

variable {configDir} {st : FlashScreen} {r : PassRecord} (a : Answers)

theorem keeps_devices (at_ : st.phase = .devices) (held : Held st r) (key : KeyCode) :
    Keeps (r.key .list key) (onKeyDevices a st key) := by
  have same : ∀ list : DiskList, Follows { st with toDiskList := list } (r.key .list key) := by
    intro list
    simp only [Follows, at_]
    exact held
  unfold onKeyDevices
  split
  · exact Keeps.home
  · exact Keeps.stay (same _)
  · exact Keeps.stay (same _)
  · exact Keeps.stay (same _)
  · exact Keeps.stay (same _)
  · exact Keeps.stay (same _)
  · refine Keeps.stay ?_
    split
    · exact ⟨held, fun _ _ impossible => by cases impossible⟩
    · exact same st.toDiskList
  · exact Keeps.stay (same st.toDiskList)

theorem keeps_summary (at_ : st.phase = .summary) (held : Held st r) (ours : Ours st r)
    (key : KeyCode) : Keeps r (onKeySummary st key) := by
  have same : Follows st r := by
    simp only [Follows, at_]
    exact ⟨held, ours⟩
  unfold onKeySummary
  split
  · exact Keeps.stay held
  · refine Keeps.stay ?_
    split
    · exact ⟨held, ours⟩
    · exact same
  · exact Keeps.stay same

theorem keeps_backupAsk (at_ : st.phase = .backupAsk) (held : Held st r) (ours : Ours st r)
    (empty : r.typed = "") (key : KeyCode) : Keeps r (onKeyBackupAsk st key) := by
  have answered : ∀ backup, Follows (st.answerBackup backup) r := by
    intro backup
    unfold FlashScreen.answerBackup
    split
    · rename_i grows
      exact ⟨held, ours, empty, grows⟩
    · exact ⟨held, ours⟩
  have same : Follows st r := by
    simp only [Follows, at_]
    exact ⟨held, ours⟩
  unfold onKeyBackupAsk
  split
  · exact Keeps.stay ⟨held, ours⟩
  · exact Keeps.stay (answered true)
  · exact Keeps.stay (answered true)
  · exact Keeps.stay (answered false)
  · exact Keeps.stay (answered false)
  · exact Keeps.stay same

/-- The submission is what the screen keeps from then on. -/
theorem keeps_storePass {buf : String} (at_ : st.phase = .storePass buf)
    (follows : Follows st r) (key : KeyCode) :
    Keeps (r.key (.prompt (st.selectedDisk.map Disk.name)) key) (onKeyStorePass st buf key) := by
  simp only [Follows, at_] at follows
  obtain ⟨held, ours, typed, grows⟩ := follows
  obtain ⟨disk, isDisk⟩ := Option.isSome_iff_exists.mp (selected_of_grows grows)
  cases key with
  | esc => exact Keeps.stay ⟨held, ours⟩
  | enter =>
      have submitted : (r.key (.prompt (st.selectedDisk.map Disk.name)) .enter).submitted =
          some (disk.name, buf) := by
        change (st.selectedDisk.map Disk.name).map (fun name => (name, r.typed)) = _
        rw [isDisk, typed, Option.map_some, Option.map_some]
      refine Keeps.stay ⟨?_, ?_⟩
      · unfold Held PassRecord.last
        rw [submitted]
        rfl
      · intro name text same
        rw [submitted] at same
        cases same
        exact ⟨grows, disk, isDisk, rfl⟩
  | backspace => exact Keeps.stay ⟨held, ours, congrArg pop typed, grows⟩
  | char c => exact Keeps.stay ⟨held, ours, congrArg (String.push · c) typed, grows⟩
  | delete | up | down | pageUp | pageDown | «end» | other =>
      refine Keeps.stay ?_
      simp only [Follows, at_]
      exact ⟨held, ours, typed, grows⟩

/-- Past the prompts the phase is one of the two that lead to a flash. -/
def Arming (phase : Phase) : Prop :=
  (∃ typed error, phase = .confirm typed error) ∨ ∃ buf error, phase = .sudoPass buf error

theorem follows_of_held (held : Held st r) (ours : Ours st r) (arming : Arming st.phase) :
    Follows st r := by
  rcases arming with ⟨typed, error, at_⟩ | ⟨buf, error, at_⟩
  · simp only [Follows, at_]
    exact ⟨held, ours⟩
  · simp only [Follows, at_]
    exact ⟨held, ours⟩

theorem keeps_arm (elev : Elevation) (held : Held st r) (ours : Ours st r)
    (arming : Arming st.phase) : Keeps r (st.arm configDir a elev) := by
  unfold FlashScreen.arm
  split
  · exact Keeps.stay (follows_of_held held ours arming)
  · split
    · intro next stays
      cases stays
    · intro next stays
      cases stays
      exact trivial

theorem keeps_submit {typed : String} {error : Option String} (held : Held st r)
    (ours : Ours st r) : Keeps r (submitConfirm configDir a st typed error) := by
  unfold submitConfirm
  split
  · exact Keeps.stay ⟨held, ours⟩
  · split
    · split
      · exact keeps_arm a .root held ours (.inl ⟨"", error, rfl⟩)
      · exact Keeps.stay ⟨held, ours⟩
      · exact Keeps.stay trivial
    · exact Keeps.stay ⟨held, ours⟩

theorem keeps_confirm {typed : String} {error : Option String}
    (at_ : st.phase = .confirm typed error) (held : Held st r) (ours : Ours st r)
    (key : KeyCode) : Keeps r (onKeyConfirm configDir a st typed error key) := by
  have same : Follows st r := follows_of_held held ours (.inl ⟨typed, error, at_⟩)
  cases key with
  | esc => exact Keeps.stay ⟨held, ours⟩
  | backspace => exact Keeps.stay ⟨held, ours⟩
  | char c => exact Keeps.stay ⟨held, ours⟩
  | enter => exact keeps_submit a held ours
  | delete | up | down | pageUp | pageDown | «end» | other => exact Keeps.stay same

theorem keeps_sudoPass {buf : String} {error : Option String}
    (at_ : st.phase = .sudoPass buf error) (held : Held st r) (ours : Ours st r)
    (key : KeyCode) : Keeps r (onKeySudoPass configDir a st buf error key) := by
  have same : Follows st r := follows_of_held held ours (.inr ⟨buf, error, at_⟩)
  cases key with
  | esc => exact Keeps.stay ⟨held, ours⟩
  | backspace => exact Keeps.stay ⟨held, ours⟩
  | char c => exact Keeps.stay ⟨held, ours⟩
  | enter =>
      rw [onKeySudoPass]
      split
      · exact keeps_arm a _ held ours (.inr ⟨"", error, rfl⟩)
      · exact Keeps.stay ⟨held, ours⟩
      · exact Keeps.stay trivial
      · exact Keeps.stay trivial
  | delete | up | down | pageUp | pageDown | «end» | other => exact Keeps.stay same

/-- A key outside the prompt and the list leaves the submissions as they are. -/
theorem held_elsewhere (held : Held st r) (key : KeyCode) : Held st (r.key .elsewhere key) := held

theorem ours_elsewhere (ours : Ours st r) (key : KeyCode) : Ours st (r.key .elsewhere key) := ours

theorem keeps_onKey (follows : Follows st r) (key : KeyCode) :
    Keeps (r.key st.passView key) (onKey configDir a st key) := by
  unfold onKey FlashScreen.passView
  cases at_ : st.phase with
  | devices =>
      simp only [Follows, at_] at follows
      exact keeps_devices a at_ follows key
  | summary =>
      simp only [Follows, at_] at follows
      exact keeps_summary at_ (held_elsewhere follows.1 key) (ours_elsewhere follows.2 key) key
  | backupAsk =>
      simp only [Follows, at_] at follows
      exact keeps_backupAsk at_ (held_elsewhere follows.1 key) (ours_elsewhere follows.2 key) rfl key
  | storePass buf => exact keeps_storePass at_ follows key
  | confirm typed error =>
      simp only [Follows, at_] at follows
      exact keeps_confirm a at_ (held_elsewhere follows.1 key) (ours_elsewhere follows.2 key) key
  | sudoPass buf error =>
      simp only [Follows, at_] at follows
      exact keeps_sudoPass a at_ (held_elsewhere follows.1 key) (ours_elsewhere follows.2 key) key
  | running =>
      refine Keeps.stay ?_
      simp only [Follows, at_]
  | done ok =>
      simp only
      split
      · exact Keeps.home
      · exact Keeps.home
      · refine Keeps.stay ?_
        simp only [Follows, at_]

end Keys

theorem follows_drain {st : FlashScreen} {r : PassRecord} (follows : Follows st r)
    (events : List FlashEvent) : Follows (st.drainEvents events).1 r := by
  rcases drainEvents_cases st events with ⟨-, title, progress, same⟩ | ⟨-, -, ok, ended⟩
  · rw [same]
    exact follows
  · simp only [Follows, ended]

theorem follows_reachable {configDir : String} {s : FlashScreen × PassRecord}
    (reached : (machine configDir).Reachable s) : Follows s.1 s.2 := by
  have every : ∀ s, (machine configDir).Reachable s → Follows s.1 s.2 := by
    apply Machine.invariant
    · rintro _ ⟨a, rfl⟩
      unfold FlashScreen.new
      simp only
      split
      · exact rfl
      · exact trivial
    · rintro ⟨st, r⟩ ⟨a, input⟩ next _ follows taken
      cases input with
      | key key =>
          change (match (onKey configDir a st key).next with
            | .stay st' => some (st', r.key st.passView key)
            | _ => none) = some next at taken
          split at taken
          · rename_i stays
            cases taken
            exact keeps_onKey a follows key _ stays
          · cases taken
      | drain events =>
          cases taken
          exact follows_drain follows events
  exact every s reached

/-! ## The passphrase of a flash -/

/-- What the screen holds when a key spawns a flash. -/
theorem held_of_spawned {configDir : String} {st : FlashScreen} {r : PassRecord}
    (reached : (machine configDir).Reachable (st, r)) {a : Answers} {key : KeyCode}
    {job : FlashJob} (spawned : (onKey configDir a st key).spawned = some (.flash job)) :
    Held st r ∧ Ours st r ∧ st.passView = .elsewhere := by
  have follows := follows_reachable reached
  obtain ⟨_, _, _, _, _, _, _, _, how⟩ := spawned_cases configDir a spawned
  rcases how with ⟨typed, error, at_, -⟩ | ⟨buf, error, at_, -⟩
  · simp only [Follows, at_] at follows
    exact ⟨follows.1, follows.2, by simp only [FlashScreen.passView, at_]⟩
  · simp only [Follows, at_] at follows
    exact ⟨follows.1, follows.2, by simp only [FlashScreen.passView, at_]⟩

/-- Whenever a flash is spawned, its store passphrase is one that was submitted for
its device in the same pass, exactly when the prompt was answered in this pass or no
text is left over from the last answer before it. -/
theorem fresh_iff (configDir : String) (st : FlashScreen) (r : PassRecord)
    (reached : (machine configDir).Reachable (st, r)) (a : Answers) (key : KeyCode)
    (job : FlashJob) (spawned : (onKey configDir a st key).spawned = some (.flash job)) :
    Fresh (r.key st.passView key) job ↔ r.submitted.isSome = true ∨ r.earlier = "" := by
  obtain ⟨held, ours, view⟩ := held_of_spawned reached spawned
  obtain ⟨elev, disk, image, size, selected, -, made, -, -⟩ := spawned_cases configDir a spawned
  cases made
  rw [view]
  cases answered : r.submitted with
  | none =>
      have last : r.last = r.earlier := by rw [PassRecord.last, answered]; rfl
      rw [Held, last] at held
      constructor
      · intro fresh
        by_cases empty : r.earlier = ""
        · exact .inr empty
        · rw [if_neg (by simpa using empty)] at held
          obtain ⟨-, -, name, submitted, -⟩ := fresh r.earlier held
          change r.submitted = some (name, r.earlier) at submitted
          rw [answered] at submitted
          cases submitted
      · rintro (impossible | empty)
        · cases impossible
        · intro pass some
          rw [empty] at held
          cases held.symm.trans some
  | some submission =>
      obtain ⟨name, text⟩ := submission
      obtain ⟨grows, other, same, isName⟩ := ours name text answered
      cases selected.symm.trans same
      have last : r.last = text := by rw [PassRecord.last, answered]; rfl
      rw [Held, last] at held
      refine iff_of_true ?_ (.inl rfl)
      intro pass some
      by_cases empty : text.isEmpty
      · rw [if_pos empty] at held
        cases held.symm.trans some
      · rw [if_neg empty] at held
        cases held.symm.trans some
        refine ⟨grows, by simpa using empty, name, answered, ?_⟩
        rw [← isName]
        rfl

/-! ## A second device -/

/-- As root, with a disk that the image leaves room on and one that it fills. -/
def twoDisks : Answers where
  listDisks := .ok [⟨"sda", some 128, some "usb", true, none, []⟩,
    ⟨"sdb", some 64, some "usb", true, none, []⟩]
  privileges := ⟨some "0\n", false⟩
  «sudo» := .notFound
  beginLog := none
  blockdev := none
  lsblk := none
  listing := some ["nixnas.raw"]
  imageLen := .ok 64
  humanSize n := toString n

def press (keys : List KeyCode) : List Label := keys.map fun key => (twoDisks, .key key)

/-- What the keys lead to from a fresh screen. -/
def after (keys : List KeyCode) : Option (FlashScreen × PassRecord) :=
  Machine.replay (step ".") (FlashScreen.new "." twoDisks, PassRecord.fresh) (press keys)

theorem reachable_after {keys : List KeyCode} {s : FlashScreen × PassRecord}
    (leads : after keys = some s) : (machine ".").Reachable s :=
  .steps (.initial ⟨twoDisks, rfl⟩) (Machine.steps_of_replay (press keys) _ s leads)

def growFirst : List KeyCode :=
  [.enter, .enter, .char 'n', .char 'x', .enter, .char 's', .char 'd', .char 'a']

/-- A passphrase for `sda`, and then back to the list and on to `sdb`. -/
def thenOther : List KeyCode :=
  [.enter, .enter, .char 'n', .char 'x', .enter, .esc, .esc, .down, .enter, .enter, .char 'n',
    .char 's', .char 'd', .char 'b']

/-- The prompt for `sda` is left empty, and `sdb` is flashed. -/
def emptyFirst : List KeyCode :=
  [.enter, .enter, .char 'n', .enter, .esc, .esc, .down, .enter, .enter, .char 'n', .char 's',
    .char 'd', .char 'b']

/-- The confirmation of the selected disk, with the passphrase held. -/
def holding (selected : Nat) (pass : Option String) (typed : String) : FlashScreen :=
  { FlashScreen.new "." twoDisks with
    selected := selected, backup := false, storePass := pass, phase := .confirm typed none }

theorem after_growFirst :
    after growFirst = some (holding 0 (some "x") "sda", ⟨"", some ("sda", "x"), ""⟩) := rfl

theorem after_thenOther :
    after thenOther = some (holding 1 (some "x") "sdb", ⟨"", none, "x"⟩) := rfl

theorem after_emptyFirst : after emptyFirst = some (holding 1 none "sdb", ⟨"", none, ""⟩) := rfl

theorem fresh_runs :
    (∃ job, (onKey "." twoDisks (holding 0 (some "x") "sda") .enter).spawned =
        some (.flash job) ∧ job.storePass = some "x" ∧ Fresh ⟨"", some ("sda", "x"), ""⟩ job) ∧
      ∃ job, (onKey "." twoDisks (holding 1 none "sdb") .enter).spawned = some (.flash job) ∧
        job.storePass = none ∧ Fresh ⟨"", none, ""⟩ job :=
  ⟨⟨_, rfl, rfl, (fresh_iff "." (holding 0 (some "x") "sda") ⟨"", some ("sda", "x"), ""⟩
      (reachable_after after_growFirst) twoDisks .enter _ rfl).mpr (.inl rfl)⟩,
    ⟨_, rfl, rfl, (fresh_iff "." (holding 1 none "sdb") ⟨"", none, ""⟩
      (reachable_after after_emptyFirst) twoDisks .enter _ rfl).mpr (.inr rfl)⟩⟩

/-- `x` was typed for `sda`, and `sdb` is flashed with it. -/
theorem stale_passphrase_not_fresh :
    ¬ ∀ (configDir : String) (st : FlashScreen) (r : PassRecord),
        (machine configDir).Reachable (st, r) → ∀ (a : Answers) (key : KeyCode) (job : FlashJob),
          (onKey configDir a st key).spawned = some (.flash job) →
            Fresh (r.key st.passView key) job := by
  intro fresh
  have isFresh := fresh "." (holding 1 (some "x") "sdb") ⟨"", none, "x"⟩
    (reachable_after after_thenOther) twoDisks .enter _ rfl
  have grows := (isFresh "x" rfl).1
  cases grows

end Passphrases

end Nixnas.Ui.Flash
