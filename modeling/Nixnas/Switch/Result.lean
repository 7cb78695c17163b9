import Nixnas.Switch.InFlight

/-!
# The reported result

`nixnas-switch` deletes the result file of its mode before its own start is
known to succeed, polls the file by name and reads it a second after it saw it.
The verdict of each run is kept beside the system here, so that what a script
reports can be compared with the run it started.  The two agree as long as no
script deletes the result another one is about to report and none starts while
another one of its mode still follows or an earlier result is there.
-/

set_option autoImplicit false

namespace Nixnas.Switch

open Nixnas.Logic

/-- The system, and for each invocation whose `systemd-run` succeeded the report
of its run, once there is one. -/
structure History where
  system : System
  runs : Pid → Option (Option Report)

def record (h : History) : Event → Pid → Option (Option Report)
  | .exec pid =>
      match h.system.procs pid with
      | some inv =>
          if inv.pc = .systemdRun ∧ h.system.loaded inv.mode = false then
            Function.update h.runs pid (some none)
          else h.runs
      | none => h.runs
  | .stcExit id report _ => fun pid =>
      if modes.any fun mode => h.system.units mode = some ⟨pid, .active id⟩ then some (some report)
      else h.runs pid
  | _ => h.runs

def track (h : History) (event : Event) : Option History :=
  (step h.system event).map fun system => ⟨system, record h event⟩

/-- `EXIT_STATUS` is an exit code or the name of a signal. -/
def Report.Documented (report : Report) : Prop :=
  report.status.toList.all Char.isDigit = true →
    report.status = "0" ∨ ∃ code, report.status.toNat? = some code ∧ 0 < code ∧ code < 256

def Event.Documented : Event → Prop
  | .stcExit _ report _ => report.Documented
  | _ => True

def History.AtBoot (h : History) : Prop := h.system.AtBoot ∧ ∀ pid, h.runs pid = none

/-- The runs in which systemd reports what it documents. -/
def historyMachine : Machine History Event :=
  (Machine.ofStep History.AtBoot track).restrict fun _ event => event.Documented

/-- The script has started its unit and has not reported yet. -/
def Pc.following : Pc → Bool
  | .pollResult | .pollUnit | .grace | .drain | .report => true
  | _ => false

/-- The result file was seen with something in it, or the unit was seen gone. -/
def Pc.settled : Pc → Bool
  | .grace | .drain | .report => true
  | _ => false

/-- Its `systemd-run` is behind it. -/
def Pc.started : Pc → Bool
  | .exited _ | .interrupted => true
  | pc => pc.following

def System.Unfollowed (s : System) (mode : Mode) : Prop :=
  ∀ pid inv, s.procs pid = some inv → inv.mode = mode → inv.pc.following = false

/-- A script that deletes a result finds no script of its mode that has still to
report, and one whose start succeeds neither that nor an earlier result. -/
def NoClash (s : System) : Event → Prop
  | .exec pid => ∀ inv, s.procs pid = some inv →
      (inv.pc = .removeResult → (s.results inv.mode).nonEmpty = true → s.Unfollowed inv.mode) ∧
      (inv.pc = .systemdRun → s.loaded inv.mode = false →
        (s.results inv.mode).nonEmpty = false ∧ s.Unfollowed inv.mode)
  | _ => True

/-- From here, the commands of the script lead to this exit code. -/
def Finishes (s : System) (pid : Pid) (code : Nat) : Prop :=
  ∃ count final inv, Machine.replay step s (List.replicate count (.exec pid)) = some final ∧
    final.procs pid = some inv ∧ inv.pc = .exited code

/-- Every script that has started its unit and was not interrupted reports the
result of that very run, and can once the result is captured. -/
structure Honest (h : History) : Prop where
  reported : ∀ pid inv code verdict, h.system.procs pid = some inv → inv.pc = .exited code →
    h.runs pid = some verdict →
      ∃ report, verdict = some report ∧ code = report.exitCode ∧
        (code = 0 ↔ report.result = "success")
  finishes : ∀ pid inv report, h.system.procs pid = some inv → inv.pc.following = true →
    h.runs pid = some (some report) →
    (∀ unit, h.system.units inv.mode = some unit → unit.phase = .finished) →
      Finishes h.system pid report.exitCode

/-! ## The invariant -/

/-- What a unit has come to, against the report kept for its starter. -/
def UnitPhase.Agrees (verdict : Option Report) : UnitPhase → Prop
  | .queued => verdict = none
  | .active _ => verdict = none
  | .stopPost report => verdict = some report
  | .capturing report => verdict = some report
  | .finished => verdict ≠ none

/-- The result file holds the report of the run that `pid` started. -/
def History.Done (h : History) (pid : Pid) (mode : Mode) : Prop :=
  ∃ report, h.system.results mode = .written report ∧ h.runs pid = some (some report)

/-- Its unit is on the way to the result file, or the result is there. -/
inductive History.Own (h : History) (pid : Pid) (mode : Mode) : Prop where
  | running (phase : UnitPhase) (unit : h.system.units mode = some ⟨pid, phase⟩)
      (unfinished : phase ≠ .finished) (unwritten : (h.system.results mode).nonEmpty = false)
  | done (isDone : h.Done pid mode)
      (unit : ∀ unit, h.system.units mode = some unit → unit = ⟨pid, .finished⟩)

structure Tracked (h : History) : Prop where
  unstarted : ∀ pid, h.runs pid ≠ none → ∃ inv, h.system.procs pid = some inv ∧ inv.pc.started = true
  owned : ∀ mode unit, h.system.units mode = some unit →
    ∃ inv verdict, h.system.procs unit.starter = some inv ∧ inv.mode = mode ∧
      h.runs unit.starter = some verdict ∧ unit.phase.Agrees verdict
  follows : ∀ pid inv, h.system.procs pid = some inv → inv.pc.following = true → h.Own pid inv.mode
  settled : ∀ pid inv, h.system.procs pid = some inv → inv.pc.settled = true → h.Done pid inv.mode
  reported : ∀ pid inv code verdict, h.system.procs pid = some inv → inv.pc = .exited code →
    h.runs pid = some verdict → ∃ report, verdict = some report ∧ code = report.exitCode
  documented : ∀ pid report, h.runs pid = some (some report) → report.Documented

theorem tracked_atBoot {h : History} (boot : h.system.AtBoot) (noRun : ∀ pid, h.runs pid = none) :
    Tracked h where
  unstarted pid started := absurd (noRun pid) started
  owned mode unit isLoaded := by simp [boot.1] at isLoaded
  follows pid inv found := by simp [boot.2] at found
  settled pid inv found := by simp [boot.2] at found
  reported pid inv code verdict found := by simp [boot.2] at found
  documented pid report recorded := by simp [noRun] at recorded

theorem Pc.following_of_settled {pc : Pc} (settled : pc.settled = true) : pc.following = true := by
  cases pc <;> first | rfl | contradiction

theorem Pc.started_of_following {pc : Pc} (following : pc.following = true) :
    pc.started = true := by
  cases pc <;> first | rfl | contradiction

theorem History.Done.nonEmpty {h : History} {pid : Pid} {mode : Mode} (done : h.Done pid mode) :
    (h.system.results mode).nonEmpty = true := by
  obtain ⟨report, written, _⟩ := done
  rw [written]
  rfl

theorem History.Done.congr {h g : History} {pid : Pid} {mode : Mode} (done : h.Done pid mode)
    (results : g.system.results mode = h.system.results mode) (runs : g.runs pid = h.runs pid) :
    g.Done pid mode := by
  obtain ⟨report, written, recorded⟩ := done
  exact ⟨report, results.trans written, runs.trans recorded⟩

theorem History.Own.congr {h g : History} {pid : Pid} {mode : Mode} (own : h.Own pid mode)
    (units : g.system.units mode = h.system.units mode)
    (results : g.system.results mode = h.system.results mode) (runs : g.runs pid = h.runs pid) :
    g.Own pid mode := by
  cases own with
  | running phase unit unfinished unwritten =>
      exact .running phase (units.trans unit) unfinished (by rw [results]; exact unwritten)
  | done isDone unit => exact .done (isDone.congr results runs) (by rw [units]; exact unit)

/-- A step that changes none of units, results, scripts and runs. -/
theorem Tracked.congr {h g : History} (held : Tracked h) (units : g.system.units = h.system.units)
    (results : g.system.results = h.system.results) (procs : g.system.procs = h.system.procs)
    (runs : g.runs = h.runs) : Tracked g := by
  obtain ⟨s, runs'⟩ := g
  cases runs
  constructor
  · intro pid started
    rw [procs]
    exact held.unstarted pid started
  · intro mode unit isLoaded
    rw [units] at isLoaded
    rw [procs]
    exact held.owned mode unit isLoaded
  · intro pid inv found following
    rw [procs] at found
    exact (held.follows pid inv found following).congr (by rw [units]) (by rw [results]) rfl
  · intro pid inv found settled
    rw [procs] at found
    exact (held.settled pid inv found settled).congr (by rw [results]) rfl
  · intro pid inv code verdict found
    rw [procs] at found
    exact held.reported pid inv code verdict found
  · exact held.documented

/-- A command that only moves its own script on. -/
theorem Tracked.goto {h : History} {pid : Pid} {inv : Invocation} {pc : Pc} (held : Tracked h)
    (found : h.system.procs pid = some inv)
    (started : inv.pc.started = true → pc.started = true)
    (following : pc.following = true → inv.pc.following = true)
    (settled : pc.settled = true → h.Done pid inv.mode)
    (reported : ∀ code verdict, pc = .exited code → h.runs pid = some verdict →
      ∃ report, verdict = some report ∧ code = report.exitCode) :
    Tracked ⟨h.system.goto pid inv pc, h.runs⟩ := by
  have moved (other : Pid) (member : Invocation)
      (found' : (h.system.goto pid inv pc).procs other = some member) :
      (other = pid ∧ member = { inv with pc := pc }) ∨ h.system.procs other = some member := by
    by_cases same : other = pid
    · subst other
      rw [goto_procs, Function.update_self, Option.some.injEq] at found'
      exact .inl ⟨rfl, found'.symm⟩
    · rw [goto_procs, Function.update_of_ne same] at found'
      exact .inr found'
  constructor
  · intro other run
    obtain ⟨before, member, isStarted⟩ := held.unstarted other run
    by_cases same : other = pid
    · subst other
      rw [found, Option.some.injEq] at member
      subst member
      exact ⟨{ inv with pc := pc }, by simp, started isStarted⟩
    · exact ⟨before, by simpa [Function.update_of_ne same] using member, isStarted⟩
  · intro mode unit isLoaded
    obtain ⟨before, verdict, member, isMode, run, agrees⟩ := held.owned mode unit isLoaded
    by_cases same : unit.starter = pid
    · rw [same, found, Option.some.injEq] at member
      subst member
      exact ⟨{ inv with pc := pc }, verdict, by simp [same], isMode, run, agrees⟩
    · exact ⟨before, verdict, by simpa [Function.update_of_ne same] using member, isMode, run, agrees⟩
  · intro other member found' isFollowing
    cases moved other member found' with
    | inl own =>
        rw [own.2] at isFollowing ⊢
        rw [own.1]
        exact (held.follows pid inv found (following isFollowing)).congr rfl rfl rfl
    | inr old => exact (held.follows other member old isFollowing).congr rfl rfl rfl
  · intro other member found' isSettled
    cases moved other member found' with
    | inl own =>
        rw [own.2] at isSettled ⊢
        rw [own.1]
        exact (settled isSettled).congr rfl rfl
    | inr old => exact (held.settled other member old isSettled).congr rfl rfl
  · intro other member code verdict found' exited run
    cases moved other member found' with
    | inl own =>
        rw [own.2] at exited
        rw [own.1] at run
        exact reported code verdict exited run
    | inr old => exact held.reported other member code verdict old exited run
  · exact held.documented

/-- A command before the start, or a script that ends before it. -/
theorem Tracked.goto_unstarted {h : History} {pid : Pid} {inv : Invocation} {pc : Pc}
    (held : Tracked h) (found : h.system.procs pid = some inv)
    (unstarted : inv.pc.started = false) (notFollowing : pc.following = false) :
    Tracked ⟨h.system.goto pid inv pc, h.runs⟩ := by
  apply held.goto found
  · intro started
    rw [unstarted] at started
    contradiction
  · intro following
    rw [notFollowing] at following
    contradiction
  · intro settled
    rw [Pc.following_of_settled settled] at notFollowing
    contradiction
  · intro code verdict _ run
    obtain ⟨before, member, started⟩ := held.unstarted pid (by rw [run]; simp)
    rw [found, Option.some.injEq] at member
    subst member
    rw [unstarted] at started
    contradiction

/-- A command of a script that follows its unit. -/
theorem Tracked.goto_following {h : History} {pid : Pid} {inv : Invocation} {pc : Pc}
    (held : Tracked h) (found : h.system.procs pid = some inv)
    (before : inv.pc.following = true) (after : pc.following = true)
    (settled : pc.settled = true → h.Done pid inv.mode) :
    Tracked ⟨h.system.goto pid inv pc, h.runs⟩ := by
  apply held.goto found
  · intro _
    exact Pc.started_of_following after
  · intro _
    exact before
  · exact settled
  · intro code verdict exited
    rw [exited] at after
    contradiction

theorem History.Own.done_of_nonEmpty {h : History} {pid : Pid} {mode : Mode} (own : h.Own pid mode)
    (nonEmpty : (h.system.results mode).nonEmpty = true) : h.Done pid mode := by
  cases own with
  | running phase unit unfinished unwritten =>
      rw [unwritten] at nonEmpty
      contradiction
  | done isDone unit => exact isDone

theorem History.Own.done_of_gone {h : History} {pid : Pid} {mode : Mode} (own : h.Own pid mode)
    (gone : h.system.loaded mode = false) : h.Done pid mode := by
  cases own with
  | running phase unit unfinished unwritten =>
      rw [System.loaded, unit] at gone
      contradiction
  | done isDone unit => exact isDone

/-- The deletion of a result that nobody has still to report. -/
theorem tracked_removeResult {h : History} {pid : Pid} {inv : Invocation} (held : Tracked h)
    (found : h.system.procs pid = some inv) (atRemoval : inv.pc = .removeResult)
    (alone : (h.system.results inv.mode).nonEmpty = true → h.system.Unfollowed inv.mode) :
    Tracked ⟨(h.system.setResult inv.mode .absent).goto pid inv .systemdRun, h.runs⟩ := by
  have deleted : Tracked ⟨h.system.setResult inv.mode .absent, h.runs⟩ := by
    constructor
    · exact held.unstarted
    · exact held.owned
    · intro other member found' following
      by_cases own : member.mode = inv.mode
      · cases held.follows other member found' following with
        | running phase unit unfinished unwritten =>
            exact .running phase unit unfinished (by simp [System.setResult, own, ResultFile.nonEmpty])
        | done isDone unit =>
            have unfollowed := alone (own ▸ isDone.nonEmpty) other member found' own
            rw [following] at unfollowed
            contradiction
      · have untouched := held.follows other member found' following
        apply untouched.congr
        · rfl
        · simp [System.setResult, Function.update_of_ne own]
        · rfl
    · intro other member found' settled
      have isDone := held.settled other member found' settled
      by_cases own : member.mode = inv.mode
      · have unfollowed := alone (own ▸ isDone.nonEmpty) other member found' own
        rw [Pc.following_of_settled settled] at unfollowed
        contradiction
      · apply isDone.congr
        · simp [System.setResult, Function.update_of_ne own]
        · rfl
    · exact held.reported
    · exact held.documented
  apply deleted.goto_unstarted found
  · rw [atRemoval]
    rfl
  · rfl

/-- A start that succeeds where nobody has still to report. -/
theorem tracked_systemdRun {h : History} {pid : Pid} {inv : Invocation} (held : Tracked h)
    (found : h.system.procs pid = some inv) (atStart : inv.pc = .systemdRun)
    (unwritten : (h.system.results inv.mode).nonEmpty = false)
    (alone : h.system.Unfollowed inv.mode) :
    Tracked ⟨(h.system.setUnit inv.mode (some ⟨pid, .queued⟩)).goto pid inv .pollResult,
      Function.update h.runs pid (some none)⟩ := by
  have noRun : h.runs pid = none := by
    by_contra run
    obtain ⟨before, member, started⟩ := held.unstarted pid run
    rw [found, Option.some.injEq] at member
    subst member
    rw [atStart] at started
    contradiction
  have others (other : Pid) (differs : other ≠ pid) (s : System) (pc : Pc) :
      (s.goto pid inv pc).procs other = s.procs other := by
    rw [goto_procs, Function.update_of_ne differs]
  constructor
  · intro other run
    by_cases same : other = pid
    · exact ⟨{ inv with pc := .pollResult }, by simp [same], rfl⟩
    · dsimp only at run ⊢
      rw [Function.update_of_ne same] at run
      rw [others other same]
      exact held.unstarted other run
  · intro mode unit isLoaded
    simp only [goto_units, setUnit_units] at isLoaded
    by_cases own : mode = inv.mode
    · rw [own, Function.update_self, Option.some.injEq] at isLoaded
      subst isLoaded
      exact ⟨{ inv with pc := .pollResult }, none, by simp, own.symm, by simp, rfl⟩
    · rw [Function.update_of_ne own] at isLoaded
      obtain ⟨before, verdict, member, isMode, run, agrees⟩ := held.owned mode unit isLoaded
      have differs : unit.starter ≠ pid := by
        intro same
        rw [same, noRun] at run
        contradiction
      have kept : Function.update h.runs pid (some none) unit.starter = some verdict := by
        rw [Function.update_of_ne differs]
        exact run
      exact ⟨before, verdict, (others _ differs _ _).trans member, isMode, kept, agrees⟩
  · intro other member found' following
    by_cases same : other = pid
    · subst other
      simp only [goto_procs, Function.update_self, Option.some.injEq] at found'
      subst member
      exact .running .queued (by simp) (by simp) unwritten
    · dsimp only at found'
      rw [others other same] at found'
      have differs : member.mode ≠ inv.mode := by
        intro isMode
        rw [alone other member found' isMode] at following
        contradiction
      have untouched := held.follows other member found' following
      apply untouched.congr
      · simp [Function.update_of_ne differs]
      · rfl
      · simp [Function.update_of_ne same]
  · intro other member found' settled
    by_cases same : other = pid
    · subst other
      simp only [goto_procs, Function.update_self, Option.some.injEq] at found'
      subst member
      contradiction
    · dsimp only at found'
      rw [others other same] at found'
      have isDone := held.settled other member found' settled
      apply isDone.congr
      · rfl
      · simp [Function.update_of_ne same]
  · intro other member code verdict found' exited run
    by_cases same : other = pid
    · subst other
      simp only [goto_procs, Function.update_self, Option.some.injEq] at found'
      subst member
      contradiction
    · dsimp only at found' run
      rw [others other same] at found'
      rw [Function.update_of_ne same] at run
      exact held.reported other member code verdict found' exited run
  · intro other report run
    by_cases same : other = pid
    · subst other
      simp at run
    · dsimp only at run
      rw [Function.update_of_ne same] at run
      exact held.documented other report run

/-- The wrapper exits with what its unit reported. -/
theorem tracked_report {h : History} {t : System} {pid : Pid} {mode : Mode} (held : Tracked h)
    (found : h.system.procs pid = some ⟨mode, .report⟩)
    (run : command h.system pid ⟨mode, .report⟩ = some t) : Tracked ⟨t, h.runs⟩ := by
  obtain ⟨report, written, recorded⟩ := held.settled pid _ found rfl
  simp only [command, written, Option.some.injEq] at run
  subst run
  apply held.goto found
  · exact fun _ => rfl
  · intro following
    contradiction
  · intro settled
    contradiction
  · intro code verdict exited isVerdict
    rw [recorded, Option.some.injEq] at isVerdict
    cases exited
    exact ⟨report, isVerdict.symm, rfl⟩

theorem tracked_exec {h : History} {t : System} {pid : Pid} {inv : Invocation} (held : Tracked h)
    (found : h.system.procs pid = some inv) (allowed : NoClash h.system (.exec pid))
    (run : command h.system pid inv = some t) : Tracked ⟨t, record h (.exec pid)⟩ := by
  obtain ⟨deletes, starts⟩ := allowed inv found
  have runs : record h (.exec pid) =
      if inv.pc = .systemdRun ∧ h.system.loaded inv.mode = false then
        Function.update h.runs pid (some none) else h.runs := by
    simp only [record, found]
  rw [runs]
  obtain ⟨mode, pc⟩ := inv
  cases pc with
  | probe rest =>
      rw [if_neg (by simp)]
      cases rest with
      | nil =>
          cases run
          exact held.goto_unstarted found rfl rfl
      | cons head rest =>
          simp only [command] at run
          split at run <;> cases run <;> exact held.goto_unstarted found rfl rfl
  | lockExists | pgrep =>
      rw [if_neg (by simp)]
      simp only [command] at run
      split at run <;> cases run <;> exact held.goto_unstarted found rfl rfl
  | flockProbe =>
      rw [if_neg (by simp)]
      simp only [command] at run
      split at run
      · cases run
        have created : Tracked ⟨{ h.system with
          lockPath := some h.system.nextInode, nextInode := h.system.nextInode + 1 }, h.runs⟩ :=
            held.congr rfl rfl rfl rfl
        exact created.goto_unstarted found rfl rfl
      · split at run <;> cases run <;> exact held.goto_unstarted found rfl rfl
  | removeLock =>
      rw [if_neg (by simp)]
      cases run
      have removed : Tracked ⟨{ h.system with lockPath := none }, h.runs⟩ :=
        held.congr rfl rfl rfl rfl
      exact removed.goto_unstarted found rfl rfl
  | mkdirRun =>
      rw [if_neg (by simp)]
      cases run
      exact held.goto_unstarted found rfl rfl
  | removeResult =>
      rw [if_neg (by simp)]
      cases run
      exact tracked_removeResult held found rfl (deletes rfl)
  | systemdRun =>
      simp only [command] at run
      split at run
      · rename_i isLoaded
        cases run
        rw [if_neg (by simp [isLoaded])]
        exact held.goto_unstarted found rfl rfl
      · rename_i free
        cases run
        have notLoaded : h.system.loaded mode = false := by simpa using free
        rw [if_pos ⟨rfl, notLoaded⟩]
        obtain ⟨unwritten, alone⟩ := starts rfl notLoaded
        exact tracked_systemdRun held found rfl unwritten alone
  | pollResult =>
      rw [if_neg (by simp)]
      have own := held.follows pid _ found rfl
      simp only [command] at run
      split at run
      · rename_i nonEmpty
        cases run
        exact held.goto_following found rfl rfl fun _ => own.done_of_nonEmpty nonEmpty
      · cases run
        exact held.goto_following found rfl rfl fun settled => by contradiction
  | pollUnit =>
      rw [if_neg (by simp)]
      have own := held.follows pid _ found rfl
      simp only [command] at run
      split at run
      · cases run
        exact held.goto_following found rfl rfl fun settled => by contradiction
      · rename_i gone
        cases run
        exact held.goto_following found rfl rfl fun _ => own.done_of_gone (by simpa using gone)
  | grace =>
      rw [if_neg (by simp)]
      have isDone := held.settled pid _ found rfl
      simp only [command] at run
      split at run
      · cases run
        exact held.goto_following found rfl rfl fun settled => by contradiction
      · rename_i empty
        rw [isDone.nonEmpty] at empty
        contradiction
  | drain =>
      rw [if_neg (by simp)]
      have isDone := held.settled pid _ found rfl
      cases run
      exact held.goto_following found rfl rfl fun _ => isDone
  | report =>
      rw [if_neg (by simp)]
      exact tracked_report held found run
  | exited code => simp [command] at run
  | interrupted => simp [command] at run

/-! ## Launches, units and exits -/

theorem tracked_launch {h : History} {pid : Pid} {inv : Invocation} (held : Tracked h)
    (free : h.system.procs pid = none) (notFollowing : inv.pc.following = false) :
    Tracked ⟨{ h.system with procs := Function.update h.system.procs pid (some inv) }, h.runs⟩ := by
  have noRun : h.runs pid = none := by
    by_contra run
    obtain ⟨before, member, _⟩ := held.unstarted pid run
    rw [free] at member
    contradiction
  have others (other : Pid) (before : Invocation) (member : h.system.procs other = some before) :
      Function.update h.system.procs pid (some inv) other = some before := by
    have differs : other ≠ pid := by
      intro same
      rw [same, free] at member
      contradiction
    rw [Function.update_of_ne differs]
    exact member
  have moved (other : Pid) (member : Invocation)
      (found : Function.update h.system.procs pid (some inv) other = some member) :
      (other = pid ∧ member = inv) ∨ h.system.procs other = some member := by
    by_cases same : other = pid
    · rw [same, Function.update_self, Option.some.injEq] at found
      exact .inl ⟨same, found.symm⟩
    · rw [Function.update_of_ne same] at found
      exact .inr found
  constructor
  · intro other run
    obtain ⟨before, member, started⟩ := held.unstarted other run
    exact ⟨before, others other before member, started⟩
  · intro mode unit isLoaded
    obtain ⟨before, verdict, member, isMode, run, agrees⟩ := held.owned mode unit isLoaded
    exact ⟨before, verdict, others _ before member, isMode, run, agrees⟩
  · intro other member found following
    cases moved other member found with
    | inl own =>
        rw [own.2, notFollowing] at following
        contradiction
    | inr old =>
        have untouched := held.follows other member old following
        exact untouched.congr rfl rfl rfl
  · intro other member found settled
    cases moved other member found with
    | inl own =>
        rw [own.2] at settled
        rw [Pc.following_of_settled settled] at notFollowing
        contradiction
    | inr old =>
        have isDone := held.settled other member old settled
        exact isDone.congr rfl rfl
  · intro other member code verdict found exited run
    cases moved other member found with
    | inl own =>
        dsimp only at run
        rw [own.1, noRun] at run
        contradiction
    | inr old => exact held.reported other member code verdict old exited run
  · exact held.documented

theorem launched_following (args : List String) (target : Target) :
    (launched args target).pc.following = false := by
  unfold launched
  split <;> rfl

/-- The unit of one mode moves on or is collected. -/
theorem Tracked.replace {h g : History} {mode : Mode} {old : UnitRun} {new : Option UnitRun}
    (held : Tracked h) (unit : h.system.units mode = some old)
    (units : g.system.units = Function.update h.system.units mode new)
    (results : ∀ other, other ≠ mode → g.system.results other = h.system.results other)
    (procs : g.system.procs = h.system.procs) (runs : g.runs = h.runs)
    (agrees : ∀ next, new = some next → next.starter = old.starter ∧
      ∀ verdict, old.phase.Agrees verdict → next.phase.Agrees verdict)
    (own : ∀ pid, h.Own pid mode → g.Own pid mode)
    (done : ∀ pid, h.Own pid mode → h.Done pid mode → g.Done pid mode) : Tracked g := by
  obtain ⟨s, runs'⟩ := g
  cases runs
  constructor
  · intro pid started
    rw [procs]
    exact held.unstarted pid started
  · intro other next isLoaded
    rw [units] at isLoaded
    rw [procs]
    by_cases same : other = mode
    · rw [same, Function.update_self] at isLoaded
      obtain ⟨starter, next'⟩ := agrees next isLoaded
      obtain ⟨inv, verdict, found, isMode, run, agreed⟩ := held.owned mode old unit
      rw [starter]
      exact ⟨inv, verdict, found, isMode.trans same.symm, run, next' verdict agreed⟩
    · rw [Function.update_of_ne same] at isLoaded
      exact held.owned other next isLoaded
  · intro pid inv found following
    rw [procs] at found
    have before := held.follows pid inv found following
    by_cases same : inv.mode = mode
    · rw [same] at before ⊢
      exact own pid before
    · apply before.congr
      · rw [units, Function.update_of_ne same]
      · exact results _ same
      · rfl
  · intro pid inv found settled
    rw [procs] at found
    have before := held.settled pid inv found settled
    have follows := held.follows pid inv found (Pc.following_of_settled settled)
    by_cases same : inv.mode = mode
    · rw [same] at before follows ⊢
      exact done pid follows before
    · apply before.congr
      · exact results _ same
      · rfl
  · intro pid inv code verdict found
    rw [procs] at found
    exact held.reported pid inv code verdict found
  · exact held.documented

/-- Nobody but its starter follows a unit that is not finished, and its result is
still to come. -/
theorem History.Own.of_unfinished {h : History} {pid : Pid} {mode : Mode} {unit : UnitRun}
    (own : h.Own pid mode) (isLoaded : h.system.units mode = some unit)
    (unfinished : unit.phase ≠ .finished) :
    pid = unit.starter ∧ (h.system.results mode).nonEmpty = false := by
  cases own with
  | running phase isUnit _ unwritten =>
      rw [isLoaded, Option.some.injEq] at isUnit
      rw [isUnit]
      exact ⟨rfl, unwritten⟩
  | done _ isUnit =>
      rw [isUnit unit isLoaded] at unfinished
      contradiction

/-- Such a unit moves on: its phase, and what is in the result file. -/
theorem Tracked.advance {h g : History} {mode : Mode} {starter : Pid} {phase next : UnitPhase}
    (held : Tracked h) (unit : h.system.units mode = some ⟨starter, phase⟩)
    (unfinished : phase ≠ .finished)
    (units : g.system.units = Function.update h.system.units mode (some ⟨starter, next⟩))
    (results : ∀ other, other ≠ mode → g.system.results other = h.system.results other)
    (procs : g.system.procs = h.system.procs) (runs : g.runs = h.runs)
    (agrees : ∀ verdict, phase.Agrees verdict → next.Agrees verdict)
    (own : (h.system.results mode).nonEmpty = false →
      (∃ verdict, h.runs starter = some verdict ∧ phase.Agrees verdict) → g.Own starter mode) :
    Tracked g := by
  apply held.replace unit units results procs runs
  · intro unit isNew
    cases isNew
    exact ⟨rfl, agrees⟩
  · intro pid before
    obtain ⟨isStarter, unwritten⟩ := before.of_unfinished unit unfinished
    obtain ⟨_, verdict, _, _, run, agreed⟩ := held.owned mode _ unit
    rw [isStarter]
    exact own unwritten ⟨verdict, run, agreed⟩
  · intro pid before isDone
    obtain ⟨_, unwritten⟩ := before.of_unfinished unit unfinished
    rw [isDone.nonEmpty] at unwritten
    contradiction

/-- Where a switch-to-configuration exits, its unit has the report, and so has
the history of its starter. -/
theorem tracked_stcExit {h : History} {stc : Stc} {report : Report} {orphaned : Bool}
    (held : Tracked h) (documented : report.Documented) :
    Tracked ⟨stcExit h.system stc report orphaned, record h (.stcExit stc.id report orphaned)⟩ := by
  have hits (pid : Pid) (hit : ∃ mode, h.system.units mode = some ⟨pid, .active stc.id⟩) :
      record h (.stcExit stc.id report orphaned) pid = some (some report) := by
    obtain ⟨mode, unit⟩ := hit
    simp only [record]
    rw [if_pos]
    exact List.any_eq_true.mpr ⟨mode, mem_modes mode, by simpa using unit⟩
  have misses (pid : Pid) (miss : ¬ ∃ mode, h.system.units mode = some ⟨pid, .active stc.id⟩) :
      record h (.stcExit stc.id report orphaned) pid = h.runs pid := by
    simp only [record]
    rw [if_neg]
    intro hit
    obtain ⟨mode, _, unit⟩ := List.any_eq_true.mp hit
    exact miss ⟨mode, by simpa using unit⟩
  have unfinished (pid : Pid) (hit : ∃ mode, h.system.units mode = some ⟨pid, .active stc.id⟩) :
      h.runs pid = some none := by
    obtain ⟨mode, unit⟩ := hit
    obtain ⟨_, verdict, _, _, run, agrees⟩ := held.owned mode _ unit
    rw [run, show verdict = none from agrees]
  have kept (pid : Pid) (verdict : Option Report) (isSome : verdict.isSome = true)
      (run : h.runs pid = some verdict) :
      record h (.stcExit stc.id report orphaned) pid = some verdict := by
    rw [misses pid]
    · exact run
    · intro hit
      rw [unfinished pid hit, Option.some.injEq] at run
      subst run
      contradiction
  have isDone {pid : Pid} {mode : Mode} (done : h.Done pid mode) :
      History.Done ⟨stcExit h.system stc report orphaned,
        record h (.stcExit stc.id report orphaned)⟩ pid mode := by
    obtain ⟨captured, written, run⟩ := done
    exact ⟨captured, written, kept pid _ rfl run⟩
  constructor
  · intro pid run
    apply held.unstarted pid
    intro noRun
    by_cases hit : ∃ mode, h.system.units mode = some ⟨pid, .active stc.id⟩
    · rw [unfinished pid hit] at noRun
      contradiction
    · exact run ((misses pid hit).trans noRun)
  · intro mode unit isLoaded
    obtain ⟨old, was, moved⟩ := Option.map_eq_some_iff.mp isLoaded
    obtain ⟨inv, verdict, found, isMode, run, agrees⟩ := held.owned mode old was
    split at moved
    · rename_i active
      subst moved
      exact ⟨inv, some report, found, isMode, hits _ ⟨mode, by rw [was, ← active]⟩, rfl⟩
    · rename_i notActive
      subst moved
      refine ⟨inv, verdict, found, isMode, ?_, agrees⟩
      dsimp only
      rw [misses]
      · exact run
      · intro hit
        obtain ⟨mode', unit'⟩ := hit
        obtain ⟨inv', _, found', isMode', _, _⟩ := held.owned mode' _ unit'
        dsimp only at found'
        rw [found, Option.some.injEq] at found'
        subst found'
        rw [← isMode, isMode', unit', Option.some.injEq] at was
        rw [← was] at notActive
        contradiction
  · intro pid inv found following
    cases held.follows pid inv found following with
    | running phase unit isUnfinished unwritten =>
        by_cases active : phase = .active stc.id
        · subst active
          refine .running (.stopPost report) ?_ (by simp) unwritten
          simp [stcExit, stopUnits, unit]
        · refine .running phase ?_ isUnfinished unwritten
          simp [stcExit, stopUnits, unit, active]
    | done done unit =>
        refine .done (isDone done) fun next isNext => ?_
        obtain ⟨old, was, moved⟩ := Option.map_eq_some_iff.mp isNext
        rw [unit old was] at moved
        exact moved.symm
  · intro pid inv found settled
    exact isDone (held.settled pid inv found settled)
  · intro pid inv code verdict found exited run
    by_cases hit : ∃ mode, h.system.units mode = some ⟨pid, .active stc.id⟩
    · obtain ⟨captured, isSome, _⟩ := held.reported pid inv code none found exited (unfinished pid hit)
      contradiction
    · exact held.reported pid inv code verdict found exited ((misses pid hit).symm.trans run)
  · intro pid captured run
    by_cases hit : ∃ mode, h.system.units mode = some ⟨pid, .active stc.id⟩
    · have same := (hits pid hit).symm.trans run
      cases same
      exact documented
    · exact held.documented pid captured ((misses pid hit).symm.trans run)

theorem tracked_unitStart {h : History} {mode : Mode} {starter : Pid} (held : Tracked h)
    (unit : h.system.units mode = some ⟨starter, .queued⟩) :
    Tracked ⟨({ h.system with
      stcs := ⟨h.system.nextStc, .spawned⟩ :: h.system.stcs
      nextStc := h.system.nextStc + 1 }.setUnit mode (some ⟨starter, .active h.system.nextStc⟩)),
      h.runs⟩ := by
  refine held.advance unit (by simp) rfl (fun _ _ => rfl) rfl rfl ?_ ?_
  · exact fun _ agrees => agrees
  · intro unwritten _
    exact .running (.active h.system.nextStc) (by simp) (by simp) unwritten

theorem tracked_stopPostOpen {h : History} {mode : Mode} {starter : Pid} {report : Report}
    (held : Tracked h) (unit : h.system.units mode = some ⟨starter, .stopPost report⟩) :
    Tracked ⟨(h.system.setResult mode .empty).setUnit mode (some ⟨starter, .capturing report⟩),
      h.runs⟩ := by
  refine held.advance unit (by simp) rfl ?_ rfl rfl (fun _ agrees => agrees) ?_
  · intro other differs
    simp [System.setResult, System.setUnit, Function.update_of_ne differs]
  · intro _ _
    exact .running (.capturing report) (by simp) (by simp)
      (by simp [System.setResult, System.setUnit, ResultFile.nonEmpty])

/-- The report that the history has is the one written. -/
theorem tracked_stopPostWrite {h : History} {mode : Mode} {starter : Pid} {report : Report}
    (held : Tracked h) (unit : h.system.units mode = some ⟨starter, .capturing report⟩) :
    Tracked ⟨(h.system.setResult mode (.written report)).setUnit mode (some ⟨starter, .finished⟩),
      h.runs⟩ := by
  refine held.advance unit (by simp) rfl ?_ rfl rfl ?_ ?_
  · intro other differs
    simp [System.setResult, System.setUnit, Function.update_of_ne differs]
  · intro verdict agrees
    rw [show verdict = some report from agrees]
    simp [UnitPhase.Agrees]
  · intro _ captured
    obtain ⟨verdict, run, agrees⟩ := captured
    rw [show verdict = some report from agrees] at run
    refine .done ⟨report, by simp [System.setResult, System.setUnit], run⟩ fun unit isUnit => ?_
    simp only [setUnit_units, Function.update_self, Option.some.injEq] at isUnit
    exact isUnit.symm

theorem tracked_collect {h : History} {mode : Mode} {starter : Pid} (held : Tracked h)
    (unit : h.system.units mode = some ⟨starter, .finished⟩) :
    Tracked ⟨h.system.setUnit mode none, h.runs⟩ := by
  have isDone {pid : Pid} (own : h.Own pid mode) : h.Done pid mode := by
    cases own with
    | running phase isUnit unfinished _ =>
        rw [unit, Option.some.injEq, UnitRun.mk.injEq] at isUnit
        rw [← isUnit.2] at unfinished
        contradiction
    | done isDone _ => exact isDone
  refine held.replace unit rfl (fun _ _ => rfl) rfl rfl ?_ ?_ ?_
  · intro next isNext
    contradiction
  · intro pid own
    refine .done (isDone own) fun next isNext => ?_
    simp at isNext
  · intro pid own done
    exact done

theorem tracked_step {h g : History} {event : Event} (held : Tracked h)
    (allowed : NoClash h.system event) (documented : event.Documented)
    (run : track h event = some g) : Tracked g := by
  obtain ⟨t, taken, rfl⟩ := Option.map_eq_some_iff.mp run
  cases event with
  | exec pid =>
      obtain ⟨inv, found, taken⟩ := Option.bind_eq_some_iff.mp taken
      exact tracked_exec held found allowed taken
  | launch pid args target =>
      simp only [step] at taken
      split at taken
      · contradiction
      · rename_i free
        cases taken
        exact tracked_launch held free (launched_following args target)
  | fail pid =>
      obtain ⟨inv, found, taken⟩ := Option.bind_eq_some_iff.mp taken
      split at taken
      · rename_i mayFail
        cases taken
        apply held.goto_unstarted found _ rfl
        obtain ⟨mode, pc⟩ := inv
        cases pc <;> first | rfl | contradiction
      · contradiction
  | interrupt pid =>
      obtain ⟨inv, found, taken⟩ := Option.bind_eq_some_iff.mp taken
      split at taken
      · cases taken
        apply held.goto found
        · exact fun _ => rfl
        · intro following
          contradiction
        · intro settled
          contradiction
        · intro code verdict exited
          contradiction
      · contradiction
  | unitStart mode =>
      simp only [step] at taken
      split at taken
      · rename_i starter unit
        cases taken
        exact tracked_unitStart held unit
      · contradiction
  | stcOutside =>
      cases taken
      exact held.congr rfl rfl rfl rfl
  | stcOpen id =>
      simp only [step] at taken
      split at taken
      · split at taken <;> cases taken <;> exact held.congr rfl rfl rfl rfl
      · contradiction
  | stcLock id =>
      simp only [step] at taken
      split at taken
      · split at taken
        · contradiction
        · cases taken
          exact held.congr rfl rfl rfl rfl
      · contradiction
  | stcExit id report orphaned =>
      obtain ⟨stc, found, rfl⟩ := Option.map_eq_some_iff.mp taken
      have isId : stc.id = id := by simpa using List.find?_some found
      subst isId
      exact tracked_stcExit held documented
  | stopPostOpen mode =>
      simp only [step] at taken
      split at taken
      · rename_i starter report unit
        cases taken
        exact tracked_stopPostOpen held unit
      · contradiction
  | stopPostWrite mode =>
      simp only [step] at taken
      split at taken
      · rename_i starter report unit
        cases taken
        exact tracked_stopPostWrite held unit
      · contradiction
  | collect mode =>
      simp only [step] at taken
      split at taken
      · rename_i starter unit
        cases taken
        exact tracked_collect held unit
      · contradiction
  | orphanExit inode =>
      cases taken
      exact held.congr rfl rfl rfl rfl

/-! ## The report -/

theorem Report.exitCode_eq_zero {report : Report} (documented : report.Documented) :
    report.exitCode = 0 ↔ report.result = "success" := by
  unfold exitCode
  by_cases success : report.result = "success"
  · simp [success]
  · rw [if_neg success]
    simp only [success, iff_false]
    split
    · simp
    · rename_i numeral
      have digits : report.status.toList.all Char.isDigit = true := by
        by_contra other
        exact numeral (.inr (.inl other))
      cases documented digits with
      | inl zero => exact absurd (.inr (.inr zero)) numeral
      | inr code =>
          obtain ⟨code, isCode, positive, small⟩ := code
          simp only [isCode, Option.getD_some]
          omega

theorem Finishes.step {s t : System} {pid : Pid} {code : Nat} (taken : step s (.exec pid) = some t)
    (rest : Finishes t pid code) : Finishes s pid code := by
  obtain ⟨count, final, inv, run, found, exited⟩ := rest
  refine ⟨count + 1, final, inv, ?_, found, exited⟩
  rw [List.replicate_succ, Machine.replay, taken]
  exact run

/-- One more command: the script is where the rest begins. -/
theorem Finishes.goto {s : System} {pid : Pid} {inv : Invocation} {pc : Pc} {code : Nat}
    (found : s.procs pid = some inv) (taken : command s pid inv = some (s.goto pid inv pc))
    (rest : Finishes (s.goto pid inv pc) pid code) : Finishes s pid code := by
  apply Finishes.step _ rest
  rw [Nixnas.Switch.step, found]
  exact taken

variable {s : System} {pid : Pid} {mode : Mode} {report : Report}

theorem finishes_report (found : s.procs pid = some ⟨mode, .report⟩)
    (written : s.results mode = .written report) : Finishes s pid report.exitCode := by
  refine ⟨1, s.goto pid ⟨mode, .report⟩ (.exited report.exitCode), ⟨mode, .exited report.exitCode⟩,
    ?_, by simp, rfl⟩
  simp [Machine.replay, step, found, command, written]

theorem finishes_drain (found : s.procs pid = some ⟨mode, .drain⟩)
    (written : s.results mode = .written report) : Finishes s pid report.exitCode := by
  apply Finishes.goto found rfl
  refine finishes_report ?_ written
  simp

theorem finishes_pollResult (found : s.procs pid = some ⟨mode, .pollResult⟩)
    (written : s.results mode = .written report) : Finishes s pid report.exitCode := by
  have nonEmpty : (s.results mode).nonEmpty = true := by
    rw [written]
    rfl
  apply Finishes.goto found
  · exact if_pos nonEmpty
  refine finishes_drain ?_ written
  simp

theorem finishes_grace (found : s.procs pid = some ⟨mode, .grace⟩)
    (written : s.results mode = .written report) : Finishes s pid report.exitCode := by
  have nonEmpty : (s.results mode).nonEmpty = true := by
    rw [written]
    rfl
  apply Finishes.goto found
  · exact if_pos nonEmpty
  refine finishes_pollResult ?_ written
  simp

/-- The polls find a written result, whether or not the unit is still there. -/
theorem finishes_following {inv : Invocation} (found : s.procs pid = some inv)
    (following : inv.pc.following = true) (written : s.results inv.mode = .written report) :
    Finishes s pid report.exitCode := by
  obtain ⟨mode, pc⟩ := inv
  cases pc with
  | pollResult => exact finishes_pollResult found written
  | pollUnit =>
      by_cases isLoaded : s.loaded mode = true
      · apply Finishes.goto found
        · exact if_pos isLoaded
        refine finishes_pollResult ?_ written
        simp
      · apply Finishes.goto found
        · exact if_neg isLoaded
        refine finishes_grace ?_ written
        simp
  | grace => exact finishes_grace found written
  | drain => exact finishes_drain found written
  | report => exact finishes_report found written
  | _ => contradiction

theorem Tracked.honest {h : History} (held : Tracked h) : Honest h where
  reported := by
    intro pid inv code verdict found exited run
    obtain ⟨report, isReport, isCode⟩ := held.reported pid inv code verdict found exited run
    subst isReport isCode
    exact ⟨report, rfl, rfl, Report.exitCode_eq_zero (held.documented pid report run)⟩
  finishes := by
    intro pid inv report found following run finished
    have isDone : h.Done pid inv.mode := by
      cases held.follows pid inv found following with
      | running phase unit unfinished _ => exact absurd (finished _ unit) unfinished
      | done isDone _ => exact isDone
    obtain ⟨captured, written, recorded⟩ := isDone
    rw [run, Option.some.injEq, Option.some.injEq] at recorded
    subst recorded
    exact finishes_following found following written

/-- In every run in which no script deletes a result that another one of its mode
has still to report, and none starts while another one of its mode has still to
report or an earlier result is there, every report is that of the very run. -/
theorem honest_of_noClash (h : History)
    (reached : (historyMachine.restrict fun h event => NoClash h.system event).Reachable h) :
    Honest h := by
  have tracked : ∀ h, (historyMachine.restrict fun h event => NoClash h.system event).Reachable h →
      Tracked h :=
    Machine.invariant (fun _ boot => tracked_atBoot boot.1 boot.2)
      fun _ _ _ _ held taken => tracked_step held taken.1 taken.2.1 taken.2.2
  exact (tracked h reached).honest

/-! ## A script alone, and a refused start -/

def History.booted : History := ⟨.booted, fun _ => none⟩

theorem History.booted_atBoot : History.booted.AtBoot := ⟨Nixnas.Switch.booted_atBoot, fun _ => rfl⟩

def success : Report := ⟨"success", "0"⟩

theorem success_documented : success.Documented := fun _ => .inl rfl

/-- `switch-to-configuration` is killed. -/
def killed : Report := ⟨"signal", "KILL"⟩

theorem killed_documented : killed.Documented := fun digits => absurd digits (by decide)

/-- One script after the other, of the same mode: the first one's switch succeeds,
the second one finds its result and deletes it, and its own switch is killed. -/
def inTurnRun : List Event :=
  started 0 ["switch"] ++ ending .switch 0 success ++ .collect .switch ::
    List.replicate 3 (.exec 0) ++ started 1 ["switch"] ++ .exec 1 ::
    ending .switch 1 killed ++ .collect .switch :: List.replicate 3 (.exec 1)

/-- No script of the crew that runs the mode has still to report. -/
def unfollowedBy (crew : List Pid) (s : System) (mode : Mode) : Bool :=
  crew.all fun pid => (s.procs pid).all fun inv => inv.mode ≠ mode || !inv.pc.following

def clashFree (crew : List Pid) (h : History) : Event → Bool
  | .exec pid => (h.system.procs pid).all fun inv =>
      (inv.pc ≠ .removeResult || unfollowedBy crew h.system inv.mode) &&
        (inv.pc ≠ .systemdRun ||
          !(h.system.results inv.mode).nonEmpty && unfollowedBy crew h.system inv.mode)
  | _ => true

theorem unfollowed_of_crew {s : System} {crew : List Pid} {mode : Mode} (crewed : s.Crewed crew)
    (free : unfollowedBy crew s mode = true) : s.Unfollowed mode := by
  intro pid inv found sameMode
  simpa [found, sameMode] using List.all_eq_true.mp free pid (crewed.mem found)

theorem noClash_of_clashFree {h : History} {crew : List Pid} {event : Event}
    (crewed : h.system.Crewed crew) (free : clashFree crew h event = true) :
    NoClash h.system event := by
  cases event with
  | exec pid =>
      intro inv found
      simp only [clashFree, found, Option.all_some, Bool.and_eq_true] at free
      obtain ⟨atRemoval, atStart⟩ := free
      constructor
      · intro removes _
        exact unfollowed_of_crew crewed (by simpa [removes] using atRemoval)
      · intro starts _
        have clean : (h.system.results inv.mode).nonEmpty = false ∧
            unfollowedBy crew h.system inv.mode = true := by
          simpa [starts] using atStart
        exact ⟨clean.1, unfollowed_of_crew crewed clean.2⟩
  | _ => trivial

theorem inTurnRun_documented {event : Event} (member : event ∈ inTurnRun) : event.Documented := by
  cases event with
  | stcExit id report orphaned =>
      have either : report = success ∨ report = killed := by
        have listed : id = 0 ∧ report = success ∧ orphaned = false ∨
            id = 1 ∧ report = killed ∧ orphaned = false := by
          simpa [inTurnRun, started, ending] using member
        exact listed.imp (fun first => first.2.1) fun second => second.2.1
      rcases either with rfl | rfl
      · exact success_documented
      · exact killed_documented
  | _ => trivial

theorem inTurnRun_reachable (h : History)
    (run : Machine.replay (fun h event => if clashFree [0, 1] h event then track h event else none)
      .booted inTurnRun = some h) :
    (historyMachine.restrict fun h event => NoClash h.system event).Reachable h := by
  have within : inTurnRun.all (Event.within [0, 1]) = true := rfl
  apply Machine.restrict_restrict
  refine Machine.restrict_reachable_of_checked (clashFree [0, 1])
    (fun h => h.system.Crewed [0, 1]) inTurnRun ?_ ?_ History.booted h
    (.initial History.booted_atBoot) (fun _ _ => rfl) run
  · intro h event member crewed free
    exact ⟨inTurnRun_documented member, noClash_of_clashFree crewed free⟩
  · intro h g event member crewed taken
    obtain ⟨t, moved, rfl⟩ := Option.map_eq_some_iff.mp taken
    exact crewed_step crewed (List.all_eq_true.mp within event member) moved

theorem honest_inTurn :
    ∃ h, Machine.replay (fun h event => if clashFree [0, 1] h event then track h event else none)
        .booted inTurnRun = some h ∧
      h.system.procs 0 = some ⟨.switch, .exited 0⟩ ∧ h.runs 0 = some (some success) ∧
      h.system.procs 1 = some ⟨.switch, .exited 1⟩ ∧ h.runs 1 = some (some killed) ∧ Honest h := by
  have outcome : (Machine.replay (fun h event => if clashFree [0, 1] h event then track h event
      else none) .booted inTurnRun).map (fun h =>
        ((h.system.procs 0, h.runs 0), h.system.procs 1, h.runs 1)) =
      some ((some ⟨.switch, .exited 0⟩, some (some success)),
        some ⟨.switch, .exited 1⟩, some (some killed)) := by decide +kernel
  obtain ⟨h, run, observed⟩ := Option.map_eq_some_iff.mp outcome
  simp only [Prod.mk.injEq] at observed
  obtain ⟨⟨exited, succeeded⟩, exitedToo, failed⟩ := observed
  exact ⟨h, run, exited, succeeded, exitedToo, failed,
    honest_of_noClash _ (inTurnRun_reachable h run)⟩

/-- A second script of the mode has passed its checks before the first one
starts; its refused start is preceded by the deletion of the first one's result. -/
def refusedStart : List Event :=
  [.launch 0 ["switch"] .current, .launch 1 ["switch"] .current] ++ List.replicate 5 (.exec 1) ++
    List.replicate 8 (.exec 0) ++ ending .switch 0 success ++ List.replicate 3 (.exec 1) ++
    .collect .switch :: List.replicate 3 (.exec 0)

theorem refusedStart_documented {event : Event} (member : event ∈ refusedStart) :
    event.Documented := by
  cases event with
  | stcExit id report orphaned =>
      have isSuccess : id = 0 ∧ report = success ∧ orphaned = false := by
        simpa [refusedStart, ending] using member
      rw [isSuccess.2.1]
      exact success_documented
  | _ => trivial

/-- The first script's run succeeds, and it exits with 1. -/
theorem refusedStart_reports_missing : ¬ ∀ h, historyMachine.Reachable h → Honest h := by
  intro honest
  have outcome : (Machine.replay track .booted refusedStart).map
      (fun h => (h.system.procs 0, h.runs 0)) =
        some (some ⟨.switch, .exited 1⟩, some (some success)) := by decide +kernel
  obtain ⟨h, run, observed⟩ := Option.map_eq_some_iff.mp outcome
  obtain ⟨exited, recorded⟩ := Prod.mk.inj observed
  have reached : historyMachine.Reachable h := by
    refine Machine.restrict_reachable_of_replay (fun _ => True) refusedStart ?_ ?_ History.booted h
      (.initial History.booted_atBoot) trivial run
    · intro _ event member _
      exact refusedStart_documented member
    · intro _ _ _ _ _ _
      trivial
  obtain ⟨report, isReport, _, isSuccess⟩ :=
    (honest h reached).reported 0 _ 1 _ exited rfl recorded
  cases isReport
  exact absurd (isSuccess.mpr rfl) (by decide)

end Nixnas.Switch
