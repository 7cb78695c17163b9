import Nixnas.Switch.Script

/-!
# At most one activation unit

The in-flight check of `nixnas-switch` probes the three unit names and starts
its unit some commands later.  `systemd-run` closes that window for a unit of
the same mode only, so two invocations of different modes may both pass the
check and both start.  What the code does guarantee: as long as no unit is
started while an invocation of another mode sits between its own check of that
unit and its own start, at most one unit is loaded.
-/

set_option autoImplicit false

namespace Nixnas.Switch

open Nixnas.Logic

def AtMostOneLoaded (s : System) : Prop :=
  ∀ first second, s.loaded first = true → s.loaded second = true → first = second

instance (s : System) : Decidable (AtMostOneLoaded s) :=
  decidable_of_iff (∀ first ∈ modes, ∀ second ∈ modes,
      s.loaded first = true → s.loaded second = true → first = second)
    ⟨fun h first second => h first (mem_modes first) second (mem_modes second),
      fun h first _ second _ => h first second⟩

/-- The script has found `mode` not loaded and its own `systemd-run` is still to come. -/
def Pc.passed : Pc → Mode → Bool
  | .probe rest, mode => !rest.contains mode
  | .lockExists, _ | .flockProbe, _ | .pgrep, _ | .removeLock, _ => true
  | .mkdirRun, _ | .removeResult, _ | .systemdRun, _ => true
  | _, _ => false

/-- A `systemd-run` of one mode finds no invocation of another mode past its
check of that unit and before its own start. -/
def NoRival (s : System) : Event → Prop
  | .exec pid => ∀ inv, s.procs pid = some inv → inv.pc = .systemdRun →
      s.loaded inv.mode = false →
      ∀ other rival, s.procs other = some rival → rival.mode ≠ inv.mode →
        rival.pc.passed inv.mode = false
  | _ => True

/-! ## What one command and one step can do -/

@[simp] theorem goto_units (s : System) (pid : Pid) (inv : Invocation) (pc : Pc) :
    (s.goto pid inv pc).units = s.units := rfl

@[simp] theorem goto_procs (s : System) (pid : Pid) (inv : Invocation) (pc : Pc) :
    (s.goto pid inv pc).procs = Function.update s.procs pid (some { inv with pc := pc }) := rfl

@[simp] theorem setResult_units (s : System) (mode : Mode) (file : ResultFile) :
    (s.setResult mode file).units = s.units := rfl

@[simp] theorem setResult_procs (s : System) (mode : Mode) (file : ResultFile) :
    (s.setResult mode file).procs = s.procs := rfl

@[simp] theorem setUnit_procs (s : System) (mode : Mode) (unit : Option UnitRun) :
    (s.setUnit mode unit).procs = s.procs := rfl

@[simp] theorem setUnit_units (s : System) (mode : Mode) (unit : Option UnitRun) :
    (s.setUnit mode unit).units = Function.update s.units mode unit := rfl

@[simp] theorem setStc_units (s : System) (id : Nat) (phase : StcPhase) :
    (s.setStc id phase).units = s.units := rfl

@[simp] theorem setStc_procs (s : System) (id : Nat) (phase : StcPhase) :
    (s.setStc id phase).procs = s.procs := rfl

/-- A command moves its own script on.  It loads a unit only as the
`systemd-run` of an unloaded one, and it passes a check only by finding the
unit not loaded. -/
theorem command_spec {s t : System} {pid : Pid} {inv : Invocation}
    (run : command s pid inv = some t) :
    ∃ pc, t.procs = Function.update s.procs pid (some { inv with pc := pc }) ∧
      (t.units = s.units ∨
        inv.pc = .systemdRun ∧ s.loaded inv.mode = false ∧
          t.units = Function.update s.units inv.mode (some ⟨pid, .queued⟩)) ∧
      (∀ mode, pc.passed mode = true →
        (inv.pc.passed mode = true ∧ inv.pc ≠ .systemdRun) ∨
          (s.loaded mode = false ∧ t.units = s.units)) := by
  obtain ⟨mode, pc⟩ := inv
  cases pc with
  | probe rest =>
      cases rest with
      | nil =>
          simp only [command, Option.some.injEq] at run
          subst t
          exact ⟨_, rfl, .inl rfl, fun mode _ => .inl ⟨rfl, by simp⟩⟩
      | cons head rest =>
          simp only [command] at run
          by_cases headLoaded : s.loaded head = true
          · simp only [headLoaded, if_true, Option.some.injEq] at run
            subst t
            exact ⟨_, rfl, .inl rfl, fun mode h => by simp [Pc.passed] at h⟩
          · rw [if_neg headLoaded] at run
            cases run
            refine ⟨_, rfl, .inl rfl, fun probed h => ?_⟩
            by_cases probedHead : probed = head
            · subst probed
              exact .inr ⟨by simpa using headLoaded, rfl⟩
            · refine .inl ⟨?_, by simp⟩
              simpa [Pc.passed, probedHead] using h
  | lockExists =>
      simp only [command] at run
      split at run <;> cases run <;>
        exact ⟨_, rfl, .inl rfl, fun mode _ => .inl ⟨rfl, by simp⟩⟩
  | flockProbe =>
      simp only [command] at run
      split at run
      · cases run
        exact ⟨_, rfl, .inl rfl, fun mode _ => .inl ⟨rfl, by simp⟩⟩
      · split at run <;> cases run <;>
          exact ⟨_, rfl, .inl rfl, fun mode _ => .inl ⟨rfl, by simp⟩⟩
  | pgrep =>
      simp only [command] at run
      split at run <;> cases run <;>
        exact ⟨_, rfl, .inl rfl, fun mode _ => .inl ⟨rfl, by simp⟩⟩
  | removeLock | mkdirRun | removeResult =>
      simp only [command, Option.some.injEq] at run
      subst t
      exact ⟨_, rfl, .inl rfl, fun mode _ => .inl ⟨rfl, by simp⟩⟩
  | systemdRun =>
      simp only [command] at run
      split at run
      · cases run
        exact ⟨_, rfl, .inl rfl, fun mode h => by simp [Pc.passed] at h⟩
      · rename_i free
        cases run
        exact ⟨_, rfl, .inr ⟨rfl, by simpa using free, rfl⟩,
          fun mode h => by simp [Pc.passed] at h⟩
  | pollResult | pollUnit | grace =>
      simp only [command] at run
      split at run <;> cases run <;>
        exact ⟨_, rfl, .inl rfl, fun mode h => by simp [Pc.passed] at h⟩
  | drain =>
      simp only [command, Option.some.injEq] at run
      subst t
      exact ⟨_, rfl, .inl rfl, fun mode h => by simp [Pc.passed] at h⟩
  | report =>
      simp only [command] at run
      split at run <;> cases run <;>
        exact ⟨_, rfl, .inl rfl, fun mode h => by simp [Pc.passed] at h⟩
  | exited code => simp [command] at run
  | interrupted => simp [command] at run

theorem launched_passed (args : List String) (target : Target) (mode : Mode) :
    (launched args target).pc.passed mode = false := by
  unfold launched
  split
  · rfl
  · simpa [Pc.passed] using mem_modes mode

theorem stopUnits_isSome (units : Mode → Option UnitRun) (id : Nat) (report : Report)
    (mode : Mode) : (stopUnits units id report mode).isSome = (units mode).isSome := by
  simp [stopUnits]

/-- Every other step loads no unit, and no script passes a check by it. -/
theorem step_environment {s t : System} {event : Event} (run : step s event = some t)
    (environment : ∀ pid, event ≠ .exec pid) :
    (∀ mode, t.loaded mode = true → s.loaded mode = true) ∧
      (∀ pid inv, t.procs pid = some inv → s.procs pid = some inv ∨
        ∀ mode, inv.pc.passed mode = false) := by
  have moved : ∀ (pid : Pid) (old : Invocation) (pc : Pc), (∀ mode, pc.passed mode = false) →
      ∀ other inv, (s.goto pid old pc).procs other = some inv →
        s.procs other = some inv ∨ ∀ mode, inv.pc.passed mode = false := by
    intro pid old pc notPassed other inv found
    by_cases same : other = pid
    · subst other
      simp only [goto_procs, Function.update_self, Option.some.injEq] at found
      subst inv
      exact .inr notPassed
    · rw [goto_procs, Function.update_of_ne same] at found
      exact .inl found
  cases event with
  | exec pid => exact absurd rfl (environment pid)
  | launch pid args target =>
      simp only [step] at run
      split at run
      · contradiction
      · cases run
        refine ⟨fun mode h => h, fun other inv found => ?_⟩
        by_cases same : other = pid
        · subst other
          simp only [Function.update_self, Option.some.injEq] at found
          subst inv
          exact .inr (launched_passed args target)
        · simp only [Function.update_of_ne same] at found
          exact .inl found
  | fail pid =>
      obtain ⟨inv, _, run⟩ := Option.bind_eq_some_iff.mp run
      split at run <;> cases run
      exact ⟨fun mode h => h, moved pid inv _ fun _ => rfl⟩
  | interrupt pid =>
      obtain ⟨inv, _, run⟩ := Option.bind_eq_some_iff.mp run
      split at run <;> cases run
      exact ⟨fun mode h => h, moved pid inv _ fun _ => rfl⟩
  | unitStart mode =>
      simp only [step] at run
      split at run
      · rename_i starter queued
        cases run
        refine ⟨fun other h => ?_, fun pid inv found => .inl found⟩
        by_cases same : other = mode
        · subst other
          simp [System.loaded, queued]
        · simpa [System.loaded, Function.update_of_ne same] using h
      · contradiction
  | stcOutside =>
      cases run
      exact ⟨fun mode h => h, fun pid inv found => .inl found⟩
  | stcOpen id =>
      simp only [step] at run
      split at run
      · split at run <;> cases run <;>
          exact ⟨fun mode h => h, fun pid inv found => .inl found⟩
      · contradiction
  | stcLock id =>
      simp only [step] at run
      split at run
      · split at run
        · contradiction
        · cases run
          exact ⟨fun mode h => h, fun pid inv found => .inl found⟩
      · contradiction
  | stcExit id report orphaned =>
      simp only [step, Option.map_eq_some_iff] at run
      obtain ⟨stc, _, rfl⟩ := run
      refine ⟨fun mode h => ?_, fun pid inv found => .inl found⟩
      simpa [System.loaded, stcExit, stopUnits_isSome] using h
  | stopPostOpen mode | stopPostWrite mode =>
      simp only [step] at run
      split at run
      · rename_i starter report phase
        cases run
        refine ⟨fun other h => ?_, fun pid inv found => .inl found⟩
        by_cases same : other = mode
        · subst other
          simp [System.loaded, phase]
        · simpa [System.loaded, Function.update_of_ne same] using h
      · contradiction
  | collect mode =>
      simp only [step] at run
      split at run
      · cases run
        refine ⟨fun other h => ?_, fun pid inv found => .inl found⟩
        by_cases same : other = mode
        · subst other
          simp [System.loaded] at h
        · simpa [System.loaded, Function.update_of_ne same] using h
      · contradiction
  | orphanExit inode =>
      cases run
      exact ⟨fun mode h => h, fun pid inv found => .inl found⟩

/-! ## The invariant -/

/-- No two units are loaded, and no script has passed its check of a unit of
another mode that is loaded now. -/
structure Exclusive (s : System) : Prop where
  oneLoaded : AtMostOneLoaded s
  checked : ∀ pid inv mode, s.procs pid = some inv → s.loaded mode = true → inv.mode ≠ mode →
    inv.pc.passed mode = false

theorem exclusive_atBoot {s : System} (boot : s.AtBoot) : Exclusive s where
  oneLoaded first second firstLoaded _ := by
    simp [System.loaded, boot.1] at firstLoaded
  checked pid inv mode found := by
    simp [boot.2] at found

theorem exclusive_exec {s t : System} {pid : Pid} {inv : Invocation} (held : Exclusive s)
    (found : s.procs pid = some inv) (alone : NoRival s (.exec pid))
    (run : command s pid inv = some t) : Exclusive t := by
  obtain ⟨pc, procs, units, passed⟩ := command_spec run
  rcases units with same | ⟨atStart, free, started⟩
  · have sameLoaded : ∀ mode, t.loaded mode = s.loaded mode := by
      intro mode
      simp only [System.loaded, same]
    refine ⟨fun first second => ?_, fun other moved mode member isLoaded otherMode => ?_⟩
    · simpa only [sameLoaded] using held.oneLoaded first second
    · rw [sameLoaded] at isLoaded
      by_cases self : other = pid
      · subst other
        rw [procs, Function.update_self] at member
        cases member
        by_contra notPassed
        rcases passed mode (by simpa using notPassed) with ⟨before, _⟩ | ⟨free, _⟩
        · rw [held.checked pid inv mode found isLoaded otherMode] at before
          contradiction
        · rw [free] at isLoaded
          contradiction
      · rw [procs, Function.update_of_ne self] at member
        exact held.checked other moved mode member isLoaded otherMode
  · -- The start: the starter had passed every check, so nothing else is loaded.
    have loadedAfter : ∀ mode, t.loaded mode = true →
        mode = inv.mode ∨ s.loaded mode = true := by
      intro mode isLoaded
      by_cases own : mode = inv.mode
      · exact .inl own
      · refine .inr ?_
        simpa [System.loaded, started, Function.update_of_ne own] using isLoaded
    have onlyOwn : ∀ mode, t.loaded mode = true → mode = inv.mode := by
      intro mode isLoaded
      rcases loadedAfter mode isLoaded with own | before
      · exact own
      · by_contra other
        have unchecked := held.checked pid inv mode found before (fun e => other e.symm)
        rw [atStart] at unchecked
        simp [Pc.passed] at unchecked
    refine ⟨fun first second firstLoaded secondLoaded => ?_,
      fun other moved mode member isLoaded otherMode => ?_⟩
    · rw [onlyOwn first firstLoaded, onlyOwn second secondLoaded]
    · rw [onlyOwn mode isLoaded] at otherMode ⊢
      by_cases self : other = pid
      · subst other
        rw [procs, Function.update_self] at member
        cases member
        exact absurd rfl otherMode
      · rw [procs, Function.update_of_ne self] at member
        exact alone inv found atStart free other moved member otherMode

theorem exclusive_step {s t : System} {event : Event} (held : Exclusive s)
    (alone : NoRival s event) (run : step s event = some t) : Exclusive t := by
  by_cases isExec : ∃ pid, event = .exec pid
  · obtain ⟨pid, rfl⟩ := isExec
    obtain ⟨inv, found, run⟩ := Option.bind_eq_some_iff.mp run
    exact exclusive_exec held found alone run
  · obtain ⟨loaded, procs⟩ := step_environment run fun pid e => isExec ⟨pid, e⟩
    refine ⟨fun first second firstLoaded secondLoaded =>
      held.oneLoaded first second (loaded first firstLoaded) (loaded second secondLoaded),
      fun pid inv mode member isLoaded otherMode => ?_⟩
    rcases procs pid inv member with before | notPassed
    · exact held.checked pid inv mode before (loaded mode isLoaded) otherMode
    · exact notPassed mode

/-! ## One invocation alone, and two -/

def System.booted : System where
  units _ := none
  results _ := .absent
  lockPath := none
  nextInode := 0
  stcs := []
  nextStc := 0
  orphans := []
  procs _ := none

def Target.current : Target where
  root := true
  resolved _ := some "/nix/store/current"
  executable _ := true

/-- Launch, the three probes and the commands up to and including the start. -/
def started (pid : Pid) (args : List String) : List Event :=
  .launch pid args .current :: List.replicate 8 (.exec pid)

theorem booted_atBoot : System.booted.AtBoot := ⟨fun _ => rfl, fun _ => rfl⟩

/-! ## The invocations of a run -/

/-- No other process is an invocation. -/
def System.Crewed (crew : List Pid) (s : System) : Prop := ∀ pid ∉ crew, s.procs pid = none

theorem System.Crewed.mem {s : System} {crew : List Pid} {pid : Pid} {inv : Invocation}
    (crewed : s.Crewed crew) (found : s.procs pid = some inv) : pid ∈ crew := by
  by_contra outside
  rw [crewed pid outside] at found
  cases found

/-- Whoever is launched is of the crew. -/
def Event.within (crew : List Pid) : Event → Bool
  | .launch pid _ _ => crew.contains pid
  | _ => true

theorem crewed_step {s t : System} {crew : List Pid} {event : Event} (crewed : s.Crewed crew)
    (within : event.within crew = true) (run : step s event = some t) : t.Crewed crew := by
  intro pid outside
  have absent := crewed pid outside
  have kept (runner : Pid) (inv : Invocation) (found : s.procs runner = some inv) (pc : Pc) :
      Function.update s.procs runner (some { inv with pc := pc }) pid = none := by
    have differs : pid ≠ runner := by
      rintro rfl
      rw [absent] at found
      cases found
    rw [Function.update_of_ne differs, absent]
  cases event with
  | launch runner args target =>
      have differs : pid ≠ runner := by
        rintro rfl
        exact outside (List.contains_iff_mem.mp within)
      simp only [step] at run
      split at run
      · contradiction
      · cases run
        simpa [Function.update_of_ne differs] using absent
  | exec runner =>
      obtain ⟨inv, found, run⟩ := Option.bind_eq_some_iff.mp run
      obtain ⟨pc, procs, _⟩ := command_spec run
      rw [procs]
      exact kept runner inv found pc
  | fail runner | interrupt runner =>
      obtain ⟨inv, found, run⟩ := Option.bind_eq_some_iff.mp run
      split at run
      · cases run
        exact kept runner inv found _
      · contradiction
  | unitStart mode | stopPostOpen mode | stopPostWrite mode | collect mode =>
      simp only [step] at run
      split at run
      · cases run
        exact absent
      · contradiction
  | stcOpen id =>
      simp only [step] at run
      split at run
      · split at run
        · cases run
          exact absent
        · cases run
          exact absent
      · contradiction
  | stcLock id =>
      simp only [step] at run
      split at run
      · split at run
        · contradiction
        · cases run
          exact absent
      · contradiction
  | stcExit id report orphaned =>
      obtain ⟨stc, _, rfl⟩ := Option.map_eq_some_iff.mp run
      exact absent
  | stcOutside | orphanExit inode =>
      cases run
      exact absent

/-- No invocation of the crew is a rival of a start. -/
def rivalFree (crew : List Pid) (s : System) : Event → Bool
  | .exec pid => (s.procs pid).all fun inv =>
      inv.pc ≠ .systemdRun || s.loaded inv.mode ||
        crew.all fun other => (s.procs other).all fun rival =>
          rival.mode = inv.mode || !rival.pc.passed inv.mode
  | _ => true

theorem noRival_of_rivalFree {s : System} {crew : List Pid} {event : Event}
    (crewed : s.Crewed crew) (free : rivalFree crew s event = true) : NoRival s event := by
  cases event with
  | exec pid =>
      intro inv found atStart unloaded other rival member otherMode
      have unrivalled : ∀ other ∈ crew, (s.procs other).all (fun rival =>
          rival.mode = inv.mode || !rival.pc.passed inv.mode) = true := by
        simpa [rivalFree, found, atStart, unloaded] using free
      simpa [member, otherMode] using unrivalled other (crewed.mem member)
  | _ => trivial

theorem unrivalled_reachable (crew : List Pid) (events : List Event) (final : System)
    (within : events.all (Event.within crew) = true)
    (success : Machine.replay (fun s event => if rivalFree crew s event then step s event else none)
      System.booted events = some final) : (machine.restrict NoRival).Reachable final :=
  Machine.restrict_reachable_of_checked (rivalFree crew) (System.Crewed crew) events
    (fun _ _ _ crewed free => noRival_of_rivalFree crewed free)
    (fun _ _ event member crewed run =>
      crewed_step crewed (List.all_eq_true.mp within event member) run)
    System.booted final (.initial booted_atBoot) (fun _ _ => rfl) success

/-! ## Runs without a rival, and the race -/

/-- In every run in which no unit is started while an invocation of another
mode is past its check of it and before its own start, at most one of the three
units is loaded in every state. -/
theorem atMostOneLoaded_of_noRival (s : System)
    (reached : (machine.restrict NoRival).Reachable s) : AtMostOneLoaded s := by
  have exclusive : ∀ s, (machine.restrict NoRival).Reachable s → Exclusive s :=
    Machine.invariant (fun _ boot => exclusive_atBoot boot)
      fun _ _ _ _ held taken => exclusive_step held taken.1 taken.2
  exact (exclusive s reached).oneLoaded

/-- The unit of `mode` runs, with the switch-to-configuration `id`, up to the
written result. -/
def ending (mode : Mode) (id : Nat) (report : Report) : List Event :=
  [.unitStart mode, .stcOpen id, .stcLock id, .stcExit id report false, .stopPostOpen mode,
    .stopPostWrite mode]

/-- A second invocation begins its checks after the start of the first one, and is
refused; a third one begins when the unit is gone. -/
def inTurn : List Event :=
  .launch 1 ["boot"] .current :: started 0 ["switch"] ++ .exec 1 ::
    ending .switch 0 ⟨"success", "0"⟩ ++ .collect .switch :: started 2 ["boot"] ++ [.exec 2]

theorem atMostOneLoaded_inTurn :
    ∃ s, Machine.replay (fun s event => if rivalFree [0, 1, 2] s event then step s event else none)
        System.booted inTurn = some s ∧
      s.procs 1 = some ⟨.boot, .exited 1⟩ ∧ s.loaded .boot = true ∧ AtMostOneLoaded s :=
  ⟨_, rfl, rfl, rfl,
    atMostOneLoaded_of_noRival _ (unrivalled_reachable [0, 1, 2] inTurn _ rfl rfl)⟩

/-- Two invocations pass their checks before either starts. -/
def race : List Event :=
  [.launch 0 ["switch"] .current, .launch 1 ["boot"] .current] ++
    List.replicate 7 (.exec 0) ++ List.replicate 7 (.exec 1) ++ [.exec 0, .exec 1]

theorem race_loads_two : ¬ ∀ s, machine.Reachable s → AtMostOneLoaded s := by
  intro exclusive
  have run : (Machine.replay step System.booted race).isSome = true := rfl
  obtain ⟨s, run⟩ := Option.isSome_iff_exists.mp run
  have one := exclusive s (.steps (.initial booted_atBoot) (Machine.steps_of_replay race _ s run))
  have loaded : ∀ t, Machine.replay step System.booted race = some t →
      t.loaded .switch = true ∧ t.loaded .boot = true := by
    intro t replayed
    cases replayed
    exact ⟨rfl, rfl⟩
  exact absurd (one .switch .boot (loaded s run).1 (loaded s run).2) (by decide)

/-! ## The condition is tight -/

/-- The commands a script still has to run up to and including its start. -/
def Pc.ahead : Pc → Nat
  | .probe rest => rest.length + 8
  | .lockExists => 7
  | .flockProbe => 6
  | .pgrep => 5
  | .removeLock => 4
  | .mkdirRun => 3
  | .removeResult => 2
  | .systemdRun => 1
  | _ => 0

theorem stcExit_loaded (s : System) (stc : Stc) (report : Report) (orphaned : Bool) :
    (stcExit s stc report orphaned).loaded = s.loaded := by
  funext mode
  simp [System.loaded, stcExit, stopUnits_isSome]

/-- Every switch-to-configuration process may exit before the next command runs. -/
theorem stcs_drain (s : System) :
    ∃ t, machine.Steps s t ∧ t.stcs = [] ∧ t.loaded = s.loaded ∧ t.procs = s.procs := by
  generalize size : s.stcs.length = n
  induction n using Nat.strongRecOn generalizing s with
  | _ n ih =>
      cases stcs : s.stcs with
      | nil => exact ⟨s, .refl, stcs, rfl, rfl⟩
      | cons stc rest =>
          let next := stcExit s stc ⟨"success", "0"⟩ false
          have taken : step s (.stcExit stc.id ⟨"success", "0"⟩ false) = some next := by
            simp [step, stcs, next]
          have shorter : next.stcs.length < n := by
            have kept : (rest.filter fun other => other.id ≠ stc.id).length ≤ rest.length :=
              List.length_filter_le _ _
            rw [← size]
            simpa [next, stcExit, stcs] using Nat.lt_succ_of_le kept
          obtain ⟨t, run, empty, loaded, procs⟩ := ih _ shorter next rfl
          refine ⟨t, (Machine.Steps.single _ taken).trans run, empty, ?_, procs⟩
          rw [loaded, stcExit_loaded]

/-- A script that has passed its check of the one loaded unit gets through every
command before its start. -/
theorem command_advances {s : System} (pid : Pid) {inv : Invocation} {mode : Mode}
    (empty : s.stcs = []) (only : ∀ other, s.loaded other = true → other = mode)
    (passed : inv.pc.passed mode = true) (before : inv.pc ≠ .systemdRun) :
    ∃ t pc, command s pid inv = some t ∧ t.stcs = [] ∧ t.loaded = s.loaded ∧
      t.procs pid = some { inv with pc := pc } ∧ pc.passed mode = true ∧
      pc.ahead < inv.pc.ahead := by
  have moves : ∀ (world : System) (pc : Pc), world.stcs = s.stcs → world.units = s.units →
      command s pid inv = some (world.goto pid inv pc) → pc.passed mode = true →
      pc.ahead < inv.pc.ahead →
      ∃ t pc, command s pid inv = some t ∧ t.stcs = [] ∧ t.loaded = s.loaded ∧
        t.procs pid = some { inv with pc := pc } ∧ pc.passed mode = true ∧
        pc.ahead < inv.pc.ahead := by
    intro world pc stcs units run stillPassed less
    refine ⟨_, pc, run, stcs.trans empty, ?_, by simp, stillPassed, less⟩
    funext other
    simp only [System.loaded, goto_units, units]
  obtain ⟨own, pc⟩ := inv
  cases pc with
  | probe rest =>
      cases rest with
      | nil => exact moves s .lockExists rfl rfl rfl rfl (by simp [Pc.ahead])
      | cons head rest =>
          have notHead : mode ≠ head ∧ mode ∉ rest := by simpa [Pc.passed] using passed
          have free : s.loaded head = false := by
            by_contra isLoaded
            exact notHead.1 (only head (by simpa using isLoaded)).symm
          refine moves s (.probe rest) rfl rfl (by simp [command, free]) ?_ (by simp [Pc.ahead])
          simpa [Pc.passed] using notHead.2
  | lockExists =>
      by_cases present : s.lockPath.isSome = true
      · exact moves s .flockProbe rfl rfl (if_pos present) rfl (by simp [Pc.ahead])
      · exact moves s .mkdirRun rfl rfl (if_neg present) rfl (by simp [Pc.ahead])
  | flockProbe =>
      cases path : s.lockPath with
      | none =>
          exact moves { s with lockPath := some s.nextInode, nextInode := s.nextInode + 1 } .mkdirRun
            rfl rfl (by simp only [command, path]) rfl (by simp [Pc.ahead])
      | some inode =>
          by_cases held : s.locked inode = true
          · exact moves s .pgrep rfl rfl (by simp [command, path, held]) rfl (by simp [Pc.ahead])
          · exact moves s .mkdirRun rfl rfl (by simp [command, path, held]) rfl (by simp [Pc.ahead])
  | pgrep => exact moves s .removeLock rfl rfl (by simp [command, empty]) rfl (by simp [Pc.ahead])
  | removeLock =>
      exact moves { s with lockPath := none } .mkdirRun rfl rfl rfl rfl (by simp [Pc.ahead])
  | mkdirRun => exact moves s .removeResult rfl rfl rfl rfl (by simp [Pc.ahead])
  | removeResult =>
      exact moves (s.setResult own .absent) .systemdRun rfl rfl rfl rfl (by simp [Pc.ahead])
  | systemdRun => exact absurd rfl before
  | pollResult | pollUnit | grace | drain | report | exited _ | interrupted =>
      simp [Pc.passed] at passed

/-- ... and so reaches its start, which overlaps. -/
theorem rival_overlaps (s : System) (pid : Pid) (inv : Invocation) (mode : Mode)
    (empty : s.stcs = []) (found : s.procs pid = some inv) (passed : inv.pc.passed mode = true)
    (otherMode : inv.mode ≠ mode) (isLoaded : s.loaded mode = true) :
    ∃ final, machine.Steps s final ∧ ¬ AtMostOneLoaded final := by
  generalize size : inv.pc.ahead = n
  induction n using Nat.strongRecOn generalizing s inv with
  | _ n ih =>
      by_cases only : ∀ other, s.loaded other = true → other = mode
      · by_cases atStart : inv.pc = .systemdRun
        · have free : s.loaded inv.mode = false := by
            by_contra loaded
            exact otherMode (only inv.mode (by simpa using loaded))
          refine ⟨_, Machine.Steps.single (.exec pid) (by
            simp only [machine, Machine.ofStep, step, found, Option.bind_some, command, atStart, free,
              Bool.false_eq_true, if_false]
            rfl), fun one => otherMode (one inv.mode mode ?_ ?_)⟩
          · simp [System.loaded]
          · simpa [System.loaded, Function.update_of_ne otherMode.symm] using isLoaded
        · obtain ⟨t, pc, run, emptyAfter, loaded, foundAfter, passedAfter, less⟩ :=
            command_advances pid empty only passed atStart
          have taken : step s (.exec pid) = some t := by simp [step, found, run]
          obtain ⟨final, steps, overlap⟩ := ih pc.ahead (size ▸ less) t { inv with pc := pc }
            emptyAfter foundAfter passedAfter otherMode (by rw [loaded]; exact isLoaded) rfl
          exact ⟨final, (Machine.Steps.single _ taken).trans steps, overlap⟩
      · refine ⟨s, .refl, fun one => only fun other loaded => one other mode loaded isLoaded⟩

/-- A start that the condition excludes is one from which two loaded units can
follow. -/
theorem overlap_of_rival (s : System) (event : Event) (raced : ¬ NoRival s event) :
    ∃ final, machine.Steps s final ∧ ¬ AtMostOneLoaded final := by
  cases event with
  | exec pid =>
      simp only [NoRival] at raced
      simp only [not_forall, Bool.not_eq_false] at raced
      obtain ⟨inv, found, atStart, free, other, rival, member, otherMode, passed⟩ := raced
      have notSelf : other ≠ pid := by
        intro same
        subst other
        rw [found, Option.some.injEq] at member
        exact otherMode (by rw [member])
      let next := (s.setUnit inv.mode (some ⟨pid, .queued⟩)).goto pid inv .pollResult
      have taken : step s (.exec pid) = some next := by
        simp [step, found, command, atStart, free, next]
      obtain ⟨t, run, empty, loaded, procs⟩ := stcs_drain next
      have memberAfter : t.procs other = some rival := by
        rw [procs]
        simpa [next, Function.update_of_ne notSelf] using member
      have isLoaded : t.loaded inv.mode = true := by
        rw [loaded]
        simp [System.loaded, next]
      obtain ⟨final, steps, overlap⟩ := rival_overlaps t other rival inv.mode empty memberAfter
        (by simpa using passed) otherMode isLoaded
      exact ⟨final, ((Machine.Steps.single _ taken).trans run).trans steps, overlap⟩
  | _ => exact absurd trivial raced

end Nixnas.Switch
