import Nixnas.Switch.Lock
import Nixnas.Switch.Result

/-!
# Losing the session

What `nixnas-switch` does after its `systemd-run` only looks at the unit and the
result file: a script that is killed then, as its session is lost, takes nothing
with it.  Everything else goes on as it would have, and the activation comes to its
end with its result captured.
-/

set_option autoImplicit false

namespace Nixnas.Switch

open Nixnas.Logic

/-- The event is one of the script `pid`. -/
def Event.of (pid : Pid) : Event → Bool
  | .launch other _ _ => other = pid
  | .exec other => other = pid
  | .fail other => other = pid
  | .interrupt other => other = pid
  | _ => false

/-- The event is one of no script: the manager or an activation moves. -/
def Event.ofSystem : Event → Bool
  | .launch _ _ _ => false
  | .exec _ => false
  | .fail _ => false
  | .interrupt _ => false
  | _ => true

/-- The system with another state of the script `pid`. -/
def System.put (s : System) (pid : Pid) (own : Option Invocation) : System :=
  { s with procs := Function.update s.procs pid own }

/-! ## Other events do not see a script -/

section Frame

variable {s t : System} {pid other : Pid} {own : Option Invocation}

@[simp] theorem put_units : (s.put pid own).units = s.units := rfl

@[simp] theorem put_results : (s.put pid own).results = s.results := rfl

@[simp] theorem put_lockPath : (s.put pid own).lockPath = s.lockPath := rfl

@[simp] theorem put_nextInode : (s.put pid own).nextInode = s.nextInode := rfl

@[simp] theorem put_stcs : (s.put pid own).stcs = s.stcs := rfl

@[simp] theorem put_self : (s.put pid own).procs pid = own := Function.update_self _ _ _

theorem put_other (apart : other ≠ pid) : (s.put pid own).procs other = s.procs other :=
  Function.update_of_ne apart _ _

theorem put_put (again : Option Invocation) : (s.put pid own).put pid again = s.put pid again := by
  simp [System.put]

theorem put_goto (apart : other ≠ pid) (inv : Invocation) (pc : Pc) :
    (s.put pid own).goto other inv pc = (s.goto other inv pc).put pid own := by
  simp only [System.put, System.goto]
  rw [Function.update_comm apart]

theorem map_ite {α β : Type} {f : α → β} {c d : Prop} [Decidable c] [Decidable d] (same : c = d)
    {first second : Option β} {yes no : Option α} (isFirst : first = yes.map f)
    (isSecond : second = no.map f) :
    (if c then first else second) = (if d then yes else no).map f := by
  subst same
  by_cases holds : c
  · rw [if_pos holds, if_pos holds, isFirst]
  · rw [if_neg holds, if_neg holds, isSecond]

/-- A command of another script does the same whatever this one is at. -/
theorem command_put (apart : other ≠ pid) (inv : Invocation) :
    command (s.put pid own) other inv =
      (command s other inv).map fun next => next.put pid own := by
  have moves (world : System) (pc : Pc) : some ((world.put pid own).goto other inv pc) =
      (some (world.goto other inv pc)).map fun next => next.put pid own :=
    congrArg some (put_goto apart inv pc)
  obtain ⟨mode, pc⟩ := inv
  cases pc with
  | probe rest =>
      cases rest with
      | nil => exact moves s .lockExists
      | cons head rest =>
          simp only [command]
          exact map_ite rfl (moves s (.exited 1)) (moves s (.probe rest))
  | lockExists =>
      simp only [command]
      exact map_ite rfl (moves s .flockProbe) (moves s .mkdirRun)
  | flockProbe =>
      simp only [command, put_lockPath, put_nextInode]
      cases s.lockPath with
      | none =>
          exact moves { s with lockPath := some s.nextInode, nextInode := s.nextInode + 1 }
            .mkdirRun
      | some inode => exact map_ite rfl (moves s .pgrep) (moves s .mkdirRun)
  | pgrep =>
      simp only [command]
      exact map_ite rfl (moves s .removeLock) (moves s (.exited 1))
  | removeLock => exact moves { s with lockPath := none } .mkdirRun
  | mkdirRun => exact moves s .removeResult
  | removeResult => exact moves (s.setResult mode .absent) .systemdRun
  | systemdRun =>
      simp only [command]
      exact map_ite rfl (moves s (.exited 1))
        (moves (s.setUnit mode (some ⟨other, .queued⟩)) .pollResult)
  | pollResult =>
      simp only [command]
      exact map_ite rfl (moves s .drain) (moves s .pollUnit)
  | pollUnit =>
      simp only [command]
      exact map_ite rfl (moves s .pollResult) (moves s .grace)
  | grace =>
      simp only [command]
      exact map_ite rfl (moves s .pollResult) (moves s (.exited 1))
  | drain => exact moves s .report
  | report =>
      simp only [command, put_results]
      cases s.results mode with
      | written report => exact moves s (.exited report.exitCode)
      | absent => exact moves s (.exited 1)
      | empty => exact moves s (.exited 1)
  | exited code => rfl
  | interrupted => rfl

/-- Every event of another script, or of none, does the same. -/
theorem step_put {event : Event} (others : event.of pid = false) :
    step (s.put pid own) event = (step s event).map fun next => next.put pid own := by
  cases event with
  | launch other args target =>
      have apart : other ≠ pid := of_decide_eq_false others
      simp only [step, put_other apart]
      cases s.procs other with
      | some inv => rfl
      | none =>
          simp only [System.put, Option.map_some]
          rw [Function.update_comm apart]
  | exec other =>
      have apart : other ≠ pid := of_decide_eq_false others
      simp only [step, put_other apart]
      cases s.procs other with
      | some inv => exact command_put apart inv
      | none => rfl
  | fail other =>
      have apart : other ≠ pid := of_decide_eq_false others
      simp only [step, put_other apart]
      cases s.procs other with
      | some inv => exact map_ite rfl (congrArg some (put_goto apart inv _)) rfl
      | none => rfl
  | interrupt other =>
      have apart : other ≠ pid := of_decide_eq_false others
      simp only [step, put_other apart]
      cases s.procs other with
      | some inv => exact map_ite rfl (congrArg some (put_goto apart inv _)) rfl
      | none => rfl
  | unitStart mode =>
      simp only [step, put_units]
      cases s.units mode with
      | none => rfl
      | some unit =>
          obtain ⟨starter, phase⟩ := unit
          cases phase <;> rfl
  | stcOutside => rfl
  | stcOpen id =>
      simp only [step]
      refine map_ite rfl ?_ rfl
      simp only [put_lockPath, put_nextInode]
      cases s.lockPath with
      | none => rfl
      | some inode => rfl
  | stcLock id =>
      simp only [step, put_stcs]
      cases s.stcs.find? fun stc => stc.id = id with
      | none => rfl
      | some stc =>
          obtain ⟨stcId, phase⟩ := stc
          cases phase with
          | opened inode => exact map_ite rfl rfl rfl
          | spawned => rfl
          | holding inode => rfl
  | stcExit id report orphaned =>
      simp only [step, put_stcs]
      cases s.stcs.find? fun stc => stc.id = id with
      | none => rfl
      | some stc => rfl
  | stopPostOpen mode =>
      simp only [step, put_units]
      cases s.units mode with
      | none => rfl
      | some unit =>
          obtain ⟨starter, phase⟩ := unit
          cases phase <;> rfl
  | stopPostWrite mode =>
      simp only [step, put_units]
      cases s.units mode with
      | none => rfl
      | some unit =>
          obtain ⟨starter, phase⟩ := unit
          cases phase <;> rfl
  | collect mode =>
      simp only [step, put_units]
      cases s.units mode with
      | none => rfl
      | some unit =>
          obtain ⟨starter, phase⟩ := unit
          cases phase <;> rfl
  | orphanExit inode => rfl

end Frame

/-! ## A script that has started its unit only looks -/

theorem Pc.mayFail_of_started {pc : Pc} (started : pc.started = true) : pc.mayFail = false := by
  cases pc <;> first | rfl | cases started

theorem step_own {s t : System} {pid : Pid} {inv : Invocation} {event : Event}
    (own : event.of pid = true) (found : s.procs pid = some inv) (started : inv.pc.started = true)
    (taken : step s event = some t) :
    ∃ pc, t = s.put pid (some { inv with pc := pc }) ∧ pc.started = true := by
  cases event with
  | launch other args target =>
      cases of_decide_eq_true own
      simp [step, found] at taken
  | exec other =>
      cases of_decide_eq_true own
      simp only [step, found, Option.bind_some] at taken
      obtain ⟨mode, pc⟩ := inv
      cases pc with
      | probe rest => cases started
      | lockExists | flockProbe | pgrep | removeLock => cases started
      | mkdirRun | removeResult | systemdRun => cases started
      | drain =>
          cases Option.some.inj taken
          exact ⟨_, rfl, rfl⟩
      | pollResult | pollUnit | grace | report =>
          simp only [command] at taken
          split at taken
          · cases taken
            exact ⟨_, rfl, rfl⟩
          · cases taken
            exact ⟨_, rfl, rfl⟩
      | exited code => cases taken
      | interrupted => cases taken
  | fail other =>
      cases of_decide_eq_true own
      simp [step, found, Pc.mayFail_of_started started] at taken
  | interrupt other =>
      cases of_decide_eq_true own
      simp only [step, found, Option.bind_some] at taken
      split at taken
      · cases taken
        exact ⟨.interrupted, rfl, rfl⟩
      · cases taken
  | unitStart mode | stcOutside | stcOpen id | stcLock id | stcExit id report orphaned
  | stopPostOpen mode | stopPostWrite mode | collect mode | orphanExit inode => cases own

/-- The script `pid` is past its start, and the other system is this one with the
script killed. -/
def Lost (pid : Pid) (mode : Mode) (s lost : System) : Prop :=
  (∃ pc, s.procs pid = some ⟨mode, pc⟩ ∧ pc.started = true) ∧
    lost = s.put pid (some ⟨mode, .interrupted⟩)

theorem put_procs_self (s : System) (pid : Pid) : s.put pid (s.procs pid) = s := by
  simp [System.put]

/-- Other events leave the script where it is. -/
theorem procs_of_others {s t : System} {pid : Pid} {event : Event} (others : event.of pid = false)
    (taken : step s event = some t) : t.procs pid = s.procs pid := by
  have same : step (s.put pid (s.procs pid)) event =
      (step s event).map fun next => next.put pid (s.procs pid) := step_put others
  rw [put_procs_self, taken] at same
  have isPut := Option.some.inj same
  rw [isPut]
  exact put_self

theorem lost_follows {pid : Pid} {mode : Mode} {s lost t : System} {event : Event}
    (held : Lost pid mode s lost) (others : event.of pid = false) (taken : step s event = some t) :
    ∃ moved, step lost event = some moved ∧ Lost pid mode t moved := by
  obtain ⟨⟨pc, found, started⟩, rfl⟩ := held
  refine ⟨t.put pid (some ⟨mode, .interrupted⟩), ?_, ⟨pc, ?_, started⟩, rfl⟩
  · rw [step_put others, taken]
    rfl
  · rw [procs_of_others others taken, found]

theorem lost_stays {pid : Pid} {mode : Mode} {s lost t : System} {event : Event}
    (held : Lost pid mode s lost) (own : event.of pid = true) (taken : step s event = some t) :
    Lost pid mode t lost := by
  obtain ⟨⟨pc, found, started⟩, rfl⟩ := held
  obtain ⟨after, rfl, stillStarted⟩ := step_own own found started taken
  refine ⟨⟨after, put_self, stillStarted⟩, ?_⟩
  rw [put_put]

/-- A killed script does nothing. -/
theorem lost_own {pid : Pid} {mode : Mode} {s lost t : System} {event : Event}
    (held : Lost pid mode s lost) (taken : step lost event = some t) : event.of pid = false := by
  obtain ⟨-, rfl⟩ := held
  cases own : event.of pid with
  | false => rfl
  | true =>
      cases event with
      | launch other args target =>
          cases of_decide_eq_true own
          simp [step] at taken
      | exec other =>
          cases of_decide_eq_true own
          simp [step, command] at taken
      | fail other =>
          cases of_decide_eq_true own
          simp [step, Pc.mayFail] at taken
      | interrupt other =>
          cases of_decide_eq_true own
          simp [step, Pc.live] at taken
      | unitStart mode | stcOutside | stcOpen id | stcLock id | stcExit id report orphaned
      | stopPostOpen mode | stopPostWrite mode | collect mode | orphanExit inode => cases own

theorem lost_follows_back {pid : Pid} {mode : Mode} {s lost moved : System} {event : Event}
    (held : Lost pid mode s lost) (taken : step lost event = some moved) :
    ∃ t, step s event = some t ∧ Lost pid mode t moved := by
  have others := lost_own held taken
  obtain ⟨⟨pc, found, started⟩, rfl⟩ := held
  rw [step_put others] at taken
  obtain ⟨t, happened, rfl⟩ := Option.map_eq_some_iff.mp taken
  exact ⟨t, happened, ⟨pc, (procs_of_others others happened).trans found, started⟩, rfl⟩

/-! ## An activation comes to its end -/

/-- The main process of an active unit is there. -/
def Manned (s : System) : Prop :=
  ∀ mode starter id, s.units mode = some ⟨starter, .active id⟩ → ∃ stc ∈ s.stcs, stc.id = id

theorem Manned.of_same {s t : System} (manned : Manned s) (units : t.units = s.units)
    (stcs : ∀ stc ∈ s.stcs, ∃ kept ∈ t.stcs, kept.id = stc.id) : Manned t := by
  intro mode starter id active
  rw [units] at active
  obtain ⟨stc, member, rfl⟩ := manned mode starter id active
  exact stcs stc member

theorem Manned.update {s t : System} (manned : Manned s) {mode : Mode} {unit : Option UnitRun}
    (units : t.units = Function.update s.units mode unit) (stcs : t.stcs = s.stcs)
    (passive : ∀ starter id, unit ≠ some ⟨starter, .active id⟩) : Manned t := by
  intro other starter id active
  rw [units] at active
  by_cases same : other = mode
  · subst other
    rw [Function.update_self] at active
    exact absurd active (passive starter id)
  · rw [Function.update_of_ne same] at active
    rw [stcs]
    exact manned other starter id active

theorem kept_setStc (s : System) (id : Nat) (phase : StcPhase) :
    ∀ stc ∈ s.stcs, ∃ kept ∈ (s.setStc id phase).stcs, kept.id = stc.id := by
  intro stc member
  refine ⟨_, List.mem_map_of_mem member, ?_⟩
  split
  · rfl
  · rfl

theorem manned_step {s t : System} {event : Event} (manned : Manned s)
    (taken : step s event = some t) : Manned t := by
  have same (stc : Stc) (member : stc ∈ s.stcs) : ∃ kept ∈ s.stcs, kept.id = stc.id :=
    ⟨stc, member, rfl⟩
  cases event with
  | launch pid args target =>
      simp only [step] at taken
      split at taken
      · cases taken
      · cases taken
        exact manned.of_same rfl same
  | exec pid =>
      obtain ⟨inv, -, run⟩ := Option.bind_eq_some_iff.mp taken
      have stcs := (command_lock run).1
      obtain ⟨pc, -, units | ⟨-, -, units⟩, -⟩ := command_spec run
      · exact manned.of_same units (stcs ▸ same)
      · refine manned.update units stcs ?_
        intro starter id clash
        cases clash
  | fail pid =>
      obtain ⟨inv, -, taken⟩ := Option.bind_eq_some_iff.mp taken
      split at taken
      · cases taken
        exact manned.of_same rfl same
      · cases taken
  | interrupt pid =>
      obtain ⟨inv, -, taken⟩ := Option.bind_eq_some_iff.mp taken
      split at taken
      · cases taken
        exact manned.of_same rfl same
      · cases taken
  | unitStart mode =>
      simp only [step] at taken
      split at taken
      · cases taken
        intro other starter id active
        by_cases isMode : other = mode
        · subst other
          simp only [setUnit_units, Function.update_self, Option.some.injEq, UnitRun.mk.injEq,
            UnitPhase.active.injEq] at active
          exact ⟨_, List.mem_cons_self, active.2⟩
        · simp only [setUnit_units, Function.update_of_ne isMode] at active
          obtain ⟨stc, member, isId⟩ := manned other starter id active
          exact ⟨stc, List.mem_cons_of_mem _ member, isId⟩
      · cases taken
  | stcOutside =>
      cases taken
      exact manned.of_same rfl fun stc member => ⟨stc, List.mem_cons_of_mem _ member, rfl⟩
  | stcOpen id =>
      simp only [step] at taken
      split at taken
      · split at taken
        · cases taken
          exact manned.of_same rfl (kept_setStc s id _)
        · cases taken
          exact manned.of_same rfl (kept_setStc s id _)
      · cases taken
  | stcLock id =>
      simp only [step] at taken
      split at taken
      · split at taken
        · cases taken
        · cases taken
          exact manned.of_same rfl (kept_setStc s id _)
      · cases taken
  | stcExit id report orphaned =>
      simp only [step, Option.map_eq_some_iff] at taken
      obtain ⟨stc, found, rfl⟩ := taken
      have isId : stc.id = id := by simpa using List.find?_some found
      intro mode starter other active
      simp only [stcExit, stopUnits, Option.map_eq_some_iff] at active
      obtain ⟨unit, before, after⟩ := active
      split at after
      · cases after
      · rename_i differs
        subst after
        obtain ⟨left, member, rfl⟩ := manned mode starter other before
        refine ⟨left, List.mem_filter.mpr ⟨member, ?_⟩, rfl⟩
        exact decide_eq_true fun clash => differs (by rw [clash])
  | stopPostOpen mode =>
      simp only [step] at taken
      split at taken
      · cases taken
        refine manned.update rfl rfl ?_
        intro starter id clash
        cases clash
      · cases taken
  | stopPostWrite mode =>
      simp only [step] at taken
      split at taken
      · cases taken
        refine manned.update rfl rfl ?_
        intro starter id clash
        cases clash
      · cases taken
  | collect mode =>
      simp only [step] at taken
      split at taken
      · cases taken
        refine manned.update rfl rfl ?_
        intro starter id clash
        cases clash
      · cases taken
  | orphanExit inode =>
      cases taken
      exact manned.of_same rfl same

theorem manned_reachable {s : System} (reached : machine.Reachable s) : Manned s := by
  induction reached with
  | initial start =>
      intro mode starter id active
      rw [start.1 mode] at active
      cases active
  | step event _ taken manned => exact manned_step manned taken

/-- What the activation of a unit can still end with. -/
def UnitPhase.MayEnd (report : Report) : UnitPhase → Prop
  | .queued => True
  | .active _ => True
  | .stopPost captured => captured = report
  | .capturing captured => captured = report
  | .finished => False

/-- The manager and the activation alone bring the unit to its end, with the report
in the result file. -/
def Completes (s : System) (mode : Mode) (report : Report) : Prop :=
  ∃ events t, (∀ event ∈ events, event.ofSystem = true) ∧
    Machine.replay step s events = some t ∧ t.units mode = none ∧ t.results mode = .written report

theorem Completes.step {s t : System} {mode : Mode} {report : Report} {event : Event}
    (ofSystem : event.ofSystem = true) (taken : step s event = some t)
    (completes : Completes t mode report) : Completes s mode report := by
  obtain ⟨events, final, all, run, ended⟩ := completes
  refine ⟨event :: events, final, ?_, ?_, ended⟩
  · intro other member
    rcases List.mem_cons.mp member with rfl | later
    · exact ofSystem
    · exact all other later
  · rw [Machine.replay, taken]
    exact run

theorem completes_finished {s : System} {mode : Mode} {starter : Pid} {report : Report}
    (unit : s.units mode = some ⟨starter, .finished⟩) (written : s.results mode = .written report) :
    Completes s mode report := by
  refine ⟨[.collect mode], s.setUnit mode none, ?_, ?_, Function.update_self _ _ _, written⟩
  · intro event member
    cases List.mem_singleton.mp member
    rfl
  · simp only [Machine.replay, step, unit]

theorem completes_capturing {s : System} {mode : Mode} {starter : Pid} {report : Report}
    (unit : s.units mode = some ⟨starter, .capturing report⟩) : Completes s mode report := by
  have taken : step s (.stopPostWrite mode) =
      some ((s.setResult mode (.written report)).setUnit mode (some ⟨starter, .finished⟩)) := by
    simp only [step, unit]
  exact .step rfl taken
    (completes_finished (Function.update_self _ _ _) (Function.update_self _ _ _))

theorem completes_stopPost {s : System} {mode : Mode} {starter : Pid} {report : Report}
    (unit : s.units mode = some ⟨starter, .stopPost report⟩) : Completes s mode report := by
  have taken : step s (.stopPostOpen mode) =
      some ((s.setResult mode .empty).setUnit mode (some ⟨starter, .capturing report⟩)) := by
    simp only [step, unit]
  exact .step rfl taken (completes_capturing (Function.update_self _ _ _))

theorem completes_active {s : System} (manned : Manned s) {mode : Mode} {starter : Pid} {id : Nat}
    (unit : s.units mode = some ⟨starter, .active id⟩) (report : Report) :
    Completes s mode report := by
  obtain ⟨stc, member, isId⟩ := manned mode starter id unit
  have some : (s.stcs.find? fun stc => stc.id = id).isSome = true := by
    rw [List.find?_isSome]
    exact ⟨stc, member, by simpa using isId⟩
  obtain ⟨main, found⟩ := Option.isSome_iff_exists.mp some
  have mainId : main.id = id := by simpa using List.find?_some found
  have taken : step s (.stcExit id report false) = .some (stcExit s main report false) := by
    simp only [step, found, Option.map_some]
  have stopped : (stcExit s main report false).units mode = .some ⟨starter, .stopPost report⟩ := by
    simp [stcExit, stopUnits, unit, mainId]
  exact .step rfl taken (completes_stopPost stopped)

/-- Whatever its script does, a unit can run to its end and leave its report. -/
theorem completes_of_unit {s : System} (manned : Manned s) {mode : Mode} {starter : Pid}
    {phase : UnitPhase} (unit : s.units mode = some ⟨starter, phase⟩) {report : Report}
    (ends : phase.MayEnd report) : Completes s mode report := by
  cases phase with
  | queued =>
      have taken : step s (.unitStart mode) =
          some ({ s with
            stcs := ⟨s.nextStc, .spawned⟩ :: s.stcs
            nextStc := s.nextStc + 1 }.setUnit mode (some ⟨starter, .active s.nextStc⟩)) := by
        simp only [step, unit]
      exact .step rfl taken
        (completes_active (manned_step manned taken) (Function.update_self _ _ _) report)
  | active id => exact completes_active manned unit report
  | stopPost captured =>
      cases ends
      exact completes_stopPost unit
  | capturing captured =>
      cases ends
      exact completes_capturing unit
  | finished => cases ends

/-- The session may be lost at any moment after the start: a script that is
interrupted then changes nothing but itself.  Every run of the rest with the script is
one without it, up to what the script is at, and every run without it is one with it;
and every unit that is loaded then comes to its end with its result captured, by the
manager and the activation alone. -/
theorem session_immune {s lost : System} (reached : machine.Reachable s) {pid : Pid}
    {inv : Invocation} (found : s.procs pid = some inv) (following : inv.pc.following = true)
    (interrupted : step s (.interrupt pid) = some lost) :
    (∀ events final, Machine.replay step s events = some final →
      ∃ last, Machine.replay step lost (events.filter fun event => !event.of pid) = some last ∧
        last = final.put pid (some ⟨inv.mode, .interrupted⟩)) ∧
    (∀ events last, Machine.replay step lost events = some last →
      ∃ final, Machine.replay step s events = some final ∧
        last = final.put pid (some ⟨inv.mode, .interrupted⟩)) ∧
    ∀ mode starter phase report, lost.units mode = some ⟨starter, phase⟩ → phase.MayEnd report →
      Completes lost mode report := by
  have isLost : Lost pid inv.mode s lost := by
    refine ⟨⟨inv.pc, found, Pc.started_of_following following⟩, ?_⟩
    simp only [step, found, Option.bind_some] at interrupted
    split at interrupted
    · exact (Option.some.inj interrupted).symm
    · cases interrupted
  refine ⟨?_, ?_, ?_⟩
  · intro events final run
    have follows (s lost : System) (event : Event) (t : System) (held : Lost pid inv.mode s lost)
        (others : (!event.of pid) = true) (taken : step s event = some t) :
        ∃ moved, step lost event = some moved ∧ Lost pid inv.mode t moved :=
      lost_follows held (by simpa using others) taken
    have stays (s lost : System) (event : Event) (t : System) (held : Lost pid inv.mode s lost)
        (own : (!event.of pid) = false) (taken : step s event = some t) :
        Lost pid inv.mode t lost :=
      lost_stays held (by simpa using own) taken
    obtain ⟨last, replayed, held⟩ :=
      Machine.replay_filter _ follows stays events s lost final isLost run
    exact ⟨last, replayed, held.2⟩
  · intro events last run
    have follows (lost s : System) (event : Event) (moved : System)
        (held : Lost pid inv.mode s lost) (_ : true = true) (taken : step lost event = some moved) :
        ∃ t, step s event = some t ∧ Lost pid inv.mode t moved := lost_follows_back held taken
    have stays (lost s : System) (event : Event) (moved : System) (_ : Lost pid inv.mode s lost)
        (unseen : true = false) (_ : step lost event = some moved) : Lost pid inv.mode s moved := by
      cases unseen
    obtain ⟨final, replayed, held⟩ :=
      Machine.replay_filter (fun _ => true) follows stays events lost s last isLost run
    rw [List.filter_eq_self.mpr fun _ _ => rfl] at replayed
    exact ⟨final, replayed, held.2⟩
  · intro mode starter phase report unit ends
    have manned := manned_step (manned_reachable reached) interrupted
    exact completes_of_unit manned unit ends

/-- The unit of the first script is queued, and a second script of another mode is at
its checks. -/
def bothLaunched : List Event := .launch 1 ["boot"] .current :: started 0 ["switch"]

/-- The first script polls while the second one is refused and the unit begins. -/
def meanwhile : List Event := [.exec 0, .exec 1, .unitStart .switch, .exec 0]

theorem session_immune_both :
    ∃ s lost final last, Machine.replay step System.booted bothLaunched = some s ∧
      step s (.interrupt 0) = some lost ∧ Machine.replay step s meanwhile = some final ∧
      Machine.replay step lost [.exec 1, .unitStart .switch] = some last ∧
      last = final.put 0 (some ⟨.switch, .interrupted⟩) ∧
      last.procs 1 = some ⟨.boot, .exited 1⟩ ∧
      Completes lost .switch ⟨"success", "0"⟩ ∧ Completes lost .switch ⟨"signal", "KILL"⟩ := by
  have isStarted : (Machine.replay step System.booted bothLaunched).any fun s =>
      (s.procs 0 = some ⟨.switch, .pollResult⟩ ∧ s.units .switch = some ⟨0, .queued⟩) ∧
        (Machine.replay step s meanwhile).any fun final =>
          final.procs 1 = some ⟨.boot, .exited 1⟩ := by decide +kernel
  obtain ⟨s, run, holds⟩ := (Option.any_eq_true _ _).mp isStarted
  obtain ⟨⟨found, unit⟩, goesOn⟩ := of_decide_eq_true holds
  obtain ⟨final, replayed, refused⟩ := (Option.any_eq_true _ _).mp goesOn
  have interrupted : step s (.interrupt 0) =
      some (s.put 0 (some ⟨.switch, .interrupted⟩)) := by
    simp only [step, found, Option.bind_some, Pc.live, if_true]
    rfl
  have reached : machine.Reachable s :=
    Machine.Reachable.steps (.initial booted_atBoot)
      (Machine.steps_of_replay bothLaunched System.booted s run)
  obtain ⟨follows, -, completes⟩ := session_immune reached found rfl interrupted
  obtain ⟨last, without, same⟩ := follows meanwhile final replayed
  have others : meanwhile.filter (fun event => !event.of 0) = [.exec 1, .unitStart .switch] := rfl
  have isRefused : last.procs 1 = some ⟨.boot, .exited 1⟩ := by
    rw [same]
    exact of_decide_eq_true refused
  rw [others] at without
  exact ⟨s, _, final, last, run, interrupted, replayed, without, same, isRefused,
    completes .switch 0 .queued _ unit trivial, completes .switch 0 .queued _ unit trivial⟩

end Nixnas.Switch
