import Nixnas.Switch.InFlight

/-!
# The stale-lock cleaning

A wrapper that finds the activation lock held and no switch-to-configuration
process alive removes the lock path.  Between the last look and the removal
another wrapper's cleaning may rebind the path, or the orphan may exit, and a
new switch-to-configuration process takes the lock the removal unlinks.  As long
as no process opens the path while a wrapper is about to remove it, a removal
takes no live process's lock away and at most one process holds it.
-/

set_option autoImplicit false

namespace Nixnas.Switch

open Nixnas.Logic

/-- The inode a switch-to-configuration process has open. -/
def StcPhase.inode : StcPhase → Option Inode
  | .spawned => none
  | .opened inode => some inode
  | .holding inode => some inode

def StcPhase.holds : StcPhase → Bool
  | .holding _ => true
  | _ => false

/-- A wrapper is past `pgrep`, and its `rm` is its next command. -/
def System.Cleaning (s : System) : Prop :=
  ∃ pid inv, s.procs pid = some inv ∧ inv.pc = .removeLock

/-- A removal that is about to run unlinks no inode a live process has locked. -/
def RemovalSafe (s : System) : Prop :=
  s.Cleaning → ∀ stc ∈ s.stcs, ∀ inode, s.lockPath = some inode → stc.phase ≠ .holding inode

/-- Two live processes never both hold the activation lock. -/
def OneHolder (s : System) : Prop :=
  ∀ one ∈ s.stcs, ∀ other ∈ s.stcs, one.phase.holds = true → other.phase.holds = true →
    one.id = other.id

/-- No process opens the lock path while a wrapper is about to remove it. -/
def NoOpening (s : System) : Event → Prop
  | .stcOpen _ => ¬ s.Cleaning
  | _ => True

/-- Neither a wrapper nor a switch-to-configuration process is there at first;
the lock file may be, and orphans may hold it. -/
def System.Idle (s : System) : Prop := s.AtBoot ∧ s.stcs = []

def lockMachine : Machine System Event := Machine.ofStep System.Idle step

/-! ## What a step does to the lock -/

@[simp] theorem goto_lockPath (s : System) (pid : Pid) (inv : Invocation) (pc : Pc) :
    (s.goto pid inv pc).lockPath = s.lockPath := rfl

@[simp] theorem goto_stcs (s : System) (pid : Pid) (inv : Invocation) (pc : Pc) :
    (s.goto pid inv pc).stcs = s.stcs := rfl

@[simp] theorem setStc_lockPath (s : System) (id : Nat) (phase : StcPhase) :
    (s.setStc id phase).lockPath = s.lockPath := rfl

/-- A command starts no process.  It removes the path as the `rm`, creates one
that is not there, and comes before the `rm` only when no process is alive. -/
theorem command_lock {s t : System} {pid : Pid} {inv : Invocation}
    (run : command s pid inv = some t) :
    t.stcs = s.stcs ∧
      (t.lockPath = s.lockPath ∨ (inv.pc = .removeLock ∧ t.lockPath = none) ∨ s.lockPath = none) ∧
      ∃ pc, t.procs = Function.update s.procs pid (some { inv with pc := pc }) ∧
        (pc = .removeLock → s.stcs = []) := by
  obtain ⟨mode, pc⟩ := inv
  cases pc with
  | probe rest =>
      cases rest with
      | nil =>
          simp only [command, Option.some.injEq] at run
          subst t
          exact ⟨rfl, .inl rfl, _, rfl, by simp⟩
      | cons head rest =>
          simp only [command] at run
          split at run <;> cases run <;> exact ⟨rfl, .inl rfl, _, rfl, by simp⟩
  | flockProbe =>
      simp only [command] at run
      split at run
      · rename_i vanished
        cases run
        exact ⟨rfl, .inr (.inr vanished), _, rfl, by simp⟩
      · split at run <;> cases run <;> exact ⟨rfl, .inl rfl, _, rfl, by simp⟩
  | pgrep =>
      simp only [command] at run
      split at run
      · rename_i empty
        cases run
        exact ⟨rfl, .inl rfl, _, rfl, fun _ => by simpa using empty⟩
      · cases run
        exact ⟨rfl, .inl rfl, _, rfl, by simp⟩
  | removeLock =>
      simp only [command, Option.some.injEq] at run
      subst t
      exact ⟨rfl, .inr (.inl ⟨rfl, rfl⟩), _, rfl, by simp⟩
  | mkdirRun | removeResult | drain =>
      simp only [command, Option.some.injEq] at run
      subst t
      exact ⟨rfl, .inl rfl, _, rfl, by simp⟩
  | lockExists | systemdRun | pollResult | pollUnit | grace | report =>
      simp only [command] at run
      split at run <;> cases run <;> exact ⟨rfl, .inl rfl, _, rfl, by simp⟩
  | exited code => simp [command] at run
  | interrupted => simp [command] at run

theorem cleaning_of_update {s : System} {procs : Pid → Option Invocation} {pid : Pid}
    {inv : Invocation} (moved : procs = Function.update s.procs pid (some inv))
    (cleaning : ∃ pid inv, procs pid = some inv ∧ inv.pc = .removeLock) :
    inv.pc = .removeLock ∨ s.Cleaning := by
  obtain ⟨other, found, member, atRemoval⟩ := cleaning
  rw [moved] at member
  by_cases same : other = pid
  · subst other
    rw [Function.update_self, Option.some.injEq] at member
    subst found
    exact .inl atRemoval
  · rw [Function.update_of_ne same] at member
    exact .inr ⟨other, found, member, atRemoval⟩

/-- The processes after a step that is no command, and the lock path. -/
inductive LockChange (s t : System) : Event → Prop where
  | none (event : Event) (stcs : t.stcs = s.stcs) (path : t.lockPath = s.lockPath) :
      LockChange s t event
  | spawn (event : Event) (stc : Stc) (spawned : stc.phase = .spawned)
      (stcs : t.stcs = stc :: s.stcs) (path : t.lockPath = s.lockPath) : LockChange s t event
  | opening (id : Nat) (inode : Inode) (stcs : t.stcs = (s.setStc id (.opened inode)).stcs)
      (path : t.lockPath = some inode) (kept : s.lockPath = none ∨ s.lockPath = some inode) :
      LockChange s t (.stcOpen id)
  | locking (event : Event) (id : Nat) (inode : Inode) (stc : Stc) (member : stc ∈ s.stcs)
      (isOpen : stc.phase = .opened inode) (free : s.locked inode = false)
      (stcs : t.stcs = (s.setStc id (.holding inode)).stcs) (path : t.lockPath = s.lockPath) :
      LockChange s t event
  | exit (event : Event) (stcs : ∀ stc ∈ t.stcs, stc ∈ s.stcs) (path : t.lockPath = s.lockPath) :
      LockChange s t event

theorem step_lock {s t : System} {event : Event} (run : step s event = some t)
    (environment : ∀ pid, event ≠ .exec pid) :
    (t.Cleaning → s.Cleaning) ∧ LockChange s t event := by
  cases event with
  | exec pid => exact absurd rfl (environment pid)
  | launch pid args target =>
      simp only [step] at run
      split at run
      · contradiction
      · cases run
        refine ⟨fun cleaning => ?_, .none _ rfl rfl⟩
        apply Or.resolve_left (cleaning_of_update rfl cleaning)
        unfold launched
        split <;> simp
  | fail pid | interrupt pid =>
      obtain ⟨inv, _, run⟩ := Option.bind_eq_some_iff.mp run
      split at run <;> cases run
      refine ⟨fun cleaning => ?_, .none _ rfl rfl⟩
      apply Or.resolve_left (cleaning_of_update rfl cleaning)
      simp
  | unitStart mode =>
      simp only [step] at run
      split at run
      · cases run
        exact ⟨fun cleaning => cleaning, .spawn _ ⟨s.nextStc, .spawned⟩ rfl rfl rfl⟩
      · contradiction
  | stcOutside =>
      cases run
      exact ⟨fun cleaning => cleaning, .spawn _ ⟨s.nextStc, .spawned⟩ rfl rfl rfl⟩
  | stcOpen id =>
      simp only [step] at run
      split at run
      · split at run
        · rename_i inode path
          cases run
          exact ⟨fun cleaning => cleaning, .opening id inode rfl path (.inr path)⟩
        · rename_i path
          cases run
          exact ⟨fun cleaning => cleaning, .opening id s.nextInode rfl rfl (.inl path)⟩
      · contradiction
  | stcLock id =>
      simp only [step] at run
      split at run
      · rename_i opened inode found
        split at run
        · contradiction
        · rename_i free
          cases run
          refine ⟨fun cleaning => cleaning, .locking _ id inode _ (List.mem_of_find?_eq_some found)
            rfl (by simpa using free) rfl rfl⟩
      · contradiction
  | stcExit id report orphaned =>
      simp only [step, Option.map_eq_some_iff] at run
      obtain ⟨stc, _, rfl⟩ := run
      exact ⟨fun cleaning => cleaning, .exit _ (fun _ member => (List.mem_filter.mp member).1) rfl⟩
  | stopPostOpen mode | stopPostWrite mode | collect mode =>
      simp only [step] at run
      split at run
      · cases run
        exact ⟨fun cleaning => cleaning, .none _ rfl rfl⟩
      · contradiction
  | orphanExit inode =>
      cases run
      exact ⟨fun cleaning => cleaning, .none _ rfl rfl⟩

/-! ## The invariant -/

/-- What a live process has open is at the path, nothing is open while a wrapper
is about to remove the path, and one process holds the lock. -/
structure Anchored (s : System) : Prop where
  atPath : ∀ stc ∈ s.stcs, ∀ inode, stc.phase.inode = some inode → s.lockPath = some inode
  unopened : s.Cleaning → ∀ stc ∈ s.stcs, stc.phase.inode = none
  oneHolder : OneHolder s

theorem StcPhase.inode_of_holds {phase : StcPhase} (holds : phase.holds = true) :
    ∃ inode, phase = .holding inode ∧ phase.inode = some inode := by
  cases phase with
  | spawned => contradiction
  | opened inode => contradiction
  | holding inode => exact ⟨inode, rfl, rfl⟩

theorem anchored_idle {s : System} (idle : s.Idle) : Anchored s where
  atPath stc member := by simp [idle.2] at member
  unopened _ stc member := by simp [idle.2] at member
  oneHolder one member := by simp [idle.2] at member

theorem anchored_exec {s t : System} {pid : Pid} {inv : Invocation} (held : Anchored s)
    (found : s.procs pid = some inv) (run : command s pid inv = some t) : Anchored t := by
  obtain ⟨stcs, path, pc, procs, looked⟩ := command_lock run
  constructor
  · intro stc member inode isOpen
    rw [stcs] at member
    have before := held.atPath stc member inode isOpen
    cases path with
    | inl same => rw [same, before]
    | inr changed =>
        cases changed with
        | inl removed =>
            have unopened := held.unopened ⟨pid, inv, found, removed.1⟩ stc member
            rw [isOpen] at unopened
            contradiction
        | inr vanished =>
            rw [before] at vanished
            contradiction
  · intro cleaning stc member
    rw [stcs] at member
    cases cleaning_of_update procs cleaning with
    | inl here => simp [looked here] at member
    | inr before => exact held.unopened before stc member
  · intro one first other second
    rw [stcs] at first second
    exact held.oneHolder one first other second

theorem mem_setStc {s : System} {id : Nat} {phase : StcPhase} {stc : Stc}
    (member : stc ∈ (s.setStc id phase).stcs) :
    (stc.id = id ∧ stc.phase = phase) ∨ stc ∈ s.stcs := by
  obtain ⟨old, before, moved⟩ := List.mem_map.mp member
  by_cases same : old.id = id
  · rw [if_pos same] at moved
    subst moved
    exact .inl ⟨same, rfl⟩
  · rw [if_neg same] at moved
    subst moved
    exact .inr before

/-- A process that holds the lock and was not there before makes no second one. -/
theorem OneHolder.of_old {s t : System} (held : OneHolder s)
    (old : ∀ stc ∈ t.stcs, stc.phase.holds = true → stc ∈ s.stcs) : OneHolder t := by
  intro one first other second holds holds'
  exact held one (old one first holds) other (old other second holds') holds holds'

/-- While the inode at the path is free, nobody holds any lock. -/
theorem Anchored.noHolder {s : System} (held : Anchored s) {inode : Inode}
    (atPath : s.lockPath = some inode) (free : s.locked inode = false) (other : Stc)
    (member : other ∈ s.stcs) : other.phase.holds = false := by
  by_contra holds
  obtain ⟨held', phase, isOpen⟩ := StcPhase.inode_of_holds (by simpa using holds)
  have same := held.atPath other member held' isOpen
  rw [atPath, Option.some.injEq] at same
  subst same
  have locked : s.locked inode = true := by
    simp only [System.locked, Bool.or_eq_true, List.any_eq_true]
    exact .inr ⟨other, member, by simp [phase]⟩
  rw [free] at locked
  contradiction

theorem anchored_spawn {s t : System} {stc : Stc} (held : Anchored s)
    (cleaned : t.Cleaning → s.Cleaning) (spawned : stc.phase = .spawned)
    (stcs : t.stcs = stc :: s.stcs) (path : t.lockPath = s.lockPath) : Anchored t := by
  constructor
  · intro other member inode isOpen
    rw [stcs] at member
    rw [path]
    cases List.mem_cons.mp member with
    | inl new => simp [new, spawned, StcPhase.inode] at isOpen
    | inr old => exact held.atPath other old inode isOpen
  · intro cleaning other member
    rw [stcs] at member
    cases List.mem_cons.mp member with
    | inl new => simp [new, spawned, StcPhase.inode]
    | inr old => exact held.unopened (cleaned cleaning) other old
  · refine held.oneHolder.of_old ?_
    intro other member holds
    rw [stcs] at member
    cases List.mem_cons.mp member with
    | inl new => simp [new, spawned, StcPhase.holds] at holds
    | inr old => exact old

theorem anchored_opening {s t : System} {id : Nat} {inode : Inode} (held : Anchored s)
    (uncleaned : ¬ t.Cleaning) (stcs : t.stcs = (s.setStc id (.opened inode)).stcs)
    (path : t.lockPath = some inode) (kept : s.lockPath = none ∨ s.lockPath = some inode) :
    Anchored t := by
  constructor
  · intro stc member other isOpen
    rw [stcs] at member
    cases mem_setStc member with
    | inl new =>
        rw [new.2] at isOpen
        rw [path]
        exact isOpen
    | inr old =>
        have before := held.atPath stc old other isOpen
        cases kept with
        | inl vanished =>
            rw [vanished] at before
            contradiction
        | inr same => rw [path, ← same, before]
  · intro cleaning
    exact absurd cleaning uncleaned
  · refine held.oneHolder.of_old ?_
    intro stc member holds
    rw [stcs] at member
    cases mem_setStc member with
    | inl new => simp [new.2, StcPhase.holds] at holds
    | inr old => exact old

theorem anchored_locking {s t : System} {id : Nat} {inode : Inode} {stc : Stc} (held : Anchored s)
    (cleaned : t.Cleaning → s.Cleaning) (member : stc ∈ s.stcs) (isOpen : stc.phase = .opened inode)
    (free : s.locked inode = false) (stcs : t.stcs = (s.setStc id (.holding inode)).stcs)
    (path : t.lockPath = s.lockPath) : Anchored t := by
  have atPath : s.lockPath = some inode := held.atPath stc member inode (by rw [isOpen]; rfl)
  constructor
  · intro other member inode' isOpen'
    rw [stcs] at member
    rw [path]
    cases mem_setStc member with
    | inl new =>
        rw [new.2] at isOpen'
        rw [atPath]
        exact isOpen'
    | inr old => exact held.atPath other old inode' isOpen'
  · intro cleaning
    have unopened := held.unopened (cleaned cleaning) stc member
    rw [isOpen] at unopened
    contradiction
  · intro one first other second holds holds'
    rw [stcs] at first second
    cases mem_setStc first with
    | inl new =>
        cases mem_setStc second with
        | inl new' => rw [new.1, new'.1]
        | inr old => simp [held.noHolder atPath free other old] at holds'
    | inr old => simp [held.noHolder atPath free one old] at holds

theorem anchored_change {s t : System} {event : Event} (held : Anchored s)
    (allowed : NoOpening s event) (cleaned : t.Cleaning → s.Cleaning)
    (change : LockChange s t event) : Anchored t := by
  cases change with
  | none _ stcs path =>
      constructor
      · rw [stcs, path]
        exact held.atPath
      · intro cleaning
        rw [stcs]
        exact held.unopened (cleaned cleaning)
      · exact held.oneHolder.of_old fun stc member _ => stcs ▸ member
  | spawn _ stc spawned stcs path => exact anchored_spawn held cleaned spawned stcs path
  | opening id inode stcs path kept =>
      exact anchored_opening held (fun cleaning => allowed (cleaned cleaning)) stcs path kept
  | locking _ id inode stc member isOpen free stcs path =>
      exact anchored_locking held cleaned member isOpen free stcs path
  | exit _ stcs path =>
      constructor
      · intro stc member inode isOpen
        rw [path]
        exact held.atPath stc (stcs stc member) inode isOpen
      · intro cleaning stc member
        exact held.unopened (cleaned cleaning) stc (stcs stc member)
      · exact held.oneHolder.of_old fun stc member _ => stcs stc member

theorem anchored_step {s t : System} {event : Event} (held : Anchored s)
    (allowed : NoOpening s event) (run : step s event = some t) : Anchored t := by
  by_cases isExec : ∃ pid, event = .exec pid
  · obtain ⟨pid, rfl⟩ := isExec
    obtain ⟨inv, found, run⟩ := Option.bind_eq_some_iff.mp run
    exact anchored_exec held found run
  · obtain ⟨cleaned, change⟩ := step_lock run fun pid e => isExec ⟨pid, e⟩
    exact anchored_change held allowed cleaned change

theorem Anchored.removalSafe {s : System} (held : Anchored s) : RemovalSafe s := by
  intro cleaning stc member inode _ holding
  have unopened := held.unopened cleaning stc member
  rw [holding] at unopened
  contradiction

/-! ## Runs without an opening in the gap -/

/-- In every run in which no switch-to-configuration process opens the lock path
while a wrapper is between its `pgrep` and its `rm`, a removal unlinks no lock of
a live process, and at most one live process holds the lock. -/
theorem removalSafe_of_noOpening (s : System)
    (reached : (lockMachine.restrict NoOpening).Reachable s) : RemovalSafe s ∧ OneHolder s := by
  have anchored : ∀ s, (lockMachine.restrict NoOpening).Reachable s → Anchored s :=
    Machine.invariant (fun _ idle => anchored_idle idle)
      fun _ _ _ _ held taken => anchored_step held taken.1 taken.2
  have held := anchored s reached
  exact ⟨held.removalSafe, held.oneHolder⟩

/-- A switch is killed and leaves its lock to an orphan. -/
def orphaning : List Event :=
  [.stcOutside, .stcOpen 0, .stcLock 0, .stcExit 0 ⟨"signal", "KILL"⟩ true]

/-- A wrapper finds the stale lock, up to its `rm`. -/
def finding (pid : Pid) (args : List String) : List Event :=
  .launch pid args .current :: List.replicate 7 (.exec pid)

/-- What that leaves. -/
def stale : System :=
  { System.booted with lockPath := some 0, nextInode := 1, nextStc := 1, orphans := [0] }

example : Machine.replay step System.booted orphaning = some stale := rfl

theorem stale_idle : stale.Idle := ⟨⟨fun _ => rfl, fun _ => rfl⟩, rfl⟩

/-- No invocation of the crew is about to remove the lock. -/
def opensFree (crew : List Pid) (s : System) : Event → Bool
  | .stcOpen _ => crew.all fun pid => (s.procs pid).all fun inv => inv.pc ≠ .removeLock
  | _ => true

theorem noOpening_of_opensFree {s : System} {crew : List Pid} {event : Event}
    (crewed : s.Crewed crew) (free : opensFree crew s event = true) : NoOpening s event := by
  cases event with
  | stcOpen id =>
      rintro ⟨pid, inv, found, removes⟩
      have elsewhere := List.all_eq_true.mp free pid (crewed.mem found)
      simp [found, removes] at elsewhere
  | _ => trivial

theorem unopened_reachable (crew : List Pid) (events : List Event) (final : System)
    (within : events.all (Event.within crew) = true)
    (success : Machine.replay (fun s event => if opensFree crew s event then step s event else none)
      stale events = some final) : (lockMachine.restrict NoOpening).Reachable final :=
  Machine.restrict_reachable_of_checked (opensFree crew) (System.Crewed crew) events
    (fun _ _ _ crewed free => noOpening_of_opensFree crewed free)
    (fun _ _ event member crewed run =>
      crewed_step crewed (List.all_eq_true.mp within event member) run)
    stale final (.initial stale_idle) (fun _ _ => rfl) success

/-- Two wrappers find the stale lock, and then a switch begins outside of them. -/
def cleaningTwice : List Event := finding 0 ["switch"] ++ finding 1 ["boot"] ++ [.stcOutside]

/-- ... which opens and takes the lock when both have removed it. -/
def lockedAfter : List Event := [.exec 0, .exec 1, .stcOpen 1, .stcLock 1]

theorem removalSafe_stale :
    (∃ s, Machine.replay (fun s event => if opensFree [0, 1] s event then step s event else none)
        stale cleaningTwice = some s ∧
      s.Cleaning ∧ s.lockPath = some 0 ∧ s.stcs = [⟨1, .spawned⟩] ∧ RemovalSafe s ∧ OneHolder s) ∧
    ∃ s, Machine.replay (fun s event => if opensFree [0, 1] s event then step s event else none)
        stale (cleaningTwice ++ lockedAfter) = some s ∧
      s.lockPath = some 1 ∧ s.stcs = [⟨1, .holding 1⟩] ∧ RemovalSafe s ∧ OneHolder s :=
  ⟨⟨_, rfl, ⟨0, _, rfl, rfl⟩, rfl, rfl,
      removalSafe_of_noOpening _ (unopened_reachable [0, 1] cleaningTwice _ rfl rfl)⟩,
    ⟨_, rfl, rfl, rfl, removalSafe_of_noOpening _
      (unopened_reachable [0, 1] (cleaningTwice ++ lockedAfter) _ rfl rfl)⟩⟩

/-- Two wrappers find the stale lock; the second cleans it and starts, and its
switch takes a fresh lock before the first one's `rm`. -/
def rebinding : List Event :=
  finding 0 ["switch"] ++ finding 1 ["boot"] ++ List.replicate 4 (.exec 1) ++
    [.unitStart .boot, .stcOpen 1, .stcLock 1]

/-- ... whose `rm` and switch are next. -/
def doubling : List Event :=
  List.replicate 4 (.exec 0) ++ [.unitStart .switch, .stcOpen 2, .stcLock 2]

theorem rebinding_unlinks_live_lock :
    (¬ ∀ s, lockMachine.Reachable s → RemovalSafe s) ∧
      ¬ ∀ s, lockMachine.Reachable s → OneHolder s := by
  have reach (events : List Event) (s : System)
      (run : Machine.replay step stale events = some s) : lockMachine.Reachable s :=
    .steps (.initial stale_idle) (Machine.steps_of_replay events _ s run)
  constructor
  · intro safe
    have run : ∃ s, Machine.replay step stale rebinding = some s ∧ s.Cleaning ∧
        s.lockPath = some 1 ∧ ⟨1, .holding 1⟩ ∈ s.stcs :=
      ⟨_, rfl, ⟨0, _, rfl, rfl⟩, rfl, by decide⟩
    obtain ⟨s, run, cleaning, path, live⟩ := run
    exact safe s (reach _ s run) cleaning _ live 1 path rfl
  · intro one
    have run : ∃ s, Machine.replay step stale (rebinding ++ doubling) = some s ∧
        ⟨1, .holding 1⟩ ∈ s.stcs ∧ ⟨2, .holding 2⟩ ∈ s.stcs :=
      ⟨_, rfl, by decide, by decide⟩
    obtain ⟨s, run, first, second⟩ := run
    have same := one s (reach _ s run) _ first _ second rfl rfl
    contradiction

/-! ## The condition is tight -/

/-- The orphans of an inode may all exit before the next command runs. -/
theorem orphans_drain (s : System) (inode : Inode) :
    ∃ orphans, machine.Steps s { s with orphans := orphans } ∧ inode ∉ orphans := by
  generalize size : s.orphans.length = n
  induction n generalizing s with
  | zero =>
      have empty : s.orphans = [] := List.length_eq_zero_iff.mp size
      exact ⟨s.orphans, .refl, by simp [empty]⟩
  | succ n ih =>
      by_cases member : inode ∈ s.orphans
      · let next : System := { s with orphans := s.orphans.erase inode }
        have taken : step s (.orphanExit inode) = some next := rfl
        have shorter : next.orphans.length = n := by
          rw [List.length_erase_of_mem member, size]
          rfl
        obtain ⟨orphans, run, gone⟩ := ih next shorter
        exact ⟨orphans, (Machine.Steps.single _ taken).trans run, gone⟩
      · exact ⟨s.orphans, .refl, member⟩

/-- A process that has the inode at the path open, while a wrapper is about to
remove the path, may get the lock first. -/
theorem unlinks_of_open {s : System} {id : Nat} {inode : Inode} {stc : Stc}
    (cleaning : s.Cleaning) (path : s.lockPath = some inode)
    (found : s.stcs.find? (fun stc => stc.id = id) = some stc) (isOpen : stc.phase = .opened inode) :
    ∃ final, machine.Steps s final ∧ ¬ RemovalSafe final := by
  by_cases safe : RemovalSafe s
  · obtain ⟨orphans, drained, gone⟩ := orphans_drain s inode
    let free : System := { s with orphans := orphans }
    have unlocked : free.locked inode = false := by
      simp only [System.locked, Bool.or_eq_false_iff, List.any_eq_false]
      refine ⟨by simpa [free] using gone, fun other member => ?_⟩
      simpa using safe cleaning other member inode path
    have taken : step free (.stcLock id) = some (free.setStc id (.holding inode)) := by
      obtain ⟨stcId, phase⟩ := stc
      cases isOpen
      simp only [step, free, found]
      rw [if_neg (by simpa [free] using unlocked)]
    refine ⟨_, drained.trans (Machine.Steps.single _ taken), fun safe' => ?_⟩
    have member : stc ∈ s.stcs := List.mem_of_find?_eq_some found
    have own : stc.id = id := by simpa using List.find?_some found
    have holding : { stc with phase := .holding inode } ∈
        (free.setStc id (.holding inode)).stcs := by
      apply List.mem_map.mpr
      exact ⟨stc, member, by rw [if_pos own]⟩
    exact safe' cleaning _ holding inode path rfl
  · exact ⟨s, .refl, safe⟩

/-- An opening that the condition excludes is one from which a removal can take
a live lock. -/
theorem unlinks_of_opening (s t : System) (event : Event) (gap : ¬ NoOpening s event)
    (run : step s event = some t) : ∃ final, machine.Steps t final ∧ ¬ RemovalSafe final := by
  cases event with
  | stcOpen id =>
      have cleaning : s.Cleaning := by simpa [NoOpening] using gap
      have found (inode : Inode) (stcs : List Stc) (spawned : ⟨id, .spawned⟩ ∈ stcs) :
          ∃ stc, (stcs.map fun stc =>
              if stc.id = id then { stc with phase := .opened inode } else stc).find?
                (fun stc => stc.id = id) = some stc ∧ stc.phase = .opened inode := by
        induction stcs with
        | nil => simp at spawned
        | cons head rest ih =>
            by_cases own : head.id = id
            · exact ⟨{ head with phase := .opened inode }, by simp [own], rfl⟩
            · have later : ⟨id, .spawned⟩ ∈ rest := by
                cases List.mem_cons.mp spawned with
                | inl here => simp [← here] at own
                | inr later => exact later
              obtain ⟨stc, isFirst, isOpen⟩ := ih later
              exact ⟨stc, by simpa [own] using isFirst, isOpen⟩
      simp only [step] at run
      split at run
      · rename_i spawned
        split at run
        · rename_i inode path
          cases run
          obtain ⟨stc, isFirst, isOpen⟩ := found inode s.stcs (by simpa using spawned)
          exact unlinks_of_open cleaning path isFirst isOpen
        · cases run
          obtain ⟨stc, isFirst, isOpen⟩ := found s.nextInode s.stcs (by simpa using spawned)
          exact unlinks_of_open cleaning rfl isFirst isOpen
      · contradiction
  | _ => exact absurd trivial gap

end Nixnas.Switch
