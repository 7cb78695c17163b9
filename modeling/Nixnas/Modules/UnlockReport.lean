import Nixnas.Modules.UnlockSession

/-!
# How an unlock ends

Every run of the unlock comes to an end, whatever is answered and whichever
disk is missing, with the job of every unit over, and a member is active only
when an answer of the operator opens it.  `nixnas-unlock` waits for that end and
names the units that failed.
-/

set_option autoImplicit false

namespace Nixnas.Modules.UnlockSession

open Nixnas.Logic
open Nixnas.Systemd
open Nixnas.Modules.Connect

variable {config : Config} {opens : String → String → Bool}

/-! ## What is left to do -/

/-- The tries the open questions have left. -/
def Session.triesLeft (session : Session) : Nat :=
  (session.asking.map fun unit => maxTries - session.tried unit).sum

def work (config : Config) (session : Session) : Nat :=
  (maxTries + 1) * (transaction config).work session.phases + session.triesLeft

namespace Session

variable {session : Session} {unit word : String}

theorem triesLeft_erase (asks : unit ∈ session.asking) :
    maxTries - session.tried unit +
        ((session.asking.erase unit).map fun other => maxTries - session.tried other).sum =
      session.triesLeft :=
  List.sum_map_erase (fun other => maxTries - session.tried other) asks

theorem accept_triesLeft (session : Session) (asks : unit ∈ session.asking)
    (left : session.tried unit < maxTries) :
    (session.accept unit).triesLeft < session.triesLeft := by
  have whole := triesLeft_erase asks
  unfold accept
  rw [triesLeft]
  dsimp only
  omega

/-- A try that fails uses up one. -/
theorem retry_triesLeft (asks : unit ∈ session.asking)
    (left : session.tried unit < maxTries) {tried : Nat} (more : session.tried unit < tried) :
    ({ session with tried := Function.update session.tried unit tried } : Session).triesLeft <
      session.triesLeft := by
  refine List.sum_lt_sum _ _ (fun other _ => ?_) ⟨unit, asks, ?_⟩
  · dsimp only
    by_cases same : other = unit
    · subst same
      rw [Function.update_self]
      omega
    · rw [Function.update_of_ne same]
  · dsimp only
    rw [Function.update_self]
    omega

theorem reply_triesLeft (asks : unit ∈ session.asking)
    (left : session.tried unit < maxTries) :
    (session.reply opens unit word).triesLeft < session.triesLeft := by
  unfold reply
  dsimp only
  split
  · exact accept_triesLeft { session with
      cache := word :: session.cache, typed := word :: session.typed } asks left
  · split
    · exact retry_triesLeft asks left (Nat.lt_succ_self _)
    · exact accept_triesLeft session asks left

theorem consult_triesLeft (asks : unit ∈ session.asking) (first : session.tried unit = 0) :
    (session.consult opens unit).triesLeft < session.triesLeft := by
  have left : session.tried unit < maxTries := by
    rw [first]
    decide
  unfold consult
  split
  · exact accept_triesLeft session asks left
  · exact retry_triesLeft asks left (by omega)

theorem close_triesLeft (session : Session) (unit : String) :
    (session.close unit).triesLeft ≤ session.triesLeft := by
  unfold close
  split
  · rename_i asks
    have whole := triesLeft_erase asks
    rw [triesLeft]
    dsimp only
    omega
  · exact le_rfl

theorem unlock_triesLeft (opens : String → String → Bool) (session : Session)
    (fresh : unit ∉ session.asking) :
    (session.unlock opens unit).triesLeft ≤ session.triesLeft + maxTries := by
  unfold unlock
  split
  · exact Nat.le_add_right _ _
  · have others : (session.asking.map fun other => maxTries - Function.update session.tried unit
        (if session.cache.isEmpty then 0 else 1) other).sum = session.triesLeft := by
      refine congrArg List.sum (List.map_congr_left fun other member => ?_)
      rw [Function.update_of_ne fun same : other = unit => fresh (same ▸ member)]
    rw [triesLeft, List.map_cons, List.sum_cons, others]
    omega

end Session

/-- Every step but the expiry of the cache uses up some of the work. -/
theorem work_decreases {session next : Session} {event : Event} (asks : Asks config session)
    (taken : step config opens session event = some next) (lasting : event ≠ .expire) :
    work config next < work config session := by
  unfold work
  cases event with
  | begin unit =>
      simp only [step, Option.map_eq_some_iff] at taken
      obtain ⟨phases, moved, rfl⟩ := taken
      obtain ⟨_, waits, _, _⟩ := Transaction.step_begin_iff.mp moved
      have less := Transaction.work_decreases moved
      split
      · have few := Session.unlock_triesLeft opens { session with phases := phases }
          (asks.not_asking waits)
        rw [Session.unlock_phases]
        have same : ({ session with phases := phases } : Session).triesLeft = session.triesLeft :=
          rfl
        rw [same] at few
        dsimp only
        unfold maxTries at few ⊢
        omega
      · have same : ({ session with phases := phases } : Session).triesLeft = session.triesLeft :=
          rfl
        rw [same]
        dsimp only
        unfold maxTries
        omega
  | finish unit success =>
      simp only [step, Option.ite_none_right_eq_some, Option.map_eq_some_iff] at taken
      obtain ⟨_, phases, moved, rfl⟩ := taken
      have less := Transaction.work_decreases moved
      have few := Session.close_triesLeft { session with phases := phases } unit
      have same : ({ session with phases := phases } : Session).triesLeft = session.triesLeft := rfl
      rw [same] at few
      rw [Session.close_phases]
      dsimp only
      unfold maxTries
      omega
  | cancel unit =>
      simp only [step, Option.ite_none_right_eq_some, Option.map_eq_some_iff] at taken
      obtain ⟨_, phases, moved, rfl⟩ := taken
      have less := Transaction.work_decreases moved
      have same : ({ session with phases := phases } : Session).triesLeft = session.triesLeft := rfl
      rw [same]
      dsimp only
      unfold maxTries
      omega
  | answer unit word =>
      simp only [step, Option.ite_none_right_eq_some, Option.some.injEq] at taken
      obtain ⟨member, rfl⟩ := taken
      rw [Session.reply_phases]
      exact Nat.add_lt_add_left (Session.reply_triesLeft member (asks.tries unit member)) _
  | consult unit =>
      simp only [step, Option.ite_none_right_eq_some, Option.some.injEq] at taken
      obtain ⟨⟨member, first, _⟩, rfl⟩ := taken
      rw [Session.consult_phases]
      exact Nat.add_lt_add_left (Session.consult_triesLeft member first) _
  | expire => exact absurd rfl lasting

/-- In a session nothing can happen in, but for the expiry of the cache, every
job is over. -/
theorem complete_of_stuck {session : Session}
    (ranked : ∀ unit ∈ pulled config, ∀ earlier ∈ unitAfter config unit,
      earlier ∈ pulled config → rank config earlier < rank config unit)
    (stuck : ∀ event, event ≠ .expire → step config opens session event = none) :
    (transaction config).Complete session.phases := by
  by_contra unfinished
  obtain ⟨unit, isPulled, runs | ⟨waits, ready⟩⟩ :=
    Transaction.progress (transaction config) ranked unfinished
  · -- A running unit can end: the target well, anything else badly.
    have mayEnd : MayEnd config session unit (decide (unit = targetUnit)) := by
      unfold MayEnd
      by_cases isTarget : unit = targetUnit
      · simp [isTarget]
      · simp [isTarget]
    have moved := Transaction.step_finish_iff.mpr
      ⟨isPulled, runs, (rfl : _ = Function.update session.phases unit
        (if decide (unit = targetUnit) then .active else .failed))⟩
    have taken := stuck (.finish unit (decide (unit = targetUnit))) (by simp)
    simp only [step, if_pos mayEnd, moved] at taken
    simp at taken
  · have moved := Transaction.step_begin_iff.mpr
      ⟨isPulled, waits, ready, (rfl : _ = Function.update session.phases unit .running)⟩
    have taken := stuck (.begin unit) (by simp)
    simp only [step, moved] at taken
    simp at taken

/-! ## How the jobs end -/

/-- What is cached was typed, and what is open was opened by something typed. -/
structure Session.Traced (opens : String → String → Bool) (session : Session) : Prop where
  cached : ∀ word ∈ session.cache, word ∈ session.typed
  opened : ∀ unit ∈ session.opened, ∃ word ∈ session.typed, opens unit word = true

namespace Session

variable {session : Session} {unit word : String}

theorem Traced.accept (traced : session.Traced opens) {word : String}
    (cached : word ∈ session.cache) (opening : opens unit word = true) :
    (session.accept unit).Traced opens := by
  refine ⟨traced.cached, fun other member => ?_⟩
  rcases List.mem_cons.mp member with rfl | before
  · exact ⟨word, traced.cached word cached, opening⟩
  · exact traced.opened other before

theorem Traced.unlock (traced : session.Traced opens) :
    (session.unlock opens unit).Traced opens := by
  unfold Session.unlock
  split
  · rename_i warm
    obtain ⟨word, cached, opening⟩ := List.any_eq_true.mp warm
    exact ⟨traced.cached, (traced.accept cached opening).opened⟩
  · exact ⟨traced.cached, traced.opened⟩

theorem Traced.reply (traced : session.Traced opens) :
    (session.reply opens unit word).Traced opens := by
  have pushed : ({ session with
      cache := word :: session.cache, typed := word :: session.typed } : Session).Traced opens := by
    refine ⟨fun other member => ?_, fun other member => ?_⟩
    · rcases List.mem_cons.mp member with rfl | before
      · exact List.mem_cons_self
      · exact List.mem_cons_of_mem _ (traced.cached other before)
    · obtain ⟨word, typed, opening⟩ := traced.opened other member
      exact ⟨word, List.mem_cons_of_mem _ typed, opening⟩
  unfold Session.reply
  dsimp only
  split
  · rename_i opening
    exact pushed.accept List.mem_cons_self opening
  · split
    · exact ⟨pushed.cached, pushed.opened⟩
    · exact ⟨pushed.cached, pushed.opened⟩

theorem Traced.consult (traced : session.Traced opens) :
    (session.consult opens unit).Traced opens := by
  unfold Session.consult
  split
  · rename_i warm
    obtain ⟨word, cached, opening⟩ := List.any_eq_true.mp warm
    exact traced.accept cached opening
  · exact ⟨traced.cached, traced.opened⟩

theorem Traced.close (traced : session.Traced opens) : (session.close unit).Traced opens := by
  unfold Session.close
  split
  · exact ⟨traced.cached, traced.opened⟩
  · exact traced

theorem unlock_opened {other : String} (isOpen : other ∈ session.opened) :
    other ∈ (session.unlock opens unit).opened := by
  unfold unlock
  split
  · exact List.mem_cons_of_mem _ isOpen
  · exact isOpen

theorem reply_opened {other : String} (isOpen : other ∈ session.opened) :
    other ∈ (session.reply opens unit word).opened := by
  unfold reply
  dsimp only
  split
  · exact List.mem_cons_of_mem _ isOpen
  · split
    · exact isOpen
    · exact isOpen

theorem consult_opened {other : String} (isOpen : other ∈ session.opened) :
    other ∈ (session.consult opens unit).opened := by
  unfold consult
  split
  · exact List.mem_cons_of_mem _ isOpen
  · exact isOpen

@[simp] theorem close_opened : (session.close unit).opened = session.opened := by
  unfold close
  split <;> rfl

end Session

/-- What the phases of a session tell. -/
structure Ends (config : Config) (session : Session) : Prop where
  opened : ∀ unit ∈ unlockUnits config, session.phases unit = .active → unit ∈ session.opened
  target : session.phases targetUnit ≠ .failed
  cancelled : ∀ unit, session.phases unit = .dependency → unit ∈ unlockUnits config

namespace Ends

variable {session next : Session}

/-- One job moves, to a phase its unit may be in, and what was open stays open. -/
theorem move (ends : Ends config session) {unit : String} {phase : Phase}
    (phases : next.phases = Function.update session.phases unit phase)
    (grows : ∀ other ∈ session.opened, other ∈ next.opened)
    (opened : unit ∈ unlockUnits config → phase = .active → unit ∈ next.opened)
    (target : unit = targetUnit → phase ≠ .failed)
    (cancelled : phase = .dependency → unit ∈ unlockUnits config) : Ends config next := by
  refine ⟨fun other member active => ?_, ?_, fun other gone => ?_⟩
  · by_cases same : other = unit
    · subst same
      rw [phases, Function.update_self] at active
      exact opened member active
    · rw [phases, Function.update_of_ne same] at active
      exact grows other (ends.opened other member active)
  · by_cases same : targetUnit = unit
    · rw [phases, ← same, Function.update_self]
      exact target same.symm
    · rw [phases, Function.update_of_ne same]
      exact ends.target
  · by_cases same : other = unit
    · subst same
      rw [phases, Function.update_self] at gone
      exact cancelled gone
    · rw [phases, Function.update_of_ne same] at gone
      exact ends.cancelled other gone

theorem stay (ends : Ends config session) (phases : next.phases = session.phases)
    (grows : ∀ other ∈ session.opened, other ∈ next.opened) : Ends config next where
  opened := fun other member active =>
    grows other (ends.opened other member (phases ▸ active))
  target := phases ▸ ends.target
  cancelled := fun other gone => ends.cancelled other (phases ▸ gone)

end Ends

theorem ends_step {session next : Session} {event : Event}
    (ends : Ends config session ∧ session.Traced opens)
    (taken : step config opens session event = some next) :
    Ends config next ∧ next.Traced opens := by
  obtain ⟨ends, traced⟩ := ends
  cases event with
  | begin unit =>
      simp only [step, Option.map_eq_some_iff] at taken
      obtain ⟨phases, moved, rfl⟩ := taken
      obtain ⟨_, _, _, rfl⟩ := Transaction.step_begin_iff.mp moved
      have begun : Ends config
          { session with phases := Function.update session.phases unit .running } :=
        ends.move rfl (fun _ isOpen => isOpen) (by simp) (by simp) (by simp)
      split
      · exact ⟨begun.stay (Session.unlock_phases _ _) fun _ => Session.unlock_opened,
          Session.Traced.unlock ⟨traced.cached, traced.opened⟩⟩
      · exact ⟨begun, ⟨traced.cached, traced.opened⟩⟩
  | finish unit success =>
      simp only [step, Option.ite_none_right_eq_some, Option.map_eq_some_iff] at taken
      obtain ⟨mayEnd, phases, moved, rfl⟩ := taken
      obtain ⟨_, _, rfl⟩ := Transaction.step_finish_iff.mp moved
      refine ⟨ends.move (Session.close_phases _ _) ?_ ?_ ?_ ?_,
        Session.Traced.close ⟨traced.cached, traced.opened⟩⟩
      · simp
      · intro member active
        have notTarget : unit ≠ targetUnit := fun same => target_not_member (same ▸ member)
        rw [MayEnd, if_neg notTarget, if_pos member] at mayEnd
        rw [Session.close_opened]
        cases success with
        | true => exact mayEnd rfl
        | false => simp at active
      · intro isTarget
        rw [MayEnd, if_pos isTarget] at mayEnd
        simp [mayEnd]
      · cases success <;> simp
  | cancel unit =>
      simp only [step, Option.ite_none_right_eq_some, Option.map_eq_some_iff] at taken
      obtain ⟨member, phases, moved, rfl⟩ := taken
      obtain ⟨_, _, rfl⟩ := Transaction.step_cancel_iff.mp moved
      exact ⟨ends.move rfl (fun _ isOpen => isOpen) (by simp) (by simp) fun _ => member,
        ⟨traced.cached, traced.opened⟩⟩
  | answer unit word =>
      simp only [step, Option.ite_none_right_eq_some, Option.some.injEq] at taken
      obtain ⟨_, rfl⟩ := taken
      exact ⟨ends.stay (Session.reply_phases _ _ _) fun _ => Session.reply_opened, traced.reply⟩
  | consult unit =>
      simp only [step, Option.ite_none_right_eq_some, Option.some.injEq] at taken
      obtain ⟨_, rfl⟩ := taken
      exact ⟨ends.stay (Session.consult_phases _ _) fun _ => Session.consult_opened,
        traced.consult⟩
  | expire =>
      simp only [step, Option.some.injEq] at taken
      subst taken
      exact ⟨ends.stay rfl fun _ isOpen => isOpen, ⟨by simp, traced.opened⟩⟩

theorem ends_of_reachable : ∀ session, (machine config opens).Reachable session →
    Ends config session ∧ session.Traced opens := by
  refine Machine.invariant ?_ ?_
  · rintro session rfl
    exact ⟨⟨by simp [Session.idle, Transaction.queued], by simp [Session.idle, Transaction.queued],
      by simp [Session.idle, Transaction.queued]⟩, ⟨by simp [Session.idle], by simp [Session.idle]⟩⟩
  · intro session event next _ ends taken
    exact ends_step ends taken

/-- A session with every job over can only see its cache expire. -/
theorem stuck_of_complete {session : Session} (asks : Asks config session)
    (inJobs : ∀ unit ∈ unlockUnits config, unit ∈ pulled config)
    (complete : (transaction config).Complete session.phases) (event : Event)
    (lasting : event ≠ .expire) : step config opens session event = none := by
  have noStep : ∀ job, (transaction config).step session.phases job = none := by
    intro job
    by_contra some
    obtain ⟨phases, moved⟩ := Option.ne_none_iff_exists'.mp some
    have same : phases = session.phases := by
      obtain ⟨unit, isPulled, phase, rfl, kinds⟩ := Transaction.step_cases moved
      have isOver := complete unit isPulled
      rcases kinds with ⟨waits, _⟩ | ⟨_, runs, _⟩ | ⟨waits, _⟩
      · simp [waits, Phase.settled] at isOver
      · simp [runs, Phase.settled] at isOver
      · simp [waits, Phase.settled] at isOver
    have less := Transaction.work_decreases moved
    rw [same] at less
    exact lt_irrefl _ less
  have silent : ∀ unit, unit ∉ session.asking := by
    intro unit member
    obtain ⟨isMember, runs⟩ := asks.running unit member
    have isOver := complete unit (inJobs unit isMember)
    simp [runs, Phase.settled] at isOver
  cases event with
  | begin unit | finish unit success | cancel unit => simp [step, noStep]
  | answer unit word | consult unit => simp [step, silent]
  | expire => exact absurd rfl lasting

/-- How a unit of a finished unlock ended. -/
structure Ended (config : Config) (opens : String → String → Bool) (session : Session) : Prop where
  target : session.phases targetUnit = .active
  imports : ∀ unit ∈ importUnits config,
    session.phases unit = .active ∨ session.phases unit = .failed
  members : ∀ unit ∈ unlockUnits config,
    (session.phases unit).settled = true ∧
      (session.phases unit = .active → ∃ word ∈ session.typed, opens unit word = true)

section Usb

variable (emitted : unlocks config = true) (usb : config.nixnas.location = .usb)
  (plain : ∀ name device, config.nixnas.storage.unlock.lookup name = some device →
    PlainMember name device)
include emitted usb plain

theorem target_pulled : targetUnit ∈ pulled config :=
  (mem_pulled emitted usb plain targetUnit).mpr (.inr (.inr rfl))

theorem ended_of_complete {session : Session} (reached : (machine config opens).Reachable session)
    (complete : (transaction config).Complete session.phases) : Ended config opens session := by
  obtain ⟨ends, traced⟩ := ends_of_reachable session reached
  refine ⟨?_, fun unit importing => ?_, fun unit member => ⟨?_, fun active => ?_⟩⟩
  · have isOver := complete targetUnit (target_pulled emitted usb plain)
    cases phase : session.phases targetUnit with
    | active => rfl
    | failed => exact absurd phase ends.target
    | dependency => exact absurd (ends.cancelled targetUnit phase) target_not_member
    | waiting | running => simp [phase, Phase.settled] at isOver
  · have isOver := complete unit ((mem_pulled emitted usb plain unit).mpr (.inr (.inl importing)))
    cases phase : session.phases unit with
    | active => exact .inl rfl
    | failed => exact .inr rfl
    | dependency => exact absurd (ends.cancelled unit phase) (import_not_member importing)
    | waiting | running => simp [phase, Phase.settled] at isOver
  · exact complete unit ((mem_pulled emitted usb plain unit).mpr (.inl member))
  · exact traced.opened unit (ends.opened unit member active)

end Usb

/-- Every run of the unlock comes to an end: but for expiries of the cache its
events are bounded, and it can go no further exactly when every job is over.
Then the target is active, the imports ran, and a member is active only through
an answer that opens it. -/
theorem unlock_ends (config : Config) (opens : String → String → Bool)
    (emitted : unlocks config = true) (usb : config.nixnas.location = .usb)
    (plain : ∀ name device, config.nixnas.storage.unlock.lookup name = some device →
      PlainMember name device)
    (session final : Session) (events : List Event)
    (reached : (machine config opens).Reachable session)
    (replayed : Machine.replay (step config opens) session events = some final) :
    (events.countP fun event => event ≠ .expire) ≤ work config session ∧
      ((∀ event, event ≠ .expire → step config opens final event = none) ↔
        (transaction config).Complete final.phases) ∧
      ((transaction config).Complete final.phases → Ended config opens final) := by
  have finalReached : (machine config opens).Reachable final :=
    reached.steps (Machine.steps_of_replay events session final replayed)
  have bounded : (events.countP fun event => event ≠ .expire) + work config final ≤
      work config session := by
    refine Machine.replay_countP_le (work config) _ events
      (fun _ _ _ asks taken => asks_step asks taken) (fun first event next asks taken => ?_)
      session final (asks_of_reachable session reached) replayed
    by_cases expiry : event = .expire
    · subst expiry
      simp only [step, Option.some.injEq] at taken
      subst taken
      exact le_rfl
    · have less := work_decreases asks taken expiry
      rw [if_pos (decide_eq_true expiry)]
      exact less
  refine ⟨by omega, ⟨complete_of_stuck ?_, fun complete => ?_⟩,
    ended_of_complete emitted usb plain finalReached⟩
  · intro unit isPulled earlier isAfter _
    exact rank_ordered emitted usb plain unit isPulled earlier isAfter
  · exact stuck_of_complete (asks_of_reachable final finalReached)
      (fun unit member => (mem_pulled emitted usb plain unit).mpr (.inl member)) complete

/-- archive0 is opened, archive1 has no disk and archive2 fails. -/
def threeMembersRun : List Event :=
  [.begin "systemd-cryptsetup@archive0.service", .answer "systemd-cryptsetup@archive0.service" "open",
    .finish "systemd-cryptsetup@archive0.service" true,
    .cancel "systemd-cryptsetup@archive1.service", .begin "systemd-cryptsetup@archive2.service",
    .finish "systemd-cryptsetup@archive2.service" false, .begin "nixnas-import-cold.service",
    .finish "nixnas-import-cold.service" true, .begin targetUnit, .finish targetUnit true]

theorem threeMembers_end :
    ∃ final, (final.phases targetUnit, final.questions) = (.active, 1) ∧
      10 ≤ work threeMembers .idle ∧
      ((transaction threeMembers).Complete final.phases →
        Ended threeMembers (fun _ word => decide (word = "open")) final) := by
  have ran : ((Machine.replay (step threeMembers fun _ word => decide (word = "open")) .idle
      threeMembersRun).map fun final => (final.phases targetUnit, final.questions)) =
        some (.active, 1) := by
    decide +kernel
  obtain ⟨final, replayed, ended⟩ := Option.map_eq_some_iff.mp ran
  obtain ⟨bounded, _, ends⟩ := unlock_ends threeMembers (fun _ word => decide (word = "open")) rfl rfl
    threeMembers_plain .idle final threeMembersRun (.initial rfl) replayed
  exact ⟨final, ended, bounded, ends⟩

/-! ## nixnas-unlock -/

/-- `grep` finds the pattern somewhere in the line. -/
def contains (line pattern : String) : Bool :=
  line.toList.tails.any fun rest => pattern.toList.isPrefixOf rest

/-- A name glob with one `*`. -/
structure Glob where
  before : String
  after : String

def Glob.isMatch (glob : Glob) (name : String) : Bool :=
  glob.before.toList.isPrefixOf name.toList &&
    glob.after.toList.isSuffixOf (name.toList.drop glob.before.toList.length)

/-- `'nixnas-storage|cryptsetup|nixnas-import'` -/
def jobPatterns : List String := ["nixnas-storage", "cryptsetup", "nixnas-import"]

def isStorageJob (unit : String) : Bool := jobPatterns.any (contains unit)

/-- `'systemd-cryptsetup@*.service' 'nixnas-import-*.service'` -/
def failedGlobs : List Glob :=
  [⟨"systemd-cryptsetup@", ".service"⟩, ⟨"nixnas-import-", ".service"⟩]

/-- `systemctl is-active` -/
def activeState : Phase → String
  | .waiting | .dependency => "inactive"
  | .running => "activating"
  | .active => "active"
  | .failed => "failed"

/-- A line of `systemctl list-units`. -/
structure Row where
  mark : String
  unit : String
  about : String
  deriving DecidableEq, Repr

def Row.line (row : Row) : String := row.mark ++ row.unit ++ row.about

inductive Stage where
  | raise
  /-- errexit: the target could not be started. -/
  | aborted
  | poll
  | query
  | pause
  | list
  | report (failed : List Row)
  | done (failed : List Row)
  deriving DecidableEq, Repr

/-- The script and the system it runs on. -/
structure Console where
  session : Session
  stage : Stage
  printed : List String
  /-- Every `systemctl` that was asked something came to its end. -/
  whole : Bool

namespace Console

def idle : Console where
  session := .idle
  stage := .raise
  printed := []
  whole := true

end Console

inductive Move where
  | system (event : Event)
  | raise (started : Bool)
  /-- `systemctl list-jobs`, with the jobs of other units.  It does not come to
  its end when it fails, and when `grep -q` leaves the pipe before it. -/
  | poll (others : List String) (ended : Bool)
  | query
  | pause
  /-- `systemctl list-units --failed`, over all the failed units of the system.
  One that fails prints its first lines at most. -/
  | list (units : List String) (mark : String) (about : String → String) (cut : Option Nat)
  /-- `zpool list` prints its table, or some of it and fails; then `systemctl is-active`. -/
  | report (pools : List String) (listed : Bool) (told : Bool)

/-- The units with a job in the queue. -/
def pendingJobs (config : Config) (session : Session) : List String :=
  (pulled config).filter fun unit => !(session.phases unit).settled

/-- The failed units of the system, as far as the target pulls them. -/
def AreFailed (config : Config) (session : Session) (units : List String) : Prop :=
  ∀ unit ∈ pulled config, unit ∈ units ↔ session.phases unit = .failed

instance (config : Config) (session : Session) (units : List String) :
    Decidable (AreFailed config session units) :=
  inferInstanceAs (Decidable (∀ unit ∈ pulled config, unit ∈ units ↔ _))

def failedRows (units : List String) (mark : String) (about : String → String) : List Row :=
  (units.filter fun unit => failedGlobs.any fun glob => glob.isMatch unit).map fun unit =>
    ⟨mark, unit, about unit⟩

def raising : List String := [">> nixnas-unlock: raising nixnas-storage.target"]

def didNotComeUp : String := ">> some members/pools did NOT come up (non-fatal by design):"

def poolTable (pools : List String) (listed : Bool) : List String :=
  if listed then pools else pools ++ [">> no ZFS pools imported"]

/-- What the script prints once it stopped waiting. -/
def closing (config : Config) (failed : List Row) (table : List String)
    (active : String) : List String :=
  [""] ++ (if failed.isEmpty then [] else didNotComeUp :: failed.map Row.line) ++
    (if config.nixnas.storage.zfsPools.isEmpty then [] else table) ++
    [">> nixnas-storage.target: " ++ active]

def move (config : Config) (opens : String → String → Bool) (console : Console) :
    Move → Option Console
  | .system event =>
      if console.stage = .raise ∨ console.stage = .aborted then none
      else (step config opens console.session event).map fun session =>
        { console with session := session }
  | .raise started =>
      if console.stage = .raise then
        some { console with
          stage := if started then .poll else .aborted
          printed := console.printed ++ raising }
      else none
  | .poll others ended =>
      if console.stage = .poll then
        -- pipefail: a list-jobs that did not come to its end ends the wait.
        if ended ∧ (pendingJobs config console.session ++ others).any isStorageJob then
          some { console with stage := .query }
        else some { console with stage := .list, whole := console.whole && ended }
      else none
  | .query => if console.stage = .query then some { console with stage := .pause } else none
  | .pause => if console.stage = .pause then some { console with stage := .poll } else none
  | .list units mark about cut =>
      if console.stage = .list ∧ AreFailed config console.session units then
        match cut with
        | none => some { console with stage := .report (failedRows units mark about) }
        | some lines =>
            some { console with
              stage := .report ((failedRows units mark about).take lines)
              whole := false }
      else none
  | .report pools listed told =>
      match console.stage with
      | .report failed =>
          some { console with
            stage := .done failed
            printed := console.printed ++ closing config failed (poolTable pools listed)
              (if told then activeState (console.session.phases targetUnit) else "")
            whole := console.whole && told }
      | _ => none

def console (config : Config) (opens : String → String → Bool) : Machine Console Move :=
  .ofStep (fun console => console = .idle) (move config opens)

theorem contains_of_append (before pattern after name suffix : String) :
    contains (before ++ pattern ++ after ++ name ++ suffix) pattern = true := by
  refine List.any_eq_true.mpr
    ⟨pattern.toList ++ (after.toList ++ (name.toList ++ suffix.toList)), ?_, ?_⟩
  · simp only [List.mem_tails, String.toList_append, List.append_assoc]
    exact List.suffix_append _ _
  · rw [List.isPrefixOf_iff_prefix]
    exact List.prefix_append _ _

theorem glob_isMatch (glob : Glob) (name : String) :
    glob.isMatch (glob.before ++ name ++ glob.after) = true := by
  simp only [Glob.isMatch, String.toList_append, List.append_assoc, List.drop_left,
    Bool.and_eq_true, List.isPrefixOf_iff_prefix, List.isSuffixOf_iff_suffix]
  exact ⟨List.prefix_append _ _, List.suffix_append _ _⟩

section Usb

variable (emitted : unlocks config = true) (usb : config.nixnas.location = .usb)
  (plain : ∀ name device, config.nixnas.storage.unlock.lookup name = some device →
    PlainMember name device)
include emitted usb plain

/-- Every job the target pulls is one the script waits for. -/
theorem isStorageJob_of_pulled {unit : String} (isPulled : unit ∈ pulled config) :
    isStorageJob unit = true := by
  have found : ∀ pattern ∈ jobPatterns, contains unit pattern = true →
      isStorageJob unit = true := fun pattern member matched =>
    List.any_eq_true.mpr ⟨pattern, member, matched⟩
  rcases (mem_pulled emitted usb plain unit).mp isPulled with member | importing | rfl
  · obtain ⟨name, rfl⟩ := unlockUnit_cases member
    have word : "systemd-cryptsetup@" = "systemd-" ++ "cryptsetup" ++ "@" := by decide
    refine found "cryptsetup" (by simp [jobPatterns]) ?_
    unfold serviceUnit unlockService
    rw [word]
    exact contains_of_append _ _ _ _ _
  · obtain ⟨pool, _, rfl⟩ := importUnit_cases importing
    have word : "nixnas-import-" = "" ++ "nixnas-import" ++ "-" := by decide
    refine found "nixnas-import" (by simp [jobPatterns]) ?_
    unfold serviceUnit importService
    rw [word]
    exact contains_of_append _ _ _ _ _
  · have word : targetUnit = "" ++ "nixnas-storage" ++ ".target" ++ "" ++ "" := by decide
    refine found "nixnas-storage" (by simp [jobPatterns]) ?_
    rw [word]
    exact contains_of_append _ _ _ _ _

/-- A member or an import is one the script lists. -/
theorem failedGlobs_of_pulled {unit : String} (isPulled : unit ∈ pulled config)
    (notTarget : unit ≠ targetUnit) :
    (failedGlobs.any fun glob => glob.isMatch unit) = true := by
  rcases (mem_pulled emitted usb plain unit).mp isPulled with member | importing | isTarget
  · obtain ⟨name, rfl⟩ := unlockUnit_cases member
    exact List.any_eq_true.mpr ⟨⟨"systemd-cryptsetup@", ".service"⟩, by simp [failedGlobs],
      glob_isMatch ⟨"systemd-cryptsetup@", ".service"⟩ name⟩
  · obtain ⟨pool, _, rfl⟩ := importUnit_cases importing
    exact List.any_eq_true.mpr ⟨⟨"nixnas-import-", ".service"⟩, by simp [failedGlobs],
      glob_isMatch ⟨"nixnas-import-", ".service"⟩ pool⟩
  · exact absurd isTarget notTarget

theorem complete_of_no_job {session : Session} {others : List String}
    (silent : (pendingJobs config session ++ others).any isStorageJob = false) :
    (transaction config).Complete session.phases := by
  intro unit isPulled
  by_contra notOver
  have inJobs : unit ∈ pendingJobs config session ++ others :=
    List.mem_append_left _ (List.mem_filter.mpr ⟨isPulled, by simpa using notOver⟩)
  have matched := isStorageJob_of_pulled emitted usb plain isPulled
  rw [List.any_eq_false] at silent
  exact silent unit inJobs matched

/-- What a script with whole answers knows: the jobs are over, and the failed
units it lists are the pulled ones that failed. -/
def Names (config : Config) (session : Session) (failed : List Row) : Prop :=
  (transaction config).Complete session.phases ∧
    AreFailed config session (failed.map Row.unit)

/-- What the script knows at each stage. -/
def Told (config : Config) (console : Console) : Prop :=
  match console.stage with
  | .raise => console.session = .idle ∧ console.printed = []
  | .aborted | .poll | .query | .pause => console.printed = raising
  | .list =>
      console.printed = raising ∧
        (console.whole = true → (transaction config).Complete console.session.phases)
  | .report failed =>
      console.printed = raising ∧
        (console.whole = true → Names config console.session failed)
  | .done failed =>
      ∃ pools listed active,
        console.printed = raising ++ closing config failed (poolTable pools listed) active ∧
          (console.whole = true → active = "active" ∧ Names config console.session failed)

omit emitted usb plain in
/-- A system whose jobs are all over stays as it is. -/
theorem complete_kept {session next : Session} {event : Event}
    (taken : step config opens session event = some next)
    (complete : (transaction config).Complete session.phases) :
    (transaction config).Complete next.phases ∧
      ∀ unit ∈ pulled config, next.phases unit = session.phases unit := by
  have same : ∀ unit ∈ pulled config, next.phases unit = session.phases unit := by
    intro unit isPulled
    rcases step_phases taken with unchanged | ⟨job, moved⟩
    · rw [unchanged]
    · exact Transaction.settled_kept moved unit (complete unit isPulled)
  refine ⟨fun unit isPulled => ?_, same⟩
  rw [same unit isPulled]
  exact complete unit isPulled

/-- Of the pulled units, only those that failed are listed, and all of them match
a pattern: the target never fails. -/
theorem failedRows_of_pulled {session : Session}
    (reached : (machine config opens).Reachable session) {units : List String}
    (areFailed : AreFailed config session units) (mark : String) (about : String → String) :
    AreFailed config session ((failedRows units mark about).map Row.unit) := by
  have listed : (failedRows units mark about).map Row.unit =
      units.filter fun unit => failedGlobs.any fun glob => glob.isMatch unit := by
    simp [failedRows, Function.comp_def]
  intro unit isPulled
  rw [listed, List.mem_filter, areFailed unit isPulled]
  refine ⟨And.left, fun failed => ⟨failed, ?_⟩⟩
  have notTarget : unit ≠ targetUnit := by
    rintro rfl
    exact (ends_of_reachable session reached).1.target failed
  exact failedGlobs_of_pulled emitted usb plain isPulled notTarget

omit emitted usb plain in
theorem move_session {first next : Console} {label : Move}
    (taken : move config opens first label = some next) :
    next.session = first.session ∨
      ∃ event, step config opens first.session event = some next.session := by
  cases label with
  | system event =>
      simp only [move, Option.ite_none_left_eq_some, Option.map_eq_some_iff] at taken
      obtain ⟨_, session, stepped, rfl⟩ := taken
      exact .inr ⟨event, stepped⟩
  | raise started | query | pause =>
      simp only [move, Option.ite_none_right_eq_some, Option.some.injEq] at taken
      obtain ⟨_, rfl⟩ := taken
      exact .inl rfl
  | poll others ended =>
      simp only [move, Option.ite_none_right_eq_some] at taken
      obtain ⟨_, taken⟩ := taken
      split at taken <;>
      · cases taken
        exact .inl rfl
  | list units mark about cut =>
      simp only [move, Option.ite_none_right_eq_some] at taken
      obtain ⟨_, taken⟩ := taken
      cases cut <;>
      · cases taken
        exact .inl rfl
  | report pools listed told =>
      simp only [move] at taken
      split at taken
      · cases taken
        exact .inl rfl
      · simp at taken

omit emitted usb plain in
theorem session_reachable : ∀ first, (console config opens).Reachable first →
    (machine config opens).Reachable first.session := by
  refine Machine.invariant ?_ ?_
  · rintro first rfl
    exact .initial rfl
  · intro first label next _ held taken
    rcases move_session taken with same | ⟨event, stepped⟩
    · exact same ▸ held
    · exact held.step event stepped

omit emitted usb plain in
theorem names_kept {session next : Session} {event : Event} {failed : List Row}
    (taken : step config opens session event = some next)
    (names : Names config session failed) : Names config next failed := by
  obtain ⟨complete, areFailed⟩ := names
  obtain ⟨still, same⟩ := complete_kept taken complete
  exact ⟨still, fun unit isPulled => by rw [same unit isPulled, areFailed unit isPulled]⟩

omit emitted usb plain in
theorem told_system {first : Console} {session : Session} {event : Event}
    (told : Told config first) (started : first.stage ≠ .raise)
    (stepped : step config opens first.session event = some session) :
    Told config { first with session := session } := by
  obtain ⟨before, stage, printed, whole⟩ := first
  cases stage with
  | raise => exact absurd rfl started
  | aborted | poll | query | pause => exact told
  | list =>
      obtain ⟨lines, complete⟩ := told
      exact ⟨lines, fun ended => (complete_kept stepped (complete ended)).1⟩
  | report failed =>
      obtain ⟨lines, names⟩ := told
      exact ⟨lines, fun ended => names_kept stepped (names ended)⟩
  | done failed =>
      obtain ⟨pools, listed, active, lines, names⟩ := told
      exact ⟨pools, listed, active, lines, fun ended =>
        ⟨(names ended).1, names_kept stepped (names ended).2⟩⟩

theorem told_move {first next : Console} {label : Move}
    (reached : (console config opens).Reachable first) (told : Told config first)
    (taken : move config opens first label = some next) : Told config next := by
  have sessionReached := session_reachable first reached
  cases label with
  | system event =>
      simp only [move, Option.ite_none_left_eq_some, Option.map_eq_some_iff, not_or] at taken
      obtain ⟨⟨started, _⟩, session, stepped, rfl⟩ := taken
      exact told_system told started stepped
  | raise started =>
      simp only [move, Option.ite_none_right_eq_some, Option.some.injEq] at taken
      obtain ⟨stage, rfl⟩ := taken
      rw [Told, stage] at told
      obtain ⟨_, printed⟩ := told
      cases started <;> simp [Told, printed]
  | poll others ended =>
      simp only [move, Option.ite_none_right_eq_some] at taken
      obtain ⟨stage, taken⟩ := taken
      rw [Told, stage] at told
      by_cases found : ended ∧
          (pendingJobs config first.session ++ others).any isStorageJob = true
      · rw [if_pos found] at taken
        cases taken
        exact told
      · rw [if_neg found] at taken
        cases taken
        refine ⟨told, fun whole => ?_⟩
        have finished : ended = true := (Bool.and_eq_true_iff.mp whole).2
        have silent : (pendingJobs config first.session ++ others).any isStorageJob = false :=
          Bool.eq_false_iff.mpr fun matched => found ⟨finished, matched⟩
        exact complete_of_no_job emitted usb plain silent
  | query | pause =>
      simp only [move, Option.ite_none_right_eq_some, Option.some.injEq] at taken
      obtain ⟨stage, rfl⟩ := taken
      rw [Told, stage] at told
      exact told
  | list units mark about cut =>
      simp only [move, Option.ite_none_right_eq_some] at taken
      obtain ⟨⟨stage, areFailed⟩, taken⟩ := taken
      rw [Told, stage] at told
      obtain ⟨printed, complete⟩ := told
      cases cut with
      | none =>
          cases taken
          exact ⟨printed, fun whole => ⟨complete whole,
            failedRows_of_pulled emitted usb plain sessionReached areFailed mark about⟩⟩
      | some lines =>
          cases taken
          exact ⟨printed, by simp⟩
  | report pools listed answers =>
      simp only [move] at taken
      split at taken
      · rename_i failed stage
        cases taken
        rw [Told, stage] at told
        obtain ⟨printed, names⟩ := told
        refine ⟨pools, listed, _, by rw [printed], fun whole => ?_⟩
        obtain ⟨ended, answered⟩ := Bool.and_eq_true_iff.mp whole
        have complete := (names ended).1
        rw [if_pos answered, (ended_of_complete emitted usb plain sessionReached complete).target]
        exact ⟨rfl, names ended⟩
      · simp at taken

theorem told_of_reachable : ∀ first, (console config opens).Reachable first →
    Told config first := by
  refine Machine.invariant ?_ ?_
  · rintro first rfl
    exact ⟨rfl, rfl⟩
  · intro first label next reached told taken
    exact told_move emitted usb plain reached told taken

end Usb

/-- When the script is done, in whatever order it and the system took their
steps, it has printed what belongs to the units it lists as failed.  When every
`systemctl` it asked came to its end, no job the target pulls is left, the
target is active, and of the units it pulls exactly those that failed are
listed: a member whose job was cancelled is not among them. -/
theorem report_exact (config : Config) (opens : String → String → Bool)
    (emitted : unlocks config = true) (usb : config.nixnas.location = .usb)
    (plain : ∀ name device, config.nixnas.storage.unlock.lookup name = some device →
      PlainMember name device)
    (final : Console) (reached : (console config opens).Reachable final) (failed : List Row)
    (done : final.stage = .done failed) :
    ∃ pools listed active,
      final.printed = raising ++ closing config failed (poolTable pools listed) active ∧
        (final.whole = true → active = "active" ∧
          (∀ unit ∈ pulled config, (final.session.phases unit).settled = true) ∧
          ∀ unit ∈ pulled config,
            unit ∈ failed.map Row.unit ↔ final.session.phases unit = .failed) := by
  have told := told_of_reachable emitted usb plain final reached
  rw [Told, done] at told
  obtain ⟨pools, listed, active, printed, names⟩ := told
  refine ⟨pools, listed, active, printed, fun whole => ?_⟩
  obtain ⟨isActive, complete, areFailed⟩ := names whole
  exact ⟨isActive, complete, areFailed⟩

/-- The moves of a script that waits for the three members. -/
def threeMembersMoves : List Move :=
  [.raise true, .poll [] true, .query] ++ threeMembersRun.map Move.system ++
    [.pause, .poll ["nix-gc.service"] true,
      .list ["postgresql.service", "systemd-cryptsetup@archive2.service"] "● "
        (fun _ => " loaded failed failed Cryptography Setup") none,
      .report [] false true]

def archive2Row : Row :=
  ⟨"● ", "systemd-cryptsetup@archive2.service", " loaded failed failed Cryptography Setup"⟩

/-- archive1 did not come up either, and is not listed. -/
theorem threeMembers_report :
    ∃ final, (console threeMembers fun _ word => decide (word = "open")).Reachable final ∧
      final.whole = true ∧ final.stage = .done [archive2Row] ∧
      final.session.phases "systemd-cryptsetup@archive1.service" = .dependency ∧
      ∃ pools listed active, final.printed = raising ++
        closing threeMembers [archive2Row] (poolTable pools listed) active ∧
        active = "active" := by
  have ran : ((Machine.replay (move threeMembers fun _ word => decide (word = "open"))
      .idle threeMembersMoves).map fun final =>
        (final.whole, final.stage,
          final.session.phases "systemd-cryptsetup@archive1.service")) =
        some (true, .done [archive2Row], .dependency) := by
    decide +kernel
  obtain ⟨final, replayed, ended⟩ := Option.map_eq_some_iff.mp ran
  obtain ⟨whole, rest⟩ := Prod.mk.inj ended
  obtain ⟨done, gone⟩ := Prod.mk.inj rest
  have reached : (console threeMembers fun _ word => decide (word = "open")).Reachable final :=
    Machine.Reachable.steps (.initial rfl) (Machine.steps_of_replay _ _ _ replayed)
  obtain ⟨pools, listed, active, printed, names⟩ :=
    report_exact threeMembers _ rfl rfl threeMembers_plain final reached _ done
  exact ⟨final, reached, whole, done, gone, pools, listed, active, printed, (names whole).1⟩

end Nixnas.Modules.UnlockSession
