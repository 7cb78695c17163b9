import Nixnas.Logic.Protocol
import Nixnas.Tui.FlashFrame

/-!
# The flash worker's protocol

The events of `spawn_flash` come in one order: the backup and its progress if one
was asked for, the overwrite and its progress, the check once the whole image is
written, the grow only after the check, and one verdict that nothing follows.
The progress of a copy only rises, and that of the overwrite stays within the
size of the image.
-/

set_option autoImplicit false

namespace Nixnas.Tui.Flash

open Nixnas.Logic Nixnas.Logic.Action
open Nixnas.Rust
open Nixnas.Tui.Sudo

/-! ## The protocol -/

/-- Where a worker is, as its events tell. -/
inductive Leg where
  | start
  | backup (done : Nat)
  | write (done : Nat)
  | verify
  | grow
  | growStore
  | finished (success : Bool)
  deriving DecidableEq, Repr

def backupTitle : String := "Backing up current device contents"

def writeTitle : String := "Writing image to device"

def verifyTitle : String := "Verifying device header"

def growTitle : String := "Growing the last partition to fill the device"

def growStoreTitle : String := "Growing the f2fs store inside the LUKS partition"

/-- A verdict of failure is given before the grow, one of success at the end. -/
def Leg.verdict (job : FlashJob) (success : Bool) : Leg → Bool
  | .backup _ | .write _ => !success
  | .verify => !success || !job.grow
  | .grow | .growStore => success
  | .start | .finished _ => false

def Leg.next (imageSize : Nat) (job : FlashJob) : Leg → FlashEvent → Option Leg
  | .start, .phase title =>
      if job.backupTo.isSome then if title = backupTitle then some (.backup 0) else none
      else if title = writeTitle then some (.write 0) else none
  | .backup done, .progress more total =>
      if done < more ∧ total = job.devSize.getD 0 then some (.backup more) else none
  | .backup _, .phase title => if title = writeTitle then some (.write 0) else none
  | .write done, .progress more total =>
      if done < more ∧ more ≤ total ∧ total = imageSize then some (.write more) else none
  | .write done, .phase title =>
      if done = imageSize ∧ title = verifyTitle then some .verify else none
  | .verify, .phase title => if job.grow ∧ title = growTitle then some .grow else none
  | .grow, .phase title =>
      if job.storePass.isSome ∧ title = growStoreTitle then some .growStore else none
  | leg, .done result =>
      if leg.verdict job result.toBool then some (.finished result.toBool) else none
  | _, _ => none

section Steps

variable {imageSize : Nat} {job : FlashJob} {leg after : Leg}

theorem next_phase {title : String} (step : leg.next imageSize job (.phase title) = some after) :
    (after = .backup 0 ∧ title = backupTitle) ∨ (after = .write 0 ∧ title = writeTitle) ∨
      (after = .verify ∧ title = verifyTitle) ∨ (after = .grow ∧ title = growTitle) ∨
      (after = .growStore ∧ title = growStoreTitle) := by
  cases leg with
  | start =>
      simp only [Leg.next] at step
      split at step
      · rw [Option.ite_none_right_eq_some, Option.some.injEq] at step
        exact .inl ⟨step.2.symm, step.1⟩
      · rw [Option.ite_none_right_eq_some, Option.some.injEq] at step
        exact .inr (.inl ⟨step.2.symm, step.1⟩)
  | backup done =>
      simp only [Leg.next, Option.ite_none_right_eq_some, Option.some.injEq] at step
      exact .inr (.inl ⟨step.2.symm, step.1⟩)
  | write done =>
      simp only [Leg.next, Option.ite_none_right_eq_some, Option.some.injEq] at step
      exact .inr (.inr (.inl ⟨step.2.symm, step.1.2⟩))
  | verify =>
      simp only [Leg.next, Option.ite_none_right_eq_some, Option.some.injEq] at step
      exact .inr (.inr (.inr (.inl ⟨step.2.symm, step.1.2⟩)))
  | grow =>
      simp only [Leg.next, Option.ite_none_right_eq_some, Option.some.injEq] at step
      exact .inr (.inr (.inr (.inr ⟨step.2.symm, step.1.2⟩)))
  | growStore | finished success => simp [Leg.next] at step

theorem next_progress {more total : Nat}
    (step : leg.next imageSize job (.progress more total) = some after) :
    (∃ done, leg = .backup done ∧ done < more ∧ total = job.devSize.getD 0 ∧ after = .backup more) ∨
      ∃ done, leg = .write done ∧ done < more ∧ more ≤ total ∧ total = imageSize ∧
        after = .write more := by
  cases leg with
  | backup done =>
      simp only [Leg.next, Option.ite_none_right_eq_some, Option.some.injEq] at step
      exact .inl ⟨done, rfl, step.1.1, step.1.2, step.2.symm⟩
  | write done =>
      simp only [Leg.next, Option.ite_none_right_eq_some, Option.some.injEq] at step
      exact .inr ⟨done, rfl, step.1.1, step.1.2.1, step.1.2.2, step.2.symm⟩
  | start | verify | grow | growStore | finished success => simp [Leg.next] at step

theorem next_verdict {result : Except String String} :
    leg.next imageSize job (.done result) = some after ↔
      leg.verdict job result.toBool = true ∧ after = .finished result.toBool := by
  have same : leg.next imageSize job (.done result) =
      if leg.verdict job result.toBool then some (.finished result.toBool) else none := by
    cases leg <;> rfl
  rw [same, Option.ite_none_right_eq_some, Option.some.injEq]
  exact and_congr_right fun _ => eq_comm

end Steps

section Worker

variable (env : Env) (job : FlashJob)

/-- The events sent so far lead to the leg. -/
def Reached (leg : Leg) : FlashWorld → Prop :=
  At (Leg.next (env.image job.image).length job) World.events .start leg

/-- They lead somewhere. -/
def Follows (w : FlashWorld) : Prop := ∃ leg, Reached env job leg w

/-- They lead to a leg that a failure may end. -/
def Failing (w : FlashWorld) : Prop :=
  ∃ leg, leg.verdict job false = true ∧ Reached env job leg w

variable {env job}

theorem Reached.follows {leg : Leg} {w : FlashWorld} (reached : Reached env job leg w) :
    Follows env job w := ⟨leg, reached⟩

theorem Failing.follows {w : FlashWorld} (failing : Failing env job w) : Follows env job w := by
  obtain ⟨leg, _, reached⟩ := failing
  exact ⟨leg, reached⟩

theorem quiet {α Error : Type} {action : Action FlashWorld Error α}
    (silent : Preserves World.events action) (leg : Leg) :
    Spec (Reached env job leg) action (.always (Reached env job leg)) :=
  At.quiet silent leg

/-- What sends nothing, on a leg that a failure may end. -/
theorem quiet_failing {α Error : Type} {action : Action FlashWorld Error α}
    (silent : Preserves World.events action) {leg : Leg} (may : leg.verdict job false = true) :
    Spec (Reached env job leg) action
      ⟨fun _ => Reached env job leg, fun _ => Failing env job, Follows env job⟩ :=
  (quiet silent leg).weaken (fun _ held => held) (fun _ _ held => held)
    (fun _ _ held => ⟨leg, may, held⟩) fun _ held => held.follows

theorem sends {event : FlashEvent} {leg after : Leg}
    (step : leg.next (env.image job.image).length job event = some after)
    {post : Post FlashWorld String Unit}
    (ok : ∀ w, Reached env job after w → post.ok () w) :
    Spec (Reached env job leg) (send event) post :=
  At.send (fun _ => rfl) step ok

end Worker

/-! ## What sends nothing -/

section Silent

variable (env : Env) (job : FlashJob)

theorem events_lasting : Lasting World.events := fun _ _ _ => rfl

theorem createFile_events (path : String) : Preserves World.events (createFile env path) := by
  apply call_preserves fun _ => rfl
  intro reply w
  cases reply.error <;> rfl

theorem writeFile_events (path : String) (buf : Bytes) :
    Preserves World.events (writeFile env path buf) := by
  apply call_preserves fun _ => rfl
  intro reply w
  cases reply.error <;> rfl

theorem syncFile_events (path : String) : Preserves World.events (syncFile env path) := by
  apply call_preserves fun _ => rfl
  intro reply w
  cases reply.error <;> rfl

theorem readRecorded_events (src : DevReader) (size : Nat) :
    Preserves World.events (readRecorded env src size) := by
  apply Preserves.bind ((src.read_still env size).comp World.events)
  rintro ⟨chunk, next⟩
  exact Preserves.bind (Preserves.modify fun _ => rfl) fun _ => Preserves.pure _

theorem openWriter_events (elev : Elevation) (dev : String) :
    Preserves World.events (openWriter env elev dev : Step FlashEvent DevWriter) := by
  have begins : Preserves World.events (beginWrite env dev : Io FlashWorld Unit) := by
    apply call_preserves fun _ => rfl
    intro reply w
    cases reply.error <;> rfl
  cases elev with
  | root | «sudo» _ => exact Preserves.bind (Preserves.mapError begins) fun _ => Preserves.pure _

theorem write_events (sink : DevWriter) (buf : Bytes) :
    Preserves World.events (sink.write env buf : Io FlashWorld Nat) := by
  apply call_preserves fun _ => rfl
  intro reply w
  cases reply.error <;> rfl

theorem finish_events (sink : DevWriter) :
    Preserves World.events (sink.finish env : Step FlashEvent Unit) := by
  have ends : ∀ {α : Type} (dev : String) (answer : Reply → α),
      Preserves World.events (endWrite env dev answer : Io FlashWorld α) := by
    intro α dev answer
    apply call_preserves fun _ => rfl
    intro reply w
    cases reply.error <;> rfl
  cases sink with
  | file dev => exact Preserves.mapError (ends dev _)
  | «sudo» dev =>
      apply Preserves.bind (Preserves.mapError (ends dev _))
      exact fun _ => Preserves.ite (Preserves.pure _) (Preserves.fail _)

end Silent

/-! ## The copy loop -/

section Copy

variable (env : Env) (job : FlashJob)

/-- The copy on the legs `leg done`: `done` bytes are read so far, each read but
the last moves on, and the last leaves the copy `Complete`. -/
theorem copyWithProgress_legs (leg : Nat → Leg) (Source : DevReader → Nat → Prop)
    (Complete : Nat → Prop) {read : DevReader → Nat → Io FlashWorld (Bytes × DevReader)}
    {write : Bytes → Io FlashWorld Nat} (total : Nat)
    (may : ∀ done, (leg done).verdict job false = true)
    (silent : ∀ src size, Preserves World.events (read src size))
    (writes : ∀ buf, Preserves World.events (write buf))
    (reads : ∀ src done, Source src done → Spec (fun _ => True) (read src chunkSize)
      (.onReturn (fun result _ =>
        if result.1 = [] then Complete done else Source result.2 (done + result.1.length))
        fun _ _ => True))
    (moves : ∀ src done more, Source src done → done < more →
      (∃ next, Source next more) → (leg done).next (env.image job.image).length job
        (.progress more total) = some (leg more))
    (src : DevReader) (begins : Source src 0) :
    Spec (Reached env job (leg 0)) (copyWithProgress read write src total)
      ⟨fun _ w => ∃ done, Complete done ∧ Reached env job (leg done) w, fun _ => Failing env job,
        Follows env job⟩ := by
  -- The leg is the one of the byte counter, which is part of the loop's state.
  have turns : Spec
      (fun w => Source (src, 0).1 (src, 0).2 ∧ Reached env job (leg (src, 0).2) w)
      (copyWithProgress read write src total)
      ⟨fun _ w => ∃ done, Complete done ∧ Reached env job (leg done) w, fun _ => Failing env job,
        Follows env job⟩ := by
    refine Spec.loop
      (fun (state : DevReader × Nat) w => Source state.1 state.2 ∧ Reached env job (leg state.2) w)
      (fun _ _ held => held.2.follows) ?_ (src, 0)
    rintro ⟨src, done⟩
    refine Spec.assume fun source => ?_
    refine Spec.bind (fun result w =>
      (if result.1 = [] then Complete done else Source result.2 (done + result.1.length)) ∧
        Reached env job (leg done) w) ?_ ?_
    · refine Spec.mapError (Spec.told _ (reads src done source) ?_)
      exact (quiet_failing (silent src chunkSize) (may done)).weaken (fun _ held => held)
        (fun _ _ held told => ⟨told, held⟩) (fun _ _ failed => failed) fun _ stopped => stopped
    · rintro ⟨chunk, next⟩
      refine Spec.assume fun told => ?_
      cases chunk with
      | nil => exact Spec.pure fun w held => ⟨done, told, held⟩
      | cons b rest =>
          rw [if_neg (List.cons_ne_nil b rest)] at told
          have more : done < done + (b :: rest).length :=
            Nat.lt_add_of_pos_right (Nat.succ_pos _)
          refine Spec.bind (fun _ => Reached env job (leg done)) ?_ fun _ => ?_
          · exact Spec.mapError (quiet_failing (writeAll_preserves writes _) (may done))
          · refine Spec.bind (fun _ => Reached env job (leg (done + (b :: rest).length)))
              (sends (moves src done _ source more ⟨next, told⟩) fun _ held => held) fun _ => ?_
            exact Spec.pure fun w held => ⟨told, held⟩
  exact turns.weaken (fun w held => ⟨begins, held⟩) (fun _ _ held => held) (fun _ _ held => held)
    fun _ held => held

end Copy

/-! ## The phases -/

section Phases

variable (env : Env) (job : FlashJob)

/-- The legs that the overwrite starts from. -/
def Before (w : FlashWorld) : Prop :=
  ∃ leg : Leg, leg.next (env.image job.image).length job (.phase writeTitle) = some (.write 0) ∧
    Reached env job leg w

theorem backup_legs (dest : String) (asked : job.backupTo = some dest) :
    Spec (Reached env job .start) (backup env job dest)
      ⟨fun _ => Before env job, fun _ => Failing env job, Follows env job⟩ := by
  have may : ∀ done, (Leg.backup done).verdict job false = true := fun _ => rfl
  have enter : Leg.start.next (env.image job.image).length job (.phase backupTitle) =
      some (.backup 0) := by
    simp [Leg.next, asked]
  refine Spec.bind (fun _ => Reached env job (.backup 0)) ?_ fun src => ?_
  · refine Spec.bind (fun _ => Reached env job (.backup 0)) (sends enter fun _ held => held)
      fun _ => ?_
    refine Spec.bind (fun _ => Reached env job (.backup 0)) ?_ fun src => ?_
    · exact Spec.mapError
        (quiet_failing ((openReader_still env _ _).comp World.events) (may 0))
    · refine Spec.bind (fun _ => Reached env job (.backup 0)) ?_ fun _ => ?_
      · exact Spec.mapError (quiet_failing (createFile_events env dest) (may 0))
      · exact Spec.pure fun _ held => held
  · refine Spec.bind (fun _ w => ∃ done, True ∧ Reached env job (.backup done) w) ?_ fun _ => ?_
    · refine Spec.mapError (copyWithProgress_legs env job .backup (fun _ _ => True) (fun _ => True)
        (job.devSize.getD 0) may (readRecorded_events env) (writeFile_events env dest) ?_ ?_ src
        trivial)
      · intro src done _ w fuel _
        cases readRecorded env src chunkSize w fuel with
        | ok result next rest =>
            change if result.1 = [] then True else True
            split <;> trivial
        | error e next rest => trivial
        | stopped next => trivial
      · intro src done more _ less _
        simp [Leg.next, less]
    · refine Spec.exists fun done => Spec.assume fun _ => Spec.mapError ?_
      have leave : (Leg.backup done).next (env.image job.image).length job (.phase writeTitle) =
          some (.write 0) := by
        simp [Leg.next]
      exact (quiet_failing (syncFile_events env dest) (may done)).weaken (fun _ held => held)
        (fun _ _ held => ⟨_, leave, held⟩) (fun _ _ failed => failed) fun _ stopped => stopped

theorem backupPhase_legs :
    Spec (Reached env job .start) (backupPhase env job)
      ⟨fun _ => Before env job, fun _ => Failing env job, Follows env job⟩ := by
  unfold backupPhase
  cases asked : job.backupTo with
  | none =>
      have leave : Leg.start.next (env.image job.image).length job (.phase writeTitle) =
          some (.write 0) := by
        simp [Leg.next, asked]
      exact Spec.pure fun w held => ⟨_, leave, held⟩
  | some dest => exact backup_legs env job dest asked

/-- Each read of the image takes the next bytes of it, and the last one finds it
read to its end. -/
theorem readImage_spec (done : Nat) (within : done ≤ (env.image job.image).length) :
    Spec (fun _ => True)
      (DevReader.read env (.file (.image job.image) done) chunkSize : Io FlashWorld _)
      (.onReturn (fun result _ =>
        if result.1 = [] then done = (env.image job.image).length
        else result.2 = .file (.image job.image) (done + result.1.length) ∧
          done + result.1.length ≤ (env.image job.image).length)
        fun _ _ => True) := by
  refine Spec.bind (fun chunk _ => ∃ count,
    chunk = readSome ((env.image job.image).drop done) chunkSize count) ?_ fun chunk => ?_
  · apply call_spec fun _ _ => trivial
    intro w _
    cases (env.reply w.clock).error with
    | some e => exact trivial
    | none => exact ⟨_, rfl⟩
  · refine Spec.exists fun count => Spec.pure fun w same => ?_
    change if chunk = [] then _ else _
    by_cases empty : chunk = []
    · rw [if_pos empty]
      rw [same] at empty
      have read := readSome_eq_nil (by decide) empty
      rw [List.drop_eq_nil_iff] at read
      omega
    · rw [if_neg empty]
      have front := readSome_prefix ((env.image job.image).drop done) chunkSize count
      have short := front.length_le
      rw [← same, List.length_drop] at short
      exact ⟨rfl, by dsimp only; omega⟩

theorem overwrite_legs (sink : DevWriter) :
    Spec (Reached env job (.write 0))
      (overwrite env sink (.file (.image job.image) 0) (env.image job.image).length)
      ⟨fun _ => Reached env job (.write (env.image job.image).length), fun _ => Failing env job,
        Follows env job⟩ := by
  have may : ∀ done, (Leg.write done).verdict job false = true := fun _ => rfl
  have copied := copyWithProgress_legs env job .write
    (fun src done => src = .file (.image job.image) done ∧ done ≤ (env.image job.image).length)
    (fun done => done = (env.image job.image).length) (env.image job.image).length may
    (fun src size => (src.read_still env size).comp World.events) (write_events env sink)
    (by
      rintro src done ⟨rfl, within⟩
      exact readImage_spec env job done within)
    (by
      rintro src done more _ less ⟨next, _, within⟩
      simp [Leg.next, less, within])
    (.file (.image job.image) 0) ⟨rfl, Nat.zero_le _⟩
  refine Spec.bind (fun answer w =>
    (∀ e, answer = .error e → Failing env job w) ∧
      (answer = .ok () → Reached env job (.write (env.image job.image).length) w)) ?_
    fun answer => ?_
  · refine Spec.attempt (copied.weaken (fun _ held => held) ?_ ?_ fun _ stopped => stopped)
    · rintro _ w ⟨done, rfl, held⟩
      exact ⟨fun _ failed => (by cases failed), fun _ => held⟩
    · intro e w failed
      exact ⟨fun _ _ => failed, fun copied => by cases copied⟩
  · cases answer with
    | ok _ =>
        refine (Spec.mapError (quiet_failing (finish_events env sink) (may _))).weaken ?_
          (fun _ _ held => held) (fun _ _ failed => failed) fun _ stopped => stopped
        exact fun _ held => held.2 rfl
    | error e =>
        have failing : ∀ w, ((∀ e', (Except.error e : Except String Unit) = .error e' →
            Failing env job w) ∧ (Except.error e = .ok () →
              Reached env job (.write (env.image job.image).length) w)) → Failing env job w :=
          fun w held => held.1 e rfl
        refine Spec.weaken ?_ failing (fun _ _ held => held) (fun _ _ failed => failed)
          fun _ stopped => stopped
        have dropped : Preserves World.events (sink.drop env : Step FlashEvent Unit) :=
          call_preserves (fun _ => rfl) fun _ _ => rfl
        refine Spec.exists fun leg => Spec.assume fun mayFail => ?_
        refine Spec.bind (fun _ => Reached env job leg) (quiet_failing dropped mayFail) fun _ => ?_
        exact Spec.fail fun w held => ⟨leg, mayFail, held⟩

theorem writePhase_legs :
    Spec (Before env job) (writePhase env job)
      ⟨fun _ => Reached env job (.write (env.image job.image).length), fun _ => Failing env job,
        Follows env job⟩ := by
  have may : (Leg.write 0).verdict job false = true := rfl
  refine Spec.exists fun leg => Spec.assume fun enter => ?_
  refine Spec.bind (fun _ => Reached env job (.write 0)) (sends enter fun _ held => held)
    fun _ => ?_
  refine Spec.bind (fun size w => size = (env.image job.image).length ∧
    Reached env job (.write 0) w) ?_ fun size => ?_
  · refine Spec.mapError (Spec.told (fun size => size = (env.image job.image).length) ?_ ?_)
    · apply call_spec fun _ _ => trivial
      intro w _
      cases (env.reply w.clock).error with
      | some e => exact trivial
      | none => exact rfl
    · exact (quiet_failing ((ask_still env _).comp World.events) may).weaken (fun _ held => held)
        (fun _ _ held told => ⟨told, held⟩) (fun _ _ failed => failed) fun _ stopped => stopped
  · refine Spec.assume fun sized => ?_
    subst sized
    refine Spec.bind (fun _ => Reached env job (.write 0)) ?_ fun _ => ?_
    · exact Spec.mapError (quiet_failing ((ask_still env _).comp World.events) may)
    · refine Spec.bind (fun _ => Reached env job (.write 0)) ?_ fun sink => ?_
      · exact Spec.mapError (quiet_failing (openWriter_events env _ _) may)
      · exact overwrite_legs env job sink

theorem verifyPhase_legs :
    Spec (Reached env job (.write (env.image job.image).length)) (verifyPhase env job)
      ⟨fun _ => Reached env job .verify, fun _ => Failing env job, Follows env job⟩ := by
  have may : Leg.verify.verdict job false = true := by simp [Leg.verdict]
  have enter : (Leg.write (env.image job.image).length).next (env.image job.image).length job
      (.phase verifyTitle) = some .verify := by
    simp [Leg.next]
  refine Spec.bind (fun _ => Reached env job .verify) (sends enter fun _ held => held) fun _ => ?_
  refine Spec.bind (fun _ => Reached env job .verify) ?_ fun same => ?_
  · exact Spec.mapError (quiet_failing ((samePrefix_still env job _).comp World.events) may)
  · refine Spec.ite (fun _ => Spec.pure fun _ held => held) fun _ => ?_
    exact Spec.fail fun w held => ⟨_, may, held⟩

/-- The grow never fails: what goes wrong in it is a note. -/
theorem growPhase_legs (asked : job.grow = true) :
    Spec (Reached env job .verify) (growPhase env job)
      ⟨fun _ w => Reached env job .grow w ∨ Reached env job .growStore w, fun _ _ => False,
        Follows env job⟩ := by
  have enter : Leg.verify.next (env.image job.image).length job (.phase growTitle) =
      some .grow := by
    simp [Leg.next, asked]
  refine Spec.bind (fun _ => Reached env job .grow) (sends enter fun _ held => held) fun _ => ?_
  refine Spec.bind (fun _ => Reached env job .grow) ?_ fun grown => ?_
  · exact Spec.attempt ((quiet (growLastPartition_preserves env events_lasting _) .grow).weaken
      (fun _ held => held) (fun _ _ held => held) (fun _ _ held => held) fun _ held => held.follows)
  · cases grown with
    | error e => exact Spec.pure fun _ held => .inl held
    | ok partNum =>
        dsimp only
        cases pass : job.storePass with
        | none => exact Spec.pure fun _ held => .inl held
        | some secret =>
            have store : Leg.grow.next (env.image job.image).length job (.phase growStoreTitle) =
                some .growStore := by
              simp [Leg.next, pass]
            refine Spec.bind (fun _ => Reached env job .growStore)
              (sends store fun _ held => held) fun _ => ?_
            refine Spec.bind (fun _ => Reached env job .growStore) ?_ fun done => ?_
            · exact Spec.attempt
                ((quiet (growF2fsInLuks_preserves env events_lasting _ _ _) .growStore).weaken
                  (fun _ held => held) (fun _ _ held => held) (fun _ _ held => held)
                  fun _ held => held.follows)
            · cases done <;> exact Spec.pure fun _ held => .inr held

/-- They lead to a leg that a success may end. -/
def Succeeding (w : FlashWorld) : Prop :=
  ∃ leg : Leg, leg.verdict job true = true ∧ Reached env job leg w

theorem runFlash_legs :
    Spec (Reached env job .start) (runFlash env job)
      ⟨fun _ => Succeeding env job, fun _ => Failing env job, Follows env job⟩ := by
  refine Spec.bind (fun _ => Reached env job .verify) ?_ fun _ => ?_
  · refine Spec.bind (fun _ => Before env job) (backupPhase_legs env job) fun _ => ?_
    exact Spec.bind (fun _ => Reached env job (.write (env.image job.image).length))
      (writePhase_legs env job) fun _ => verifyPhase_legs env job
  · refine Spec.ite (fun asked => ?_) fun notAsked => ?_
    · refine Spec.bind (fun _ w => Reached env job .grow w ∨ Reached env job .growStore w)
        ((growPhase_legs env job asked).weaken (fun _ held => held) (fun _ _ held => held)
          (fun _ _ never => never.elim) fun _ stopped => stopped) fun _ => ?_
      refine Spec.pure fun w held => ?_
      rcases held with grow | store
      · exact ⟨_, rfl, grow⟩
      · exact ⟨_, rfl, store⟩
    · exact Spec.pure fun w held => ⟨_, by simpa [Leg.verdict] using notAsked, held⟩

theorem spawnFlash_legs :
    Spec (Reached env job .start) (spawnFlash env job)
      ⟨fun _ w => ∃ success, Reached env job (.finished success) w, fun _ _ => False,
        Follows env job⟩ := by
  refine Spec.bind (fun result w => ∃ leg : Leg, leg.verdict job result.toBool = true ∧
    Reached env job leg w) (Spec.attempt (runFlash_legs env job)) fun result => ?_
  refine Spec.exists fun leg => Spec.assume fun may => ?_
  exact sends (next_verdict.mpr ⟨may, rfl⟩) fun _ held => ⟨_, held⟩

end Phases

theorem fresh_start {env : Env} {job : FlashJob} {world : FlashWorld} (fresh : world.events = []) :
    Reached env job .start world := by
  unfold Reached At
  rw [fresh]
  rfl

theorem spawnFlash_follows (env : Env) (job : FlashJob) (world : FlashWorld) (fuel : Nat)
    (fresh : world.events = []) : Follows env job (spawnFlash env job world fuel).world := by
  have follows : Spec (Reached env job .start) (spawnFlash env job) (.always (Follows env job)) := by
    refine (spawnFlash_legs env job).weaken (fun _ held => held) ?_ (fun _ _ never => never.elim)
      fun _ held => held
    rintro _ w ⟨success, held⟩
    exact ⟨.finished success, held⟩
  exact follows.always fuel (fresh_start fresh)

/-- Whatever the system answers, and wherever the worker is stopped, its events
keep to the protocol, and a worker that came to its end has given its verdict. -/
theorem events_follow_protocol (env : Env) (job : FlashJob) (world : FlashWorld) (fuel : Nat)
    (fresh : world.events = []) :
    ∃ leg, Machine.replay (Leg.next (env.image job.image).length job) .start
        (spawnFlash env job world fuel).world.events = some leg ∧
      ((spawnFlash env job world fuel).returned ≠ none → ∃ success, leg = .finished success) := by
  have met := spawnFlash_legs env job world fuel (fresh_start fresh)
  cases outcome : spawnFlash env job world fuel with
  | ok value next rest =>
      rw [outcome] at met
      obtain ⟨success, reached⟩ := met
      exact ⟨_, reached, fun _ => ⟨success, rfl⟩⟩
  | error e next rest =>
      rw [outcome] at met
      exact met.elim
  | stopped next =>
      rw [outcome] at met
      obtain ⟨leg, reached⟩ := met
      exact ⟨leg, reached, fun returned => absurd rfl returned⟩

/-- A system that answers every operation, two bytes at a time. -/
def readyEnv : Env where
  image _ := [1, 2, 3]
  reply _ :=
    { error := none
      count := 2
      short := 0
      output := ⟨true, "", ""⟩
      blockdev size := ⟨true, toString size, ""⟩
      present := true
      deliver original accepted _ := accepted ++ original.drop accepted.length
      settle original accepted _ := accepted ++ original.drop accepted.length
      tool device := device }

/-- An image as large as its device, backed up first. -/
def readyJob : FlashJob where
  image := "nixnas.raw"
  dev := "/dev/sda"
  devSize := some 3
  backupTo := some "nixnas-backup.img"
  grow := false
  storePass := none
  elev := .root

def readyWorld : FlashWorld where
  clock := 0
  devices _ := [7, 7, 7]
  files _ := none
  synced _ := false
  original := []
  accepted := []
  wrote := false
  delivered := []
  ended := false
  events := []

theorem ready_events_follow :
    ∃ success, Machine.replay (Leg.next 3 readyJob) .start
      (spawnFlash readyEnv readyJob readyWorld 100).world.events = some (.finished success) := by
  have returned : (spawnFlash readyEnv readyJob readyWorld 100).returned.isSome = true := by
    decide +kernel
  obtain ⟨leg, followed, ended⟩ := events_follow_protocol readyEnv readyJob readyWorld 100 rfl
  obtain ⟨success, rfl⟩ := ended (Option.isSome_iff_ne_none.mp returned)
  exact ⟨success, followed⟩

end Nixnas.Tui.Flash
