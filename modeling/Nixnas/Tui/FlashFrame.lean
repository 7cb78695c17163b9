import Nixnas.Tui.FlashRun

/-!
# What each phase of a flash run can change

The backup does not touch the devices, the overwrite and the grow do not touch
the files, and the check touches neither; with the rules of the copy loop.
-/

set_option autoImplicit false

namespace Nixnas.Tui.Flash

open Nixnas.Logic Nixnas.Logic.Action
open Nixnas.Rust
open Nixnas.Tui.Sudo

/-! ## Parts of the world -/

abbrev FlashWorld := World FlashEvent

/-- The devices, and what the writer has done to them. -/
def disk (w : FlashWorld) : (String → Bytes) × Bytes × Bytes × Bool :=
  (w.devices, w.original, w.accepted, w.wrote)

/-- The files, and what the reader of the backup has delivered. -/
def saved (w : FlashWorld) : (String → Option Bytes) × (String → Bool) × Bytes × Bool :=
  (w.files, w.synced, w.delivered, w.ended)

/-- No event changes the part. -/
def Silent {Part : Type} (part : FlashWorld → Part) : Prop :=
  ∀ w events, part { w with events := events } = part w

theorem disk_silent : Silent disk := fun _ _ => rfl

theorem saved_silent : Silent saved := fun _ _ => rfl

section Frames

variable {Part : Type} {part : FlashWorld → Part}

theorem send_preserves (silent : Silent part) (event : FlashEvent) :
    Preserves part (send event) :=
  Preserves.modify fun w => silent w _

theorem copyWithProgress_preserves (silent : Silent part)
    {read : DevReader → Nat → Io FlashWorld (Bytes × DevReader)} {write : Bytes → Io FlashWorld Nat}
    (reads : ∀ src size, Preserves part (read src size))
    (writes : ∀ buf, Preserves part (write buf)) (src : DevReader) (total : Nat) :
    Preserves part (copyWithProgress read write src total) := by
  apply Preserves.loop
  rintro ⟨src, done⟩
  apply Preserves.bind (Preserves.mapError (reads src chunkSize))
  rintro ⟨chunk, next⟩
  apply Preserves.ite (Preserves.pure _)
  apply Preserves.bind (Preserves.mapError (writeAll_preserves writes chunk))
  intro _
  exact Preserves.bind (send_preserves silent _) fun _ => Preserves.pure _

end Frames

section Phases

variable (env : Env) (job : FlashJob)

theorem createFile_disk (path : String) : Preserves disk (createFile env path) := by
  apply call_preserves fun _ => rfl
  intro reply w
  cases reply.error <;> rfl

theorem writeFile_disk (path : String) (buf : Bytes) : Preserves disk (writeFile env path buf) := by
  apply call_preserves fun _ => rfl
  intro reply w
  cases reply.error <;> rfl

theorem syncFile_disk (path : String) : Preserves disk (syncFile env path) := by
  apply call_preserves fun _ => rfl
  intro reply w
  cases reply.error <;> rfl

theorem readRecorded_disk (src : DevReader) (size : Nat) :
    Preserves disk (readRecorded env src size) := by
  apply Preserves.bind ((src.read_still env size).comp disk)
  rintro ⟨chunk, next⟩
  exact Preserves.bind (Preserves.modify fun _ => rfl) fun _ => Preserves.pure _

theorem openBackup_disk (dest : String) : Preserves disk (openBackup env job dest) := by
  apply Preserves.bind (send_preserves disk_silent _)
  intro _
  apply Preserves.bind (Preserves.mapError ((openReader_still env _ _).comp disk))
  intro src
  apply Preserves.bind (Preserves.mapError (createFile_disk env dest))
  exact fun _ => Preserves.pure _

theorem backup_disk (dest : String) : Preserves disk (backup env job dest) := by
  apply Preserves.bind (openBackup_disk env job dest)
  intro src
  apply Preserves.bind
  · apply Preserves.mapError
    exact copyWithProgress_preserves disk_silent (readRecorded_disk env) (writeFile_disk env dest) _ _
  · exact fun _ => Preserves.mapError (syncFile_disk env dest)

theorem backupPhase_disk : Preserves disk (backupPhase env job) := by
  unfold backupPhase
  cases job.backupTo with
  | none => exact Preserves.pure _
  | some dest => exact backup_disk env job dest

/-- The operations of a writer do not touch the files. -/
theorem openWriter_saved (elev : Elevation) (dev : String) :
    Preserves saved (openWriter env elev dev : Step FlashEvent DevWriter) := by
  have begins : Preserves saved (beginWrite env dev : Io FlashWorld Unit) := by
    apply call_preserves fun _ => rfl
    intro reply w
    cases reply.error <;> rfl
  cases elev with
  | root | «sudo» _ => exact Preserves.bind (Preserves.mapError begins) fun _ => Preserves.pure _

theorem write_saved (sink : DevWriter) (buf : Bytes) :
    Preserves saved (sink.write env buf : Io FlashWorld Nat) := by
  apply call_preserves fun _ => rfl
  intro reply w
  cases reply.error <;> rfl

theorem endWrite_saved {α : Type} (dev : String) (answer : Reply → α) :
    Preserves saved (endWrite env dev answer : Io FlashWorld α) := by
  apply call_preserves fun _ => rfl
  intro reply w
  cases reply.error <;> rfl

theorem finish_saved (sink : DevWriter) :
    Preserves saved (sink.finish env : Step FlashEvent Unit) := by
  cases sink with
  | file dev => exact Preserves.mapError (endWrite_saved env dev _)
  | «sudo» dev =>
      apply Preserves.bind (Preserves.mapError (endWrite_saved env dev _))
      exact fun _ => Preserves.ite (Preserves.pure _) (Preserves.fail _)

theorem overwrite_saved (sink : DevWriter) (src : DevReader) (total : Nat) :
    Preserves saved (overwrite env sink src total) := by
  apply Preserves.bind
  · apply Preserves.attempt
    exact copyWithProgress_preserves saved_silent
      (fun src size => (src.read_still env size).comp saved) (write_saved env sink) _ _
  · intro copied
    cases copied with
    | ok _ => exact Preserves.mapError (finish_saved env sink)
    | error e =>
        apply Preserves.bind _ fun _ => Preserves.fail _
        exact call_preserves (fun _ => rfl) fun _ _ => rfl

theorem writePhase_saved : Preserves saved (writePhase env job) := by
  apply Preserves.bind (send_preserves saved_silent _)
  intro _
  apply Preserves.bind (Preserves.mapError ((ask_still env _).comp saved))
  intro imageSize
  apply Preserves.bind (Preserves.mapError ((ask_still env _).comp saved))
  intro _
  apply Preserves.bind (Preserves.mapError (openWriter_saved env _ _))
  exact fun sink => overwrite_saved env sink _ _

/-! ### The check -/

theorem quiet_silent : Silent World.quiet := fun _ _ => rfl

theorem readPrefix_still (reader : DevReader) (len : Nat) :
    Preserves World.still (readPrefix env reader len) := by
  apply Preserves.loop
  rintro ⟨reader, got⟩
  apply Preserves.ite (Preserves.pure _)
  apply Preserves.bind (Preserves.mapError (reader.read_still env _))
  rintro ⟨chunk, next⟩
  exact Preserves.ite (Preserves.pure _) (Preserves.pure _)

theorem samePrefix_still (len : Nat) : Preserves World.still (samePrefix env job len) := by
  apply Preserves.bind (Preserves.mapError (ask_still env _))
  intro _
  apply Preserves.bind (readPrefix_still env _ len)
  intro pa
  apply Preserves.bind (Preserves.mapError (openReader_still env _ _))
  intro device
  exact Preserves.bind (readPrefix_still env _ len) fun _ => Preserves.pure _

theorem verifyPhase_quiet : Preserves World.quiet (verifyPhase env job) := by
  have checks : Preserves World.quiet (samePrefix env job verifyPrefixLen) :=
    (samePrefix_still env job _).comp fun w => ({ w with events := [] } : FlashWorld)
  apply Preserves.bind (send_preserves quiet_silent _)
  intro _
  apply Preserves.bind (Preserves.mapError checks)
  exact fun _ => Preserves.ite (Preserves.pure _) (Preserves.fail _)

end Phases

/-! ### The grow -/

/-- The part sees neither the clock nor the devices. -/
def Lasting {Part : Type} (part : FlashWorld → Part) : Prop :=
  ∀ w clock devices, part { w with clock := clock, devices := devices } = part w

section Grow

variable {Part : Type} {part : FlashWorld → Part} (env : Env)

theorem runCaptured_preserves (lasting : Lasting part) (argv : List String)
    {command : Reply → FlashWorld → Output × FlashWorld}
    (keeps : ∀ reply w, part (command reply w).2 = part w) :
    Preserves part (runCaptured env argv command) := by
  have ticks : ∀ w : FlashWorld, part { w with clock := w.clock + 1 } = part w :=
    fun w => lasting w _ w.devices
  apply Preserves.bind
  · apply Preserves.mapError
    apply call_preserves ticks
    intro reply w
    cases reply.error <;> rfl
  · intro _
    apply Preserves.mapError
    apply call_preserves ticks
    intro reply w
    have same := keeps reply w
    cases reply.error <;> exact same

theorem readOnly_preserves (lasting : Lasting part) (argv : List String) :
    Preserves part (runCaptured env argv readOnly : Step FlashEvent Output) :=
  runCaptured_preserves env lasting argv fun _ _ => rfl

theorem touching_preserves (lasting : Lasting part) (argv : List String) (dev : String) :
    Preserves part (runCaptured env argv (touching dev) : Step FlashEvent Output) :=
  runCaptured_preserves env lasting argv fun _ w => lasting w w.clock _

theorem runSgdisk_preserves (lasting : Lasting part) (dev : String) (args : List String) :
    Preserves part (runSgdisk env dev args) := by
  apply Preserves.bind (Preserves.mapError (touching_preserves env lasting _ dev))
  exact fun _ => Preserves.ite (Preserves.pure _) (Preserves.fail _)

theorem growLastPartition_preserves (lasting : Lasting part) (dev : String) :
    Preserves part (growLastPartition env dev) := by
  have number : Preserves part (lastPartitionNumber env dev) := by
    apply Preserves.bind (Preserves.mapError (readOnly_preserves env lasting _))
    intro out
    apply Preserves.ite (Preserves.fail _)
    cases (partitionNumbers out.stdout).max? with
    | none => exact Preserves.fail _
    | some n => exact Preserves.pure _
  have info : ∀ n, Preserves part (partitionInfo env dev n) := by
    intro n
    apply Preserves.bind (Preserves.mapError (readOnly_preserves env lasting _))
    intro out
    apply Preserves.ite (Preserves.fail _)
    cases parseInfo out.stdout with
    | error e => exact Preserves.fail _
    | ok info => exact Preserves.pure _
  apply Preserves.bind number
  intro n
  apply Preserves.bind (info n)
  intro _
  apply Preserves.bind (runSgdisk_preserves env lasting dev _)
  intro _
  exact Preserves.bind (runSgdisk_preserves env lasting dev _) fun _ => Preserves.pure _

theorem pathExists_preserves (lasting : Lasting part) : Preserves part (pathExists env) :=
  call_preserves (fun w => lasting w _ w.devices) fun _ _ => rfl

theorem awaitNode_preserves (lasting : Lasting part) (tries : Nat) :
    Preserves part (awaitNode env tries) := by
  induction tries with
  | zero => exact Preserves.pure _
  | succ tries ih =>
      apply Preserves.bind (pathExists_preserves env lasting)
      exact fun _ => Preserves.ite (Preserves.pure _) ih

theorem awaitSize_preserves (lasting : Lasting part) (name : String) (tries : Nat) :
    ∀ last, Preserves part (awaitSize env name last tries) := by
  induction tries with
  | zero => exact fun _ => Preserves.pure _
  | succ tries ih =>
      intro last
      have sampled : Preserves part (partSize env name) := by
        apply Preserves.bind (Preserves.attempt (readOnly_preserves env lasting _))
        intro answer
        cases answer <;> exact Preserves.pure _
      apply Preserves.bind sampled
      exact fun size => Preserves.ite (Preserves.pure _) (ih size)

theorem growF2fsInLuks_preserves (lasting : Lasting part) (dev : String) (partNum : Nat)
    (secret : String) : Preserves part (growF2fsInLuks env dev partNum secret) := by
  have ticks : ∀ w : FlashWorld, part { w with clock := w.clock + 1 } = part w :=
    fun w => lasting w _ w.devices
  have asked : Preserves part (ask env fun _ => ()) := by
    apply call_preserves ticks
    intro reply w
    cases reply.error <;> rfl
  have opened : ∀ argv input, Preserves part
      (runWithInput env argv input (touching dev) : Step FlashEvent Output) := by
    intro argv input
    apply Preserves.bind (Preserves.mapError asked)
    intro _
    apply Preserves.bind (Preserves.mapError asked)
    intro _
    apply Preserves.mapError
    apply call_preserves ticks
    intro reply w
    have same := lasting w w.clock ((touching dev reply w).2.devices)
    cases reply.error <;> exact same
  apply Preserves.bind (Preserves.attempt (readOnly_preserves env lasting _))
  intro _
  apply Preserves.bind (awaitNode_preserves env lasting _)
  intro _
  apply Preserves.bind (pathExists_preserves env lasting)
  intro present
  apply Preserves.ite (Preserves.fail _)
  apply Preserves.bind (awaitSize_preserves env lasting _ _ _)
  intro _
  apply Preserves.bind (Preserves.mapError (opened _ _))
  intro out
  apply Preserves.ite (Preserves.fail _)
  apply Preserves.bind
    (Preserves.attempt (Preserves.mapError (touching_preserves env lasting _ dev)))
  intro resize
  apply Preserves.bind (Preserves.attempt (touching_preserves env lasting _ dev))
  intro close
  apply Preserves.bind (Preserves.attempt (touching_preserves env lasting _ dev))
  intro _
  cases resize with
  | error e => exact Preserves.fail _
  | ok resizeOut =>
      apply Preserves.ite (Preserves.fail _)
      cases close with
      | error e => exact Preserves.fail _
      | ok closeOut => exact Preserves.ite (Preserves.pure _) (Preserves.fail _)

/-- What the tools of the grow cannot reach. -/
def kept (w : FlashWorld) : FlashWorld := { w.quiet with devices := fun _ => [] }

theorem kept_silent : Silent kept := fun _ _ => rfl

theorem kept_lasting : Lasting kept := fun _ _ _ => rfl

theorem growPhase_kept (job : FlashJob) : Preserves kept (growPhase env job) := by
  apply Preserves.bind (send_preserves kept_silent _)
  intro _
  apply Preserves.bind (Preserves.attempt (growLastPartition_preserves env kept_lasting _))
  intro grown
  cases grown with
  | error e => exact Preserves.pure _
  | ok partNum =>
      dsimp only
      cases job.storePass with
      | none => exact Preserves.pure _
      | some secret =>
          apply Preserves.bind (send_preserves kept_silent _)
          intro _
          apply Preserves.bind (Preserves.attempt (growF2fsInLuks_preserves env kept_lasting _ _ _))
          intro done
          cases done <;> exact Preserves.pure _

end Grow

/-! ## The copy loop -/

/-- The rule of the copy loop: `idle` between two reads, `holding` while a chunk
is written. -/
theorem copyWithProgress_spec
    {read : DevReader → Nat → Io FlashWorld (Bytes × DevReader)} {write : Bytes → Io FlashWorld Nat}
    {post : Post FlashWorld String Unit} (idle : DevReader → FlashWorld → Prop)
    (holding : DevReader → Bytes → FlashWorld → Prop)
    (reads : ∀ src, Spec (idle src) (read src chunkSize)
      ⟨fun result w => if result.1 = [] then post.ok () w else holding result.2 result.1 w,
        fun e w => post.error ("reading source: " ++ e.text) w, post.stopped⟩)
    (writes : ∀ next chunk, Spec (holding next chunk) (writeAll write chunk)
      ⟨fun _ => idle next, fun e w => post.error ("writing destination: " ++ e.text) w, post.stopped⟩)
    (silent : ∀ src w events, idle src w → idle src { w with events := events })
    (stopped : ∀ src w, idle src w → post.stopped w) (src : DevReader) (total : Nat) :
    Spec (idle src) (copyWithProgress read write src total) post := by
  have stops : ∀ (state : DevReader × Nat) w, idle state.1 w → post.stopped w :=
    fun state w holds => stopped state.1 w holds
  refine Spec.loop (fun state : DevReader × Nat => idle state.1) stops ?_ (src, 0)
  intro state
  obtain ⟨src, done⟩ := state
  apply Spec.bind fun result w => if result.1 = [] then post.ok () w else holding result.2 result.1 w
  · exact Spec.mapError (reads src)
  · intro result
    obtain ⟨chunk, next⟩ := result
    cases chunk with
    | nil => exact Spec.pure fun w holds => holds
    | cons b rest =>
        apply Spec.bind fun _ => idle next
        · exact Spec.mapError (writes next (b :: rest))
        · intro _
          apply Spec.bind fun _ => idle next
          · exact Spec.modify fun w holds => silent next w _ holds
          · exact fun _ => Spec.pure fun _ holds => holds

/-- A fact that the reads, the writes and the events keep. -/
theorem copyWithProgress_always
    {read : DevReader → Nat → Io FlashWorld (Bytes × DevReader)} {write : Bytes → Io FlashWorld Nat}
    {fact : FlashWorld → Prop} (reads : ∀ src, Spec fact (read src chunkSize) (.always fact))
    (writes : ∀ buf, Spec fact (write buf) (.always fact))
    (silent : ∀ w events, fact w → fact { w with events := events }) (src : DevReader)
    (total : Nat) : Spec fact (copyWithProgress read write src total) (.always fact) := by
  refine copyWithProgress_spec (fun _ => fact) (fun _ _ => fact) ?_ ?_ (fun _ => silent)
    (fun _ _ holds => holds) src total
  · intro src
    refine (reads src).weaken (fun _ holds => holds) ?_ (fun _ _ holds => holds) fun _ holds => holds
    intro result w holds
    dsimp only
    split <;> exact holds
  · intro next chunk
    exact writeAll_spec (fun _ => fact) (fun rest _ => writes rest) (fun _ holds => holds)
      (fun _ _ _ holds => holds) (fun _ _ holds => holds) chunk

end Nixnas.Tui.Flash
