import Nixnas.Tui.FlashFrame

/-!
# What a flash run guarantees

Nothing is written to the device before the backup, if there is one, is
complete and synced; a run that fails before it writes leaves the device alone;
and a run that returns has found the image at the start of the device.
-/

set_option autoImplicit false

namespace Nixnas.Tui.Flash

open Nixnas.Logic Nixnas.Logic.Action
open Nixnas.Rust
open Nixnas.Tui.Sudo

/-! ## The backup -/

/-- The file holds everything the reader of the device delivered, up to its end,
and is on disk. -/
structure BackedUp (dest : String) (w : FlashWorld) : Prop where
  content : w.files dest = some w.delivered
  ended : w.ended = true
  synced : w.synced dest = true

section Backup

variable (env : Env) (job : FlashJob) (dest : String) {content : Bytes}

/-- What is delivered is the start of the device, and is in the file but for the
rest of the chunk at hand. -/
structure Recording (content : Bytes) (src : DevReader) (rest : Bytes) (w : FlashWorld) :
    Prop where
  node : src.node = .device job.dev
  sound : src.Sound content
  exact : env.Honest → src.Exact env content
  device : w.devices job.dev = content
  file : ∃ held, w.files dest = some held ∧ w.delivered = held ++ rest
  sofar : w.delivered <+: content
  pos : w.delivered.length = src.pos

/-- The backup is complete; honest tools make it the whole device. -/
structure Complete (content : Bytes) (w : FlashWorld) : Prop where
  backedUp : BackedUp dest w
  whole : env.Honest → w.delivered = content

variable {env job dest}

theorem readRecorded_spec (src : DevReader) :
    Spec (Recording env job dest content src []) (readRecorded env src chunkSize)
      (.onReturn
        (fun result w => if result.1 = [] then
            (∃ held, w.files dest = some held ∧ w.delivered = held) ∧ w.ended = true ∧
              (env.Honest → w.delivered = content)
          else Recording env job dest content result.2 result.1 w)
        fun _ _ => True) := by
  intro w fuel recording
  have met := DevReader.read_keeping env recording.sound chunkSize
    (fun next : FlashWorld => next.files = w.files ∧ next.delivered = w.delivered) w fuel
    ⟨by rw [recording.node]; exact recording.device, rfl, rfl⟩
  change Post.Met _ (Action.bind (src.read env chunkSize) _ w fuel)
  unfold Action.bind
  cases outcome : src.read env chunkSize w fuel with
  | error e next left => exact trivial
  | stopped next => exact trivial
  | ok result next left =>
      rw [outcome] at met
      obtain ⟨delivers, device, files, delivered⟩ := met
      change next.files = w.files at files
      change next.delivered = w.delivered at delivered
      obtain ⟨held, file, was⟩ := recording.file
      rw [List.append_nil] at was
      have bytes := delivers.bytes
      rw [← recording.pos] at bytes
      obtain ⟨chunk, after⟩ := result
      cases chunk with
      | nil =>
          refine ⟨⟨held, ?_, ?_⟩, rfl, fun honest => ?_⟩
          · exact (congrFun files dest).trans file
          · change next.delivered ++ [] = held
            rw [List.append_nil, delivered, was]
          · have ended := delivers.ended (recording.exact honest) (by decide) rfl
            rw [← recording.pos] at ended
            change next.delivered ++ [] = content
            rw [List.append_nil, delivered]
            exact eq_of_prefix_of_drop recording.sofar ended
      | cons b rest =>
          refine ⟨delivers.node.trans recording.node, delivers.sound,
            fun honest => delivers.exact (recording.exact honest), ?_, ⟨held, ?_, ?_⟩, ?_, ?_⟩
          · rw [recording.node] at device
            exact device
          · exact (congrFun files dest).trans file
          · change next.delivered ++ b :: rest = held ++ b :: rest
            rw [delivered, was]
          · change next.delivered ++ b :: rest <+: content
            rw [delivered]
            exact prefix_append_of_prefix_drop recording.sofar bytes
          · change (next.delivered ++ b :: rest).length = after.pos
            rw [delivered, List.length_append, recording.pos]
            exact delivers.pos.symm

theorem writeFile_spec (src : DevReader) (rest : Bytes) :
    Spec (Recording env job dest content src rest) (writeFile env dest rest)
      ⟨fun n => Recording env job dest content src (rest.drop n),
        fun _ => Recording env job dest content src rest, fun _ => True⟩ := by
  refine call_spec (fun _ _ => trivial) ?_
  intro w recording
  obtain ⟨node, sound, exact, device, ⟨held, file, delivered⟩, sofar, pos⟩ := recording
  cases (env.reply w.clock).error with
  | some e => exact ⟨node, sound, exact, device, ⟨held, file, delivered⟩, sofar, pos⟩
  | none =>
      refine ⟨node, sound, exact, device,
        ⟨held ++ rest.take (min (env.reply w.clock).count rest.length), ?_, ?_⟩, sofar, pos⟩
      · simp [file]
      · rw [List.append_assoc, List.take_append_drop]
        exact delivered

theorem copy_recorded (src : DevReader) (total : Nat) :
    Spec (Recording env job dest content src [])
      (copyWithProgress (readRecorded env) (writeFile env dest) src total)
      (.onReturn
        (fun _ w => (∃ held, w.files dest = some held ∧ w.delivered = held) ∧ w.ended = true ∧
          (env.Honest → w.delivered = content))
        fun _ _ => True) := by
  refine copyWithProgress_spec (fun src => Recording env job dest content src [])
    (fun next chunk => Recording env job dest content next chunk) readRecorded_spec ?_ ?_
    (fun _ _ _ => trivial) src total
  · intro next chunk
    exact writeAll_spec (fun rest => Recording env job dest content next rest)
      (fun rest _ => writeFile_spec next rest) (fun _ holds => holds) (fun _ _ _ _ => trivial)
      (fun _ _ _ => trivial) chunk
  · intro src w events recording
    exact ⟨recording.node, recording.sound, recording.exact, recording.device, recording.file,
      recording.sofar, recording.pos⟩

theorem openBackup_spec :
    Spec (fun w => w.devices job.dev = content ∧ w.delivered = []) (openBackup env job dest)
      (.onReturn (fun src => Recording env job dest content src []) fun _ _ => True) := by
  apply Spec.bind fun _ w => w.devices job.dev = content ∧ w.delivered = []
  · exact Spec.modify fun _ holds => holds
  intro _
  have unread : Preserves World.delivered
      (openReader env job.elev (.device job.dev) : Step FlashEvent DevReader) :=
    (openReader_still env _ _).comp World.delivered
  have opened : Spec (fun w : FlashWorld => w.devices job.dev = content ∧ w.delivered = [])
      (openReader env job.elev (.device job.dev))
      (.onReturn
        (fun src w => (src.node = .device job.dev ∧ src.Sound content ∧ src.pos = 0 ∧
          (env.Honest → src.Exact env content)) ∧ w.devices job.dev = content ∧ w.delivered = [])
        fun _ _ => True) := by
    refine ((openReader_spec job.elev (.device job.dev)).and (unread.returns [])).imp ?_
    intro src w holds
    obtain ⟨⟨fresh, device⟩, nothing⟩ := holds
    exact ⟨fresh, device, nothing⟩
  refine Spec.bind _ (Spec.mapError opened) ?_
  intro src
  apply Spec.bind fun _ => Recording env job dest content src []
  · apply Spec.mapError
    refine call_spec (fun _ _ => trivial) ?_
    intro w holds
    obtain ⟨⟨node, sound, start, exact⟩, device, nothing⟩ := holds
    cases (env.reply w.clock).error with
    | some e => exact trivial
    | none =>
        refine ⟨node, sound, exact, device, ⟨[], World.setFile_self _ _ _ _, nothing⟩, ?_, ?_⟩
        · change w.delivered <+: content
          rw [nothing]
          exact List.nil_prefix
        · change w.delivered.length = src.pos
          rw [nothing, start]
          rfl
  · exact fun _ => Spec.pure fun _ holds => holds

theorem syncFile_spec :
    Spec
      (fun w => (∃ held, w.files dest = some held ∧ w.delivered = held) ∧ w.ended = true ∧
        (env.Honest → w.delivered = content))
      (syncFile env dest)
      (.onReturn (fun _ => Complete env dest content) fun _ _ => True) := by
  refine call_spec (fun _ _ => trivial) ?_
  intro w holds
  obtain ⟨⟨held, files, delivered⟩, ended, whole⟩ := holds
  cases (env.reply w.clock).error with
  | some e => exact trivial
  | none =>
      refine ⟨⟨?_, ended, if_pos rfl⟩, whole⟩
      change w.files dest = some w.delivered
      rw [delivered, files]

theorem backup_spec :
    Spec (fun w => w.devices job.dev = content ∧ w.delivered = []) (backup env job dest)
      (.onReturn (fun _ => Complete env dest content) fun _ _ => True) := by
  refine Spec.bind _ openBackup_spec ?_
  intro src
  refine Spec.bind _ (Spec.mapError (copy_recorded src _)) ?_
  exact fun _ => Spec.mapError syncFile_spec

end Backup

/-! ## The overwrite -/

/-- As long as no writer was given anything, the devices hold what they held. -/
def Untouched (devices : String → Bytes) (w : FlashWorld) : Prop :=
  w.wrote = false → w.devices = devices

theorem Untouched.of_disk {α Error : Type} {devices : String → Bytes}
    {action : Action FlashWorld Error α} (keeps : Preserves disk action) :
    Spec (Untouched devices) action (.always (Untouched devices)) := by
  intro w fuel untouched
  have same := keeps w fuel
  have carried : ∀ next : FlashWorld, disk next = disk w → Untouched devices next := by
    intro next kept wrote
    simp only [disk, Prod.mk.injEq] at kept
    rw [kept.1]
    exact untouched (kept.2.2.2 ▸ wrote)
  cases outcome : action w fuel with
  | ok _ next _ | error _ next _ | stopped next =>
      rw [outcome] at same
      exact carried next same

section Overwrite

variable (env : Env) (job : FlashJob) (devices : String → Bytes)

/-- Whatever was given to the writer, it has been written to from then on. -/
theorem write_untouched (sink : DevWriter) (buf : Bytes) :
    Spec (Untouched devices) (sink.write env buf : Io FlashWorld Nat)
      (.always (Untouched devices)) := by
  refine call_spec (fun _ holds => holds) ?_
  intro w _
  cases (env.reply w.clock).error with
  | some e | none =>
      intro wrote
      cases wrote

theorem finish_untouched (sink : DevWriter) :
    Spec (Untouched devices) (sink.finish env : Step FlashEvent Unit)
      ⟨fun _ w => w.wrote = true, fun _ => Untouched devices, Untouched devices⟩ := by
  have ends : ∀ {α : Type} (dev : String) (answer : Reply → α), Spec (Untouched devices)
      (endWrite env dev answer : Io FlashWorld α)
      ⟨fun _ w => w.wrote = true, fun _ => Untouched devices, Untouched devices⟩ := by
    intro α dev answer
    refine call_spec (fun _ holds => holds) ?_
    intro w _
    cases (env.reply w.clock).error with
    | some e =>
        intro wrote
        cases wrote
    | none => rfl
  cases sink with
  | file dev => exact Spec.mapError (ends dev _)
  | «sudo» dev =>
      apply Spec.bind fun _ w => w.wrote = true
      · exact Spec.mapError (ends dev _)
      · intro success
        cases success with
        | true => exact Spec.pure fun _ wrote => wrote
        | false =>
            apply Spec.fail
            intro w wrote clean
            cases wrote.symm.trans clean

theorem overwrite_untouched (sink : DevWriter) (src : DevReader) (total : Nat) :
    Spec (Untouched devices) (overwrite env sink src total)
      ⟨fun _ w => w.wrote = true, fun _ => Untouched devices, Untouched devices⟩ := by
  apply Spec.bind fun _ => Untouched devices
  · apply Spec.attempt
    exact copyWithProgress_always
      (fun src => Untouched.of_disk ((src.read_still env chunkSize).comp disk))
      (write_untouched env devices sink) (fun _ _ holds => holds) src total
  · intro copied
    cases copied with
    | ok _ => exact Spec.mapError (finish_untouched env devices sink)
    | error e =>
        apply Spec.bind fun _ => Untouched devices
        · refine call_spec (fun _ holds => holds) ?_
          intro w _ wrote
          cases wrote
        · exact fun _ => Spec.fail fun _ holds => holds

theorem openWriter_untouched (elev : Elevation) (dev : String) :
    Spec (Untouched devices) (openWriter env elev dev : Step FlashEvent DevWriter)
      (.always (Untouched devices)) := by
  have begins : Spec (Untouched devices) (beginWrite env dev : Io FlashWorld Unit)
      (.always (Untouched devices)) := by
    refine call_spec (fun _ holds => holds) ?_
    intro w untouched
    cases (env.reply w.clock).error <;> exact untouched
  cases elev with
  | root | «sudo» _ =>
      apply Spec.bind fun _ => Untouched devices
      · exact Spec.mapError begins
      · exact fun _ => Spec.pure fun _ holds => holds

theorem writePhase_untouched :
    Spec (Untouched devices) (writePhase env job)
      ⟨fun _ w => w.wrote = true, fun _ => Untouched devices, Untouched devices⟩ := by
  have asked : ∀ {α : Type} (what : String) (answer : Reply → α), Spec (Untouched devices)
      (ioContext what (ask env answer) : Step FlashEvent α) (.always (Untouched devices)) :=
    fun what answer => Untouched.of_disk (Preserves.mapError ((ask_still env answer).comp disk))
  apply Spec.bind fun _ => Untouched devices
  · exact Untouched.of_disk (send_preserves disk_silent _)
  intro _
  apply Spec.bind fun _ => Untouched devices
  · exact asked _ _
  intro imageSize
  apply Spec.bind fun _ => Untouched devices
  · exact asked _ _
  intro _
  apply Spec.bind fun _ => Untouched devices
  · exact Spec.mapError (openWriter_untouched env devices _ _)
  exact fun sink => overwrite_untouched env devices sink _ _

end Overwrite

/-! ## What the device holds -/

/-- When a writer reports its end. -/
def Finishes : Elevation → Reply → Prop
  | .root, reply => reply.error = none
  | .sudo _, reply => reply.error = none ∧ reply.output.success = true

/-- A writer that reports its end has put what it accepted, in order, over what
the device held. -/
def InOrder (env : Env) (elev : Elevation) : Prop :=
  ∀ n original accepted current, Finishes elev (env.reply n) →
    (env.reply n).settle original accepted current = accepted ++ original.drop accepted.length

section Content

variable (env : Env) (job : FlashJob) {elev : Elevation} {dev : String} {old image : Bytes}

/-- The writer has accepted what the reader delivered, but for the rest of the
chunk at hand. -/
structure Filling (path : String) (old : Bytes) (src : DevReader) (rest : Bytes)
    (w : FlashWorld) : Prop where
  node : src.node = .image path
  sound : src.Sound (env.image path)
  exact : src.Exact env (env.image path)
  original : w.original = old
  sofar : w.accepted ++ rest <+: env.image path
  pos : (w.accepted ++ rest).length = src.pos

variable {env} {path : String}

theorem read_filling (src : DevReader) :
    Spec (Filling env path old src []) (src.read env chunkSize)
      (.onReturn
        (fun result w => if result.1 = [] then w.original = old ∧ w.accepted = env.image path
          else Filling env path old result.2 result.1 w)
        fun _ _ => True) := by
  intro w fuel filling
  have content : w.content env src.node = env.image path := by
    rw [filling.node]
    rfl
  have met := DevReader.read_keeping env filling.sound chunkSize
    (fun next : FlashWorld => next.original = w.original ∧ next.accepted = w.accepted) w fuel
    ⟨content, rfl, rfl⟩
  cases outcome : src.read env chunkSize w fuel with
  | error e next left => exact trivial
  | stopped next => exact trivial
  | ok result next left =>
      rw [outcome] at met
      obtain ⟨delivers, -, same⟩ := met
      change next.original = w.original ∧ next.accepted = w.accepted at same
      have sofar := filling.sofar
      have pos := filling.pos
      rw [List.append_nil] at sofar pos
      change if result.1 = [] then _ else _
      by_cases empty : result.1 = []
      · rw [if_pos empty]
        have ended := delivers.ended filling.exact (by decide) empty
        rw [← pos] at ended
        exact ⟨same.1.trans filling.original, same.2.trans (eq_of_prefix_of_drop sofar ended)⟩
      · rw [if_neg empty]
        have bytes := delivers.bytes
        rw [← pos] at bytes
        refine ⟨delivers.node.trans filling.node, delivers.sound, delivers.exact filling.exact,
          same.1.trans filling.original, ?_, ?_⟩
        · rw [same.2]
          exact prefix_append_of_prefix_drop sofar bytes
        · rw [same.2, List.length_append, pos]
          exact delivers.pos.symm

theorem write_filling (sink : DevWriter) (src : DevReader) (rest : Bytes) :
    Spec (Filling env path old src rest) (sink.write env rest : Io FlashWorld Nat)
      ⟨fun n => Filling env path old src (rest.drop n), fun _ => Filling env path old src rest,
        fun _ => True⟩ := by
  refine call_spec (fun _ _ => trivial) ?_
  intro w filling
  obtain ⟨node, sound, exact, original, sofar, pos⟩ := filling
  cases (env.reply w.clock).error with
  | some e =>
      have accepted : (w.deliver sink.dev (env.reply w.clock) []).accepted = w.accepted :=
        List.append_nil _
      refine ⟨node, sound, exact, original, ?_, ?_⟩
      · change (w.accepted ++ []) ++ rest <+: _
        rw [List.append_nil]
        exact sofar
      · change ((w.accepted ++ []) ++ rest).length = _
        rw [List.append_nil]
        exact pos
  | none =>
      refine ⟨node, sound, exact, original, ?_, ?_⟩
      · change (w.accepted ++ rest.take _) ++ rest.drop _ <+: _
        rw [List.append_assoc, List.take_append_drop]
        exact sofar
      · change ((w.accepted ++ rest.take _) ++ rest.drop _).length = _
        rw [List.append_assoc, List.take_append_drop]
        exact pos

theorem copy_filling (sink : DevWriter) (src : DevReader) (total : Nat) :
    Spec (Filling env path old src [])
      (copyWithProgress (DevReader.read env) (sink.write env) src total)
      (.onReturn (fun _ w => w.original = old ∧ w.accepted = env.image path) fun _ _ => True) := by
  refine copyWithProgress_spec (fun src => Filling env path old src [])
    (fun next chunk => Filling env path old next chunk) read_filling ?_ ?_ (fun _ _ _ => trivial)
    src total
  · intro next chunk
    exact writeAll_spec (fun rest => Filling env path old next rest)
      (fun rest _ => write_filling sink next rest) (fun _ holds => holds) (fun _ _ _ _ => trivial)
      (fun _ _ _ => trivial) chunk
  · intro src w events filling
    exact ⟨filling.node, filling.sound, filling.exact, filling.original, filling.sofar, filling.pos⟩

/-- The sink that `open_writer` returns. -/
def sinkOf : Elevation → String → DevWriter
  | .root, dev => .file dev
  | .sudo _, dev => .sudo dev

theorem openWriter_spec (elev : Elevation) (dev : String) :
    Spec (fun w => w.devices dev = old) (openWriter env elev dev : Step FlashEvent DevWriter)
      (.onReturn (fun sink w => sink = sinkOf elev dev ∧ w.original = old ∧ w.accepted = [])
        fun _ _ => True) := by
  have begins : Spec (fun w => w.devices dev = old) (beginWrite env dev : Io FlashWorld Unit)
      (.onReturn (fun _ w => w.original = old ∧ w.accepted = []) fun _ _ => True) := by
    refine call_spec (fun _ _ => trivial) ?_
    intro w (holds : w.devices dev = old)
    cases (env.reply w.clock).error with
    | some e => exact trivial
    | none => exact ⟨holds, rfl⟩
  cases elev with
  | root | «sudo» _ =>
      apply Spec.bind fun _ w => w.original = old ∧ w.accepted = []
      · exact Spec.mapError begins
      · exact fun _ => Spec.pure fun _ holds => ⟨rfl, holds⟩

theorem finish_spec (inOrder : InOrder env elev) :
    Spec (fun w => w.original = old ∧ w.accepted = image)
      ((sinkOf elev dev).finish env : Step FlashEvent Unit)
      (.onReturn (fun _ w => w.devices dev = image ++ old.drop image.length) fun _ _ => True) := by
  have ends : ∀ {α : Type} (answer : Reply → α), Spec (fun w => w.original = old ∧ w.accepted = image)
      (endWrite env dev answer : Io FlashWorld α)
      (.onReturn
        (fun value w => ∃ reply, reply.error = none ∧ value = answer reply ∧
          (Finishes elev reply → w.devices dev = image ++ old.drop image.length))
        fun _ _ => True) := by
    intro α answer
    refine call_spec (fun _ _ => trivial) ?_
    intro w holds
    obtain ⟨original, accepted⟩ := holds
    cases replied : (env.reply w.clock).error with
    | some e => exact trivial
    | none =>
        refine ⟨env.reply w.clock, replied, rfl, fun finishes => ?_⟩
        have settled := inOrder w.clock w.original w.accepted (w.devices dev) finishes
        rw [original, accepted] at settled
        simpa [World.settle, original, accepted] using settled
  cases elev with
  | root =>
      apply Spec.mapError
      refine (ends _).imp ?_
      intro _ w replied
      obtain ⟨reply, ok, -, settled⟩ := replied
      exact settled ok
  | «sudo» _ =>
      refine Spec.bind _ (Spec.mapError (ends _)) ?_
      intro success
      cases success with
      | false => exact Spec.fail fun _ _ => trivial
      | true =>
          apply Spec.pure
          intro w replied
          obtain ⟨reply, ok, success, settled⟩ := replied
          exact settled ⟨ok, success.symm⟩

theorem overwrite_spec (inOrder : InOrder env elev) (total : Nat) :
    Spec (fun w => w.original = old ∧ w.accepted = [])
      (overwrite env (sinkOf elev dev) (.file (.image path) 0) total)
      (.onReturn
        (fun _ w => w.devices dev = env.image path ++ old.drop (env.image path).length)
        fun _ _ => True) := by
  apply Spec.bind fun
    | .ok _ => fun w => w.original = old ∧ w.accepted = env.image path
    | .error _ => fun _ => True
  · apply Spec.attempt
    refine (copy_filling (sinkOf elev dev) _ total).weaken ?_ (fun _ _ holds => holds)
      (fun _ _ _ => trivial) fun _ _ => trivial
    intro w holds
    obtain ⟨original, accepted⟩ := holds
    refine ⟨rfl, trivial, trivial, original, ?_, ?_⟩
    · rw [accepted]
      exact List.nil_prefix
    · rw [accepted]
      rfl
  · intro copied
    cases copied with
    | ok _ => exact Spec.mapError (finish_spec inOrder)
    | error e =>
        apply Spec.bind fun _ _ => True
        · exact call_spec (fun _ _ => trivial) fun _ _ => trivial
        · exact fun _ => Spec.fail fun _ _ => trivial

theorem writePhase_spec (inOrder : InOrder env job.elev) :
    Spec (fun w => w.devices job.dev = old) (writePhase env job)
      (.onReturn
        (fun _ w => w.devices job.dev =
          env.image job.image ++ old.drop (env.image job.image).length)
        fun _ _ => True) := by
  have asked : ∀ {α : Type} (what : String) (answer : Reply → α),
      Spec (fun w => w.devices job.dev = old) (ioContext what (ask env answer) : Step FlashEvent α)
        (.onReturn (fun _ w => w.devices job.dev = old) fun _ _ => True) := fun what answer =>
    (Preserves.mapError ((ask_still env answer).comp fun w : FlashWorld => w.devices job.dev)).returns old
  apply Spec.bind fun _ w => w.devices job.dev = old
  · exact Spec.modify fun _ holds => holds
  intro _
  apply Spec.bind fun _ w => w.devices job.dev = old
  · exact asked _ _
  intro imageSize
  apply Spec.bind fun _ w => w.devices job.dev = old
  · exact asked _ _
  intro _
  refine Spec.bind _ (Spec.mapError (openWriter_spec job.elev job.dev)) ?_
  intro sink
  refine Spec.assume fun same => ?_
  subst same
  exact overwrite_spec inOrder imageSize

end Content

/-! ## The check -/

section Check

variable (env : Env) (job : FlashJob) {content : Bytes}

/-- What has been read so far is the start of the node. -/
structure Reading (content : Bytes) (len : Nat) (node : Node) (reader : DevReader) (got : Bytes) :
    Prop where
  node : reader.node = node
  sound : reader.Sound content
  pos : reader.pos = got.length
  sofar : got <+: content
  bound : got.length ≤ len

/-- One turn reads on, or ends at the end of the node or of the buffer. -/
theorem prefixTurn_spec {reader : DevReader} (len : Nat) (src : DevReader) (got : Bytes)
    (reading : Reading content len reader.node src got)
    (exact : reader.Exact env content → src.Exact env content) :
    Spec (fun w => w.content env reader.node = content) (prefixTurn env len (src, got))
      (.onReturn
        (fun
          | .inl next => fun w => (Reading content len reader.node next.1 next.2 ∧
              (reader.Exact env content → next.1.Exact env content)) ∧
              w.content env reader.node = content
          | .inr got => fun _ => got <+: content ∧
              (reader.Exact env content → got = content.take len))
        fun _ _ => True) := by
  have pos : src.pos = got.length := reading.pos
  simp only [prefixTurn]
  by_cases full : len ≤ got.length
  · rw [if_pos full]
    apply Spec.pure
    intro w _
    refine ⟨reading.sofar, fun _ => ?_⟩
    have length : got.length = len := Nat.le_antisymm reading.bound full
    rw [← length]
    exact List.prefix_iff_eq_take.mp reading.sofar
  · rw [if_neg full]
    have reads := DevReader.read_keeping env reading.sound (len - got.length)
      fun _ : FlashWorld => True
    rw [reading.node] at reads
    refine Spec.bind _ (Spec.mapError (reads.weaken (fun _ holds => ⟨holds, trivial⟩)
      (fun _ _ holds => holds) (fun _ _ holds => holds) fun _ holds => holds)) ?_
    intro result
    obtain ⟨chunk, next⟩ := result
    cases chunk with
    | nil =>
        apply Spec.pure
        intro w delivered
        obtain ⟨delivers, -⟩ := delivered
        refine ⟨reading.sofar, fun whole => ?_⟩
        have ended := delivers.ended (exact whole) (by omega) rfl
        rw [pos] at ended
        rw [← eq_of_prefix_of_drop reading.sofar ended, List.take_of_length_le reading.bound]
    | cons b rest =>
        apply Spec.pure
        intro w delivered
        obtain ⟨delivers, held, -⟩ := delivered
        have bytes := delivers.bytes
        rw [pos] at bytes
        refine ⟨⟨⟨delivers.node.trans reading.node, delivers.sound, ?_,
          prefix_append_of_prefix_drop reading.sofar bytes, ?_⟩,
          fun whole => delivers.exact (exact whole)⟩, held⟩
        · rw [List.length_append, ← pos]
          exact delivers.pos
        · rw [List.length_append]
          have short := delivers.short
          omega

theorem readPrefix_spec {reader : DevReader} (sound : reader.Sound content) (start : reader.pos = 0)
    (len : Nat) :
    Spec (fun w => w.content env reader.node = content) (readPrefix env reader len)
      (.onReturn
        (fun got _ => got <+: content ∧ (reader.Exact env content → got = content.take len))
        fun _ _ => True) := by
  intro w fuel held
  refine Spec.loop
    (fun (state : DevReader × Bytes) w => (Reading content len reader.node state.1 state.2 ∧
      (reader.Exact env content → state.1.Exact env content)) ∧ w.content env reader.node = content)
    (fun _ _ _ => trivial) ?_ (reader, []) w fuel ⟨⟨?_, fun whole => whole⟩, held⟩
  · intro state
    obtain ⟨src, got⟩ := state
    refine Spec.assume fun known => ?_
    refine (prefixTurn_spec env len src got known.1 known.2).imp ?_
    intro result w holds
    cases result with
    | inl next => exact holds
    | inr got => exact holds
  · exact ⟨rfl, sound, start, List.nil_prefix, Nat.zero_le _⟩

theorem samePrefix_spec (len : Nat) :
    Spec (fun w => w.devices job.dev = content) (samePrefix env job len)
      (.onReturn
        (fun same _ => same = true →
          env.image job.image ≠ [] ∧ (env.image job.image).take len <+: content)
        fun _ _ => True) := by
  apply Spec.bind fun _ w => w.devices job.dev = content
  · apply Spec.mapError
    exact ((ask_still env _).comp fun w : FlashWorld => w.devices job.dev).returns content
  intro _
  apply Spec.bind fun pa w => pa = (env.image job.image).take len ∧ w.devices job.dev = content
  · have file : DevReader.Sound (env.image job.image) (.file (.image job.image) 0) := trivial
    have kept := (readPrefix_still env (.file (.image job.image) 0) len).always
      fun w : FlashWorld => w.devices job.dev = content
    refine ((readPrefix_spec env file rfl len).and kept).weaken (fun w held => ⟨rfl, held⟩) ?_
      (fun _ _ _ => trivial) fun _ _ => trivial
    intro pa w holds
    obtain ⟨⟨-, whole⟩, held⟩ := holds
    exact ⟨whole trivial, held⟩
  intro pa
  refine Spec.assume fun isTake => ?_
  refine Spec.bind _ (Spec.mapError (openReader_spec job.elev (.device job.dev))) ?_
  intro device
  refine Spec.assume fun opened => ?_
  obtain ⟨node, sound, start, -⟩ := opened
  have reads := readPrefix_spec env sound start len
  rw [node] at reads
  refine Spec.bind _ reads ?_
  intro pb
  apply Spec.pure
  intro w got same
  obtain ⟨read, -⟩ := got
  simp only [Bool.and_eq_true, Bool.not_eq_true', decide_eq_true_eq] at same
  obtain ⟨⟨some, -⟩, equal⟩ := same
  rw [← isTake]
  constructor
  · intro empty
    rw [empty, List.take_nil] at isTake
    rw [isTake] at some
    cases some
  · rw [← equal]
    exact (List.take_prefix _ _).trans read

theorem verifyPhase_spec :
    Spec (fun w => w.devices job.dev = content) (verifyPhase env job)
      (.onReturn
        (fun _ _ => env.image job.image ≠ [] ∧
          (env.image job.image).take verifyPrefixLen <+: content)
        fun _ _ => True) := by
  apply Spec.bind fun _ w => w.devices job.dev = content
  · exact Spec.modify fun _ holds => holds
  intro _
  refine Spec.bind _ (Spec.mapError (samePrefix_spec env job verifyPrefixLen)) ?_
  intro same
  cases same with
  | false => exact Spec.fail fun _ _ => trivial
  | true => exact Spec.pure fun _ holds => holds rfl

end Check

/-! ## The run -/

/-- What a run from the world `before` guarantees, at whatever operation it is
stopped. -/
structure Safe (env : Env) (job : FlashJob) (before : FlashWorld) (fuel : Nat) : Prop where
  /-- The writer gets nothing before the backup is complete. -/
  ordered : (runFlash env job before.fresh fuel).world.wrote = true →
    ∀ dest, job.backupTo = some dest →
      Complete env dest (before.devices job.dev) (runFlash env job before.fresh fuel).world
  /-- Until the writer gets something, the devices hold what they held. -/
  untouched : Untouched before.devices (runFlash env job before.fresh fuel).world
  /-- A failed backup ends the run. -/
  aborted : ∀ e after left, backupPhase env job before.fresh fuel = .error e after left →
    runFlash env job before.fresh fuel = .error e after left ∧ after.devices = before.devices
  /-- A run that returns has found the image at the start of the device; what it
  found there is the image over what was there, if the writer is in order. -/
  verified : ∀ summary after left, runFlash env job before.fresh fuel = .ok summary after left →
    ∃ checked left', flashVerified env job before.fresh fuel = .ok () checked left' ∧
      env.image job.image ≠ [] ∧
      (env.image job.image).take verifyPrefixLen <+: checked.devices job.dev ∧
      (InOrder env job.elev → checked.devices job.dev =
        env.image job.image ++ (before.devices job.dev).drop (env.image job.image).length) ∧
      (job.grow = false → after = checked)

section Run

variable (env : Env) (job : FlashJob)

/-- The backup, if there is one, is complete. -/
def Saved (content : Bytes) (w : FlashWorld) : Prop :=
  ∀ dest, job.backupTo = some dest → Complete env dest content w

def Ordered (content : Bytes) (w : FlashWorld) : Prop := w.wrote = true → Saved env job content w

variable {env job} {content : Bytes}

theorem Saved.ordered {w : FlashWorld} (complete : Saved env job content w) :
    Ordered env job content w := fun _ => complete

theorem Saved.of_saved {α Error : Type} {action : Action FlashWorld Error α}
    (keeps : Preserves saved action) :
    Spec (Saved env job content) action (.always (Saved env job content)) := by
  intro w fuel complete
  have same := keeps w fuel
  have carried : ∀ next : FlashWorld, saved next = saved w → Saved env job content next := by
    intro next kept dest wanted
    simp only [saved, Prod.mk.injEq] at kept
    obtain ⟨files, synced, delivered, ended⟩ := kept
    obtain ⟨before, whole⟩ := complete dest wanted
    refine ⟨⟨?_, ended.trans before.ended, ?_⟩, fun honest => delivered.trans (whole honest)⟩
    · rw [files, delivered]
      exact before.content
    · rw [synced]
      exact before.synced
  cases outcome : action w fuel with
  | ok _ next _ | error _ next _ | stopped next =>
      rw [outcome] at same
      exact carried next same

variable (env job)

/-- The state of the world a run starts from. -/
def Starts (content : Bytes) (w : FlashWorld) : Prop :=
  (w.devices job.dev = content ∧ w.delivered = []) ∧ w.wrote = false

/-- A backup that returns is complete; until then nothing is written. -/
theorem backupPhase_ordered :
    Spec (Starts job content) (backupPhase env job)
      ⟨fun _ => Saved env job content, fun _ => Ordered env job content,
        Ordered env job content⟩ := by
  have unwritten := ((backupPhase_disk env job).comp fun d => d.2.2.2).spec false
  have complete : Spec (fun w => w.devices job.dev = content ∧ w.delivered = [])
      (backupPhase env job) (.onReturn (fun _ => Saved env job content) fun _ _ => True) := by
    unfold backupPhase
    cases wanted : job.backupTo with
    | none =>
        apply Spec.pure
        intro w _ dest same
        cases wanted.symm.trans same
    | some dest =>
        refine backup_spec.imp ?_
        intro _ w complete other same
        cases wanted.symm.trans same
        exact complete
  have clean : ∀ w : FlashWorld, w.wrote = false → Ordered env job content w := by
    intro w unwritten wrote
    cases unwritten.symm.trans wrote
  exact (complete.and unwritten).weaken (fun _ holds => holds) (fun _ _ holds => holds.1)
    (fun _ w holds => clean w holds.2) fun w holds => clean w holds.2

theorem runFlash_ordered :
    Spec (Starts job content) (runFlash env job) (.always (Ordered env job content)) := by
  have going : ∀ {α : Type} {action : Step FlashEvent α}, Preserves saved action →
      Spec (Saved env job content) action
        ⟨fun _ => Saved env job content, fun _ => Ordered env job content,
          Ordered env job content⟩ :=
    fun keeps => (Saved.of_saved keeps).weaken (fun _ holds => holds) (fun _ _ holds => holds)
      (fun _ _ holds => holds.ordered) fun _ holds => holds.ordered
  apply Spec.bind fun _ => Saved env job content
  · apply Spec.bind fun _ => Saved env job content
    · exact backupPhase_ordered env job
    intro _
    apply Spec.bind fun _ => Saved env job content
    · exact going (writePhase_saved env job)
    · exact fun _ => going ((verifyPhase_quiet env job).comp saved)
  intro _
  apply Spec.ite
  · intro _
    apply Spec.bind fun _ => Saved env job content
    · exact going ((growPhase_kept env job).comp saved)
    · exact fun _ => Spec.pure fun _ holds => holds.ordered
  · exact fun _ => Spec.pure fun _ holds => holds.ordered

theorem runFlash_untouched (devices : String → Bytes) :
    Spec (Untouched devices) (runFlash env job) (.always (Untouched devices)) := by
  have moot : ∀ w : FlashWorld, w.wrote = true → Untouched devices w := by
    intro w wrote clean
    cases wrote.symm.trans clean
  have dirty : ∀ {α : Type} {action : Step FlashEvent α}, Preserves World.wrote action →
      Spec (fun w => w.wrote = true) action
        ⟨fun _ w => w.wrote = true, fun _ => Untouched devices, Untouched devices⟩ := by
    intro α action keeps
    exact (keeps.spec true).weaken (fun _ holds => holds) (fun _ _ holds => holds)
      (fun _ w holds => moot w holds) fun w holds => moot w holds
  apply Spec.bind fun _ w => w.wrote = true
  · apply Spec.bind fun _ => Untouched devices
    · exact Untouched.of_disk (backupPhase_disk env job)
    intro _
    apply Spec.bind fun _ w => w.wrote = true
    · exact writePhase_untouched env job devices
    · exact fun _ => dirty ((verifyPhase_quiet env job).comp World.wrote)
  intro _
  apply Spec.ite
  · intro _
    apply Spec.bind fun _ w => w.wrote = true
    · exact dirty ((growPhase_kept env job).comp World.wrote)
    · exact fun _ => Spec.pure moot
  · exact fun _ => Spec.pure moot

/-- The world in which the check passed. -/
theorem flashVerified_ok {before checked : FlashWorld} {fuel left : Nat}
    (returned : flashVerified env job before fuel = .ok () checked left) :
    env.image job.image ≠ [] ∧
      (env.image job.image).take verifyPrefixLen <+: checked.devices job.dev ∧
      (InOrder env job.elev → checked.devices job.dev =
        env.image job.image ++ (before.devices job.dev).drop (env.image job.image).length) := by
  obtain ⟨_, backed, _, backedUp, returned⟩ := bind_ok returned
  obtain ⟨_, written, left', wrote, returned⟩ := bind_ok returned
  have still := (backupPhase_disk env job).comp (fun d => d.1) before fuel
  rw [backedUp] at still
  have devices : backed.devices = before.devices := still
  have unchanged := (verifyPhase_quiet env job).comp World.devices written left'
  rw [returned] at unchanged
  have same : checked.devices = written.devices := unchanged
  have check := (verifyPhase_spec env job).at_ok (rfl : written.devices job.dev = _) returned
  refine ⟨check.1, ?_, fun inOrder => ?_⟩
  · rw [same]
    exact check.2
  · rw [same, ← devices]
    exact (writePhase_spec job inOrder).at_ok rfl wrote

/-- The guarantees of a flash, for every image, device, environment and moment. -/
theorem runFlash_safe (before : FlashWorld) (fuel : Nat) : Safe env job before fuel where
  ordered := (runFlash_ordered env job).always fuel ⟨⟨rfl, rfl⟩, rfl⟩
  untouched := (runFlash_untouched env job before.devices).always fuel fun _ => rfl
  aborted e after left failed := by
    have kept := (backupPhase_disk env job).comp (fun d => d.1) before.fresh fuel
    rw [failed] at kept
    exact ⟨bind_error (bind_error failed), kept⟩
  verified summary after left returned := by
    obtain ⟨_, checked, left', verified, rest⟩ := bind_ok returned
    obtain ⟨some, header, content⟩ := flashVerified_ok env job verified
    refine ⟨checked, left', verified, some, header, content, fun noGrow => ?_⟩
    simp only [noGrow] at rest
    cases rest
    rfl

end Run

end Nixnas.Tui.Flash
