import Nixnas.Tui.FlashSafety
import Nixnas.Tui.Handle

/-!
# A flash that meets no failure

As root, without a backup, and where every operation succeeds and moves some
bytes, the overwrite and its check return.
-/

set_option autoImplicit false

namespace Nixnas.Tui.Flash

open Nixnas.Logic Nixnas.Logic.Action
open Nixnas.Rust
open Nixnas.Tui.Sudo

/-- Every operation succeeds, and a write takes at least a byte. -/
structure Smooth (env : Env) : Prop where
  reliable : env.Reliable
  moves : ∀ n, 0 < (env.reply n).count

section Live

variable {env : Env} {before : FlashWorld → Prop}

theorem event_ends {α : Type} {event : FlashEvent} {rest : Step FlashEvent α}
    {ok : α → FlashWorld → Prop} (ends : Ends (fun _ => True) rest ok) :
    Ends before (send event >>= fun _ => rest) ok :=
  Ends.bind (fun _ _ => True) (Ends.modify fun _ _ => trivial) fun _ => ends

theorem endWrite_ends (smooth : Smooth env) {α : Type} (dev : String) (answer : Reply → α) :
    Ends before (endWrite env dev answer : Io FlashWorld α) fun _ _ => True := by
  apply call_ends
  intro w _
  simp only [smooth.reliable.answers]
  exact ⟨_, _, rfl, trivial⟩

theorem write_ends (smooth : Smooth env) (sink : DevWriter) (buf : Bytes) (some : buf ≠ []) :
    Ends before (sink.write env buf : Io FlashWorld Nat) fun n _ => 0 < n := by
  apply call_ends
  intro w _
  have moves := smooth.moves w.clock
  have positive := List.length_pos_iff.mpr some
  simp only [smooth.reliable.answers]
  exact ⟨_, _, rfl, by omega⟩

/-- The rest to be written gets shorter with every write. -/
theorem writeAll_ends (smooth : Smooth env) (sink : DevWriter) (buf : Bytes) :
    Ends before (writeAll (sink.write env) buf : Io FlashWorld Unit) fun _ _ => True := by
  intro w _
  refine Ends.loop (fun _ _ => True) List.length ?_ buf w trivial
  intro rest
  unfold writeTurn
  by_cases empty : rest = []
  · subst empty
    exact Ends.pure fun _ _ => trivial
  · rw [if_neg (by simp [empty])]
    apply Ends.attempt_bind _ (write_ends smooth sink rest empty)
    intro n
    cases n with
    | zero =>
        intro w impossible
        exact absurd impossible (Nat.lt_irrefl 0)
    | succ n =>
        apply Ends.pure
        intro w _
        refine ⟨trivial, ?_⟩
        have positive := List.length_pos_iff.mpr empty
        rw [List.length_drop]
        omega

/-- A handle on a node whose content is known. -/
structure Opened (content : Bytes) (node : Node) (src : DevReader) : Prop where
  node : src.node = node
  sound : src.Sound content

theorem Opened.next {content chunk : Bytes} {node : Node} {src next : DevReader} {size : Nat}
    (opened : Opened content node src) (delivers : src.Delivers env content size chunk next) :
    Opened content node next :=
  ⟨delivers.node.trans opened.node, delivers.sound⟩

/-- What a read of a known node delivers. -/
theorem read_ends (smooth : Smooth env) {content : Bytes} {node : Node} {src : DevReader}
    (opened : Opened content node src) (size : Nat) :
    Ends (fun w : FlashWorld => w.content env node = content) (src.read env size)
      fun result w => src.Delivers env content size result.1 result.2 ∧
        w.content env node = content := by
  have reads := DevReader.read_keeping env opened.sound size fun _ : FlashWorld => True
  rw [opened.node] at reads
  refine ((DevReader.read_ends smooth.reliable src size).with_spec reads).weaken
    (fun _ held => ⟨held, trivial⟩) ?_
  exact fun _ _ met => ⟨met.2.1, met.2.2.1⟩

/-- A chunk brings the reader nearer to the end of the node. -/
theorem Delivers.nearer {content chunk : Bytes} {src next : DevReader} {size : Nat}
    (delivers : src.Delivers env content size chunk next) (some : chunk ≠ []) :
    content.length - next.pos < content.length - src.pos := by
  have inside := delivers.bytes.length_le
  have positive := List.length_pos_iff.mpr some
  rw [List.length_drop] at inside
  rw [delivers.pos]
  omega

/-- The copy of an image comes to its end with the image. -/
theorem copyImage_ends (smooth : Smooth env) (sink : DevWriter) (path : String) (total : Nat) :
    Ends before
      (copyWithProgress (DevReader.read env) (sink.write env) (.file (.image path) 0) total)
      fun _ _ => True := by
  intro w _
  refine Ends.loop
    (fun (st : DevReader × Nat) _ => Opened (env.image path) (.image path) st.1 ∧ True)
    (fun st => (env.image path).length - st.1.pos) ?_ (.file (.image path) 0, 0) w
    ⟨⟨rfl, trivial⟩, trivial⟩
  intro st
  obtain ⟨src, done⟩ := st
  refine Ends.assume fun opened => ?_
  apply Ends.bind _ (Ends.mapError ((read_ends smooth opened chunkSize).weaken (fun _ _ => rfl)
    fun _ _ met => met))
  intro result
  obtain ⟨chunk, next⟩ := result
  refine Ends.assume fun delivers => ?_
  cases chunk with
  | nil => exact Ends.pure fun _ _ => trivial
  | cons b rest =>
      apply Ends.bind fun _ _ => True
      · exact Ends.mapError (writeAll_ends smooth sink (b :: rest))
      · intro _
        apply event_ends
        apply Ends.pure
        intro w _
        exact ⟨⟨Opened.next opened delivers, trivial⟩, Delivers.nearer delivers (by simp)⟩

theorem writePhase_ends (smooth : Smooth env) (job : FlashJob) (root : job.elev = .root) :
    Ends before (writePhase env job) fun _ _ => True := by
  apply event_ends
  apply Ends.bind _ (Ends.mapError (ask_ends smooth.reliable _))
  intro imageSize
  apply Ends.bind _ (Ends.mapError (ask_ends smooth.reliable _))
  intro _
  rw [root]
  apply Ends.bind fun _ _ => True
  · apply Ends.mapError
    apply Ends.bind fun _ _ => True
    · apply Ends.mapError
      apply call_ends
      intro w _
      simp only [smooth.reliable.answers]
      exact ⟨_, _, rfl, trivial⟩
    · exact fun _ => Ends.pure fun _ _ => trivial
  intro sink
  apply Ends.attempt_bind _ (copyImage_ends smooth sink job.image imageSize)
  intro _
  apply Ends.mapError
  cases sink with
  | file dev => exact Ends.mapError (endWrite_ends smooth dev _)
  | «sudo» dev =>
      apply Ends.bind fun success _ => success = true
      · apply Ends.mapError
        apply call_ends
        intro w _
        simp only [smooth.reliable.answers]
        exact ⟨_, _, rfl, smooth.reliable.success _⟩
      · intro success w isSuccess
        rw [isSuccess]
        exact ⟨(), w, 0, Runs.pure _ w, trivial⟩

/-! ## The check -/

theorem readPrefix_ends (smooth : Smooth env) {content : Bytes} {node : Node} {src : DevReader}
    (opened : Opened content node src) (len : Nat) :
    Ends (fun w : FlashWorld => w.content env node = content) (readPrefix env src len)
      fun _ w => w.content env node = content := by
  intro w held
  refine Ends.loop
    (fun (st : DevReader × Bytes) w => Opened content node st.1 ∧ w.content env node = content)
    (fun st => content.length - st.1.pos) ?_ (src, []) w ⟨opened, held⟩
  intro st
  obtain ⟨src, got⟩ := st
  refine Ends.assume fun opened => ?_
  by_cases full : len ≤ got.length
  · simp only [prefixTurn, if_pos full]
    exact Ends.pure fun _ held => held
  · simp only [prefixTurn, if_neg full]
    apply Ends.bind _ (Ends.mapError (read_ends smooth opened _))
    intro result
    obtain ⟨chunk, next⟩ := result
    refine Ends.assume fun delivers => ?_
    cases chunk with
    | nil => exact Ends.pure fun _ held => held
    | cons b rest =>
        apply Ends.pure
        exact fun w held =>
          ⟨⟨Opened.next opened delivers, held⟩, Delivers.nearer delivers (by simp)⟩

/-- A device that starts with the image passes the check. -/
theorem verifyPhase_ends (smooth : Smooth env) (job : FlashJob) (root : job.elev = .root)
    {content : Bytes} (some : env.image job.image ≠ [])
    (start : env.image job.image <+: content) :
    Ends (fun w => w.devices job.dev = content) (verifyPhase env job) fun _ _ => True := by
  have checked : Ends (fun w => w.devices job.dev = content)
      (samePrefix env job verifyPrefixLen) fun same _ => same = true := by
    have asked : Preserves World.devices (ask env fun _ => () : Io FlashWorld Unit) :=
      (ask_still env _).comp World.devices
    apply Ends.bind fun _ w => w.devices job.dev = content
    · apply Ends.mapError
      have kept := (asked.comp fun devices => devices job.dev).returns content
      exact ((ask_ends smooth.reliable _).with_spec kept).weaken (fun _ held => held)
        fun _ _ met => met.2
    intro _
    apply Ends.bind fun pa w => pa = (env.image job.image).take verifyPrefixLen ∧
      w.devices job.dev = content
    · have image : Opened (env.image job.image) (.image job.image) (.file (.image job.image) 0) :=
        ⟨rfl, trivial⟩
      have reads := readPrefix_spec env image.sound rfl verifyPrefixLen
      have kept := ((readPrefix_still env (.file (.image job.image) 0) verifyPrefixLen).comp
        fun w => w.devices job.dev).returns content
      refine ((((readPrefix_ends smooth image verifyPrefixLen).weaken (fun _ _ => rfl)
        fun _ _ met => met).with_spec kept).with_spec (reads.weaken (fun _ _ => rfl)
        (fun _ _ met => met) (fun _ _ met => met) fun _ met => met)).weaken (fun _ held => held) ?_
      exact fun pa w met => ⟨met.2.2 trivial, met.1.2⟩
    intro pa
    refine Ends.assume fun isTake => ?_
    rw [root]
    apply Ends.bind fun device w => (Opened content (.device job.dev) device ∧ device.pos = 0 ∧
      device.Exact env content) ∧ w.devices job.dev = content
    · apply Ends.mapError
      apply Ends.bind fun _ w => w.devices job.dev = content
      · apply Ends.mapError
        have kept := (asked.comp fun devices => devices job.dev).returns content
        exact ((ask_ends smooth.reliable _).with_spec kept).weaken (fun _ held => held)
          fun _ _ met => met.2
      · exact fun _ => Ends.pure fun _ held => ⟨⟨⟨rfl, trivial⟩, rfl, trivial⟩, held⟩
    intro device
    refine Ends.assume fun known => ?_
    obtain ⟨opened, atStart, exact⟩ := known
    have reads := readPrefix_spec env opened.sound atStart verifyPrefixLen
    rw [opened.node] at reads
    apply Ends.bind _ ((readPrefix_ends smooth opened verifyPrefixLen).with_spec reads)
    intro pb
    apply Ends.pure
    intro w met
    have isPrefix : pb = content.take verifyPrefixLen := met.2.2 exact
    have sub : pa <+: pb := by
      obtain ⟨more, rfl⟩ := start
      rw [isTake, isPrefix, List.take_append]
      exact List.prefix_append _ _
    have nonempty : pa ≠ [] := by
      rw [isTake]
      intro empty
      rcases List.take_eq_nil_iff.mp empty with zero | nothing
      · cases zero
      · exact some nothing
    have length := sub.length_le
    have front : pb.take pa.length = pa := (List.prefix_iff_eq_take.mp sub).symm
    simp [nonempty, front, Nat.min_eq_right length]
  apply Ends.bind fun _ w => w.devices job.dev = content
  · exact Ends.modify fun _ held => held
  intro _
  apply Ends.bind _ (Ends.mapError checked)
  intro same w isSame
  rw [isSame]
  exact ⟨(), w, 0, Runs.pure _ w, trivial⟩

/-- As root and without a backup, a flash of an image gets to its grow. -/
theorem flashVerified_ends (smooth : Smooth env) (job : FlashJob) (root : job.elev = .root)
    (noBackup : job.backupTo = none) (inOrder : InOrder env job.elev)
    (some : env.image job.image ≠ []) (old : Bytes) :
    Ends (fun w => w.devices job.dev = old) (flashVerified env job)
      fun _ w => w.devices job.dev =
        env.image job.image ++ old.drop (env.image job.image).length := by
  apply Ends.bind fun _ w => w.devices job.dev = old
  · unfold backupPhase
    rw [noBackup]
    exact Ends.pure fun _ held => held
  intro _
  apply Ends.bind _ ((writePhase_ends smooth job root).with_spec (writePhase_spec job inOrder))
  intro _
  refine Ends.assume fun _ => ?_
  have quiet := ((verifyPhase_quiet env job).comp fun w => w.devices job.dev).returns
    (env.image job.image ++ old.drop (env.image job.image).length)
  exact ((verifyPhase_ends smooth job root some (List.prefix_append _ _)).with_spec quiet).weaken
    (fun _ held => held) fun _ _ met => met.2

end Live

end Nixnas.Tui.Flash
