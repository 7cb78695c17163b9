import Nixnas.Logic.Total
import Nixnas.Tui.Device

/-!
# Seeking, cloning and exact reads

The rest of what `src/tui/src/verify.rs` does with a `DevReader`: it measures
the target by a seek to its end, hands clones of the handle to the crates that
parse the GPT and the FAT, and reads fixed lengths with `read_exact`.
-/

set_option autoImplicit false

namespace Nixnas.Tui.Sudo

open Nixnas.Logic Nixnas.Logic.Action
open Nixnas.Rust

variable {Event α : Type}

/-! ## Seeking -/

/-- `seek(SeekFrom::End(0))`. -/
def DevReader.seekEnd (env : Env) : DevReader → Io (World Event) (Nat × DevReader)
  | .file node _ =>
      call env fun reply w =>
        match reply.error with
        | some e => (.error e, w)
        | none => (.ok ((w.content env node).length, .file node (w.content env node).length), w)
  | .sudo s => pure (s.len, .sudo { s with pos := s.len })

/-- `seek(SeekFrom::Start(pos))`. -/
def DevReader.seekStart (env : Env) (reader : DevReader) (pos : Nat) : Io (World Event) DevReader :=
  match reader with
  | .file node _ => do
      ask env fun _ => ()
      pure (.file node pos)
  | .sudo s => pure (.sudo { s with pos := pos })

/-! ## Clones -/

def DevReader.tryClone (env : Env) : DevReader → Io (World Event) DevReader
  | .file node pos => do
      ask env fun _ => ()
      pure (.file node pos)
  | .sudo s => pure (.sudo { s with cache := [], cacheStart := 0 })

/-- Everything that can be read through a handle. -/
def DevReader.medium (env : Env) (w : World Event) (short : Nat) : DevReader → Bytes
  | .file node _ => w.content env node
  | .sudo s =>
      let bytes := (w.content env s.node).take s.len
      bytes.take (bytes.length - short)

/-- A handle whose clone was read through: the clone of a plain file shares its
offset. -/
def DevReader.disturb (pos : Nat) : DevReader → DevReader
  | .file node _ => .file node pos
  | .sudo s => .sudo s

/-- What a crate makes of the bytes behind a clone of the handle.  All its reads
are one operation here, and an error is the crate's own. -/
def DevReader.lend (env : Env) (reader : DevReader) (parse : Bytes → Except String α) :
    Step Event (Except String α × DevReader) := do
  let clone ← ioContext "cloning the target handle" (reader.tryClone env)
  call env fun reply w =>
    match reply.error with
    | some e => (.ok (.error e.text, reader.disturb reply.count), w)
    | none => (.ok (parse (clone.medium env w reply.short), reader.disturb reply.count), w)

/-! ## Exact reads -/

def unexpectedEof : IoError := ⟨.unexpectedEof, "failed to fill whole buffer"⟩

/-- One turn of `read_exact`: an interrupted read is tried again. -/
def readExactTurn (env : Env) (size : Nat) :
    DevReader × Bytes → Io (World Event) ((DevReader × Bytes) ⊕ (Bytes × DevReader))
  | (reader, got) =>
      if size ≤ got.length then pure (.inr (got, reader))
      else do
        match ← attempt (reader.read env (size - got.length)) with
        | .ok ([], _) => fail unexpectedEof
        | .ok (chunk, reader) => pure (.inl (reader, got ++ chunk))
        | .error e => if e.kind = .interrupted then pure (.inl (reader, got)) else fail e

/-- `Read::read_exact`. -/
def DevReader.readExact (env : Env) (reader : DevReader) (size : Nat) :
    Io (World Event) (Bytes × DevReader) :=
  loop (readExactTurn env size) (reader, [])

/-! ## What they change -/

theorem DevReader.seekEnd_still (env : Env) (reader : DevReader) :
    Preserves World.still (reader.seekEnd env : Io (World Event) (Nat × DevReader)) := by
  cases reader with
  | file node pos =>
      unfold seekEnd
      apply call_preserves still_ticks
      intro reply w
      cases reply.error <;> rfl
  | «sudo» s => exact Preserves.pure _

theorem DevReader.seekStart_still (env : Env) (reader : DevReader) (pos : Nat) :
    Preserves World.still (reader.seekStart env pos : Io (World Event) DevReader) := by
  cases reader with
  | file node _ => exact Preserves.bind (ask_still env _) fun _ => Preserves.pure _
  | «sudo» s => exact Preserves.pure _

theorem DevReader.lend_still (env : Env) (reader : DevReader) (parse : Bytes → Except String α) :
    Preserves World.still
      (reader.lend env parse : Step Event (Except String α × DevReader)) := by
  have cloned : Preserves World.still (reader.tryClone env : Io (World Event) DevReader) := by
    cases reader with
    | file node pos => exact Preserves.bind (ask_still env _) fun _ => Preserves.pure _
    | «sudo» s => exact Preserves.pure _
  apply Preserves.bind (Preserves.mapError cloned)
  intro clone
  apply call_preserves still_ticks
  intro reply w
  cases reply.error <;> rfl

theorem DevReader.readExact_still (env : Env) (reader : DevReader) (size : Nat) :
    Preserves World.still (reader.readExact env size : Io (World Event) (Bytes × DevReader)) := by
  apply Preserves.loop
  intro state
  obtain ⟨reader, got⟩ := state
  apply Preserves.ite (Preserves.pure _)
  apply Preserves.bind (Preserves.attempt (reader.read_still env _))
  intro answer
  match answer with
  | .ok ([], _) => exact Preserves.fail _
  | .ok (b :: rest, next) => exact Preserves.pure _
  | .error e => exact Preserves.ite (Preserves.pure _) (Preserves.fail _)

/-! ## What they deliver -/

/-- A handle on the same node, as good as the one it comes from. -/
structure DevReader.Follows (env : Env) (content : Bytes) (reader next : DevReader) : Prop where
  node : next.node = reader.node
  sound : next.Sound content
  exact : reader.Exact env content → next.Exact env content

section Delivering

variable {env : Env} {content : Bytes}

theorem DevReader.Follows.trans {first second third : DevReader}
    (one : first.Follows env content second) (two : second.Follows env content third) :
    first.Follows env content third where
  node := two.node.trans one.node
  sound := two.sound
  exact same := two.exact (one.exact same)

/-- The content of a node stays as it is under what changes no device. -/
theorem content_kept {Error : Type} {node : Node} {action : Action (World Event) Error α}
    (keeps : Preserves World.devices action) :
    Spec (fun w => w.content env node = content) action
      (.always fun w => w.content env node = content) := by
  cases node with
  | device path => exact keeps.always fun devices => devices path = content
  | image path => exact keeps.always fun _ => env.image path = content

theorem Spec.holding {Error : Type} {node : Node} {action : Action (World Event) Error α}
    {post : Post (World Event) Error α}
    (spec : Spec (fun w => w.content env node = content) action post)
    (keeps : Preserves World.devices action) :
    Spec (fun w => w.content env node = content) action
      (.onReturn (fun value w => post.ok value w ∧ w.content env node = content)
        fun _ _ => True) :=
  (spec.and (content_kept keeps)).weaken (fun _ held => ⟨held, held⟩) (fun _ _ met => met)
    (fun _ _ _ => trivial) fun _ _ => trivial

theorem DevReader.seekEnd_spec {reader : DevReader} (sound : reader.Sound content) :
    Spec (fun w : World Event => w.content env reader.node = content) (reader.seekEnd env)
      (.onReturn
        (fun result _ => reader.Follows env content result.2 ∧
          (reader.Exact env content → result.1 = content.length))
        fun _ _ => True) := by
  cases reader with
  | file node pos =>
      unfold seekEnd
      refine call_spec (fun _ _ => trivial) ?_
      intro w (held : w.content env node = content)
      cases (env.reply w.clock).error with
      | some e => exact trivial
      | none => exact ⟨⟨rfl, trivial, fun _ => trivial⟩, fun _ => congrArg List.length held⟩
  | «sudo» s =>
      apply Spec.pure
      intro w _
      exact ⟨⟨rfl, sound, fun same => same⟩, fun same => same.2⟩

theorem DevReader.seekStart_spec {reader : DevReader} (sound : reader.Sound content) (pos : Nat) :
    Spec (fun w : World Event => w.content env reader.node = content) (reader.seekStart env pos)
      (.onReturn (fun next _ => reader.Follows env content next ∧ next.pos = pos)
        fun _ _ => True) := by
  cases reader with
  | file node _ =>
      apply Spec.bind fun _ _ => True
      · refine call_spec (fun _ _ => trivial) ?_
        intro w _
        cases (env.reply w.clock).error <;> exact trivial
      · exact fun _ => Spec.pure fun _ _ => ⟨⟨rfl, trivial, fun _ => trivial⟩, rfl⟩
  | «sudo» s => exact Spec.pure fun _ _ => ⟨⟨rfl, sound, fun same => same⟩, rfl⟩

theorem DevReader.medium_eq {reader : DevReader} {w : World Event} {n : Nat}
    (held : w.content env reader.node = content) (exact : reader.Exact env content) :
    reader.medium env w (env.reply n).short = content := by
  cases reader with
  | file node pos => exact held
  | «sudo» s =>
      obtain ⟨honest, len⟩ := exact
      have whole : (w.content env s.node).take s.len = content := by
        rw [show w.content env s.node = content from held, len, List.take_length]
      simp only [DevReader.medium, whole, honest.range, Nat.sub_zero, List.take_length]

/-- Through an exact handle a crate gets to see what the node holds, or an error. -/
theorem DevReader.lend_spec {reader : DevReader} (sound : reader.Sound content)
    (parse : Bytes → Except String α) :
    Spec (fun w : World Event => w.content env reader.node = content) (reader.lend env parse)
      (.onReturn
        (fun result _ => reader.Follows env content result.2 ∧
          (reader.Exact env content →
            (∀ value, result.1 = .ok value → parse content = .ok value) ∧
            ((∀ n, (env.reply n).error = none) → result.1 = parse content)))
        fun _ _ => True) := by
  have disturbed : ∀ pos, reader.Follows env content (reader.disturb pos) := by
    intro pos
    cases reader with
    | file node _ => exact ⟨rfl, trivial, fun _ => trivial⟩
    | «sudo» s => exact ⟨rfl, sound, fun same => same⟩
  have cloned : Spec (fun w : World Event => w.content env reader.node = content)
      (reader.tryClone env)
      (.onReturn
        (fun clone w => (clone.node = reader.node ∧
          (reader.Exact env content → clone.Exact env content)) ∧
          w.content env reader.node = content)
        fun _ _ => True) := by
    cases reader with
    | file node _ =>
        have asked : Preserves (fun w : World Event => w.content env node) (ask env fun _ => ()) :=
          (ask_still env _).comp fun w => w.content env node
        refine Spec.bind _ (asked.returns content) ?_
        exact fun _ => Spec.pure fun _ held => ⟨⟨rfl, fun _ => trivial⟩, held⟩
    | «sudo» s => exact Spec.pure fun _ held => ⟨⟨rfl, fun same => same⟩, held⟩
  refine Spec.bind _ (Spec.mapError cloned) ?_
  intro clone
  refine Spec.assume fun known => ?_
  obtain ⟨node, exact⟩ := known
  refine call_spec (fun _ _ => trivial) ?_
  intro w held
  cases failed : (env.reply w.clock).error with
  | some e =>
      refine ⟨disturbed _, fun _ => ⟨?_, fun calm => ?_⟩⟩
      · intro value returned
        cases returned
      · rw [calm] at failed
        cases failed
  | none =>
      refine ⟨disturbed _, fun same => ?_⟩
      rw [← node] at held
      have sees : clone.medium env { w with clock := w.clock + 1 } (env.reply w.clock).short =
          content := DevReader.medium_eq held (exact same)
      dsimp only
      rw [sees]
      exact ⟨fun _ returned => returned, fun _ => rfl⟩

/-- What `read_exact` has got so far. -/
structure Getting (env : Env) (content : Bytes) (size : Nat) (reader : DevReader)
    (next : DevReader) (got : Bytes) : Prop where
  follows : reader.Follows env content next
  pos : next.pos = reader.pos + got.length
  sofar : got <+: content.drop reader.pos
  bound : got.length ≤ size

/-- A read brings `read_exact` on. -/
theorem Getting.read {size : Nat} {reader src next : DevReader} {got chunk : Bytes}
    (getting : Getting env content size reader src got)
    (delivers : src.Delivers env content (size - got.length) chunk next) :
    Getting env content size reader next (got ++ chunk) where
  follows :=
    { node := delivers.node.trans getting.follows.node
      sound := delivers.sound
      exact := fun same => delivers.exact (getting.follows.exact same) }
  pos := by
    rw [delivers.pos, getting.pos, List.length_append]
    omega
  sofar := by
    have bytes := delivers.bytes
    rw [getting.pos, ← List.drop_drop] at bytes
    exact prefix_append_of_prefix_drop getting.sofar bytes
  bound := by
    have short := delivers.short
    have bound := getting.bound
    rw [List.length_append]
    omega

/-- What `read_exact` returns. -/
structure DevReader.Reads (env : Env) (content : Bytes) (size : Nat) (reader : DevReader)
    (got : Bytes) (next : DevReader) : Prop where
  follows : reader.Follows env content next
  bytes : got = (content.drop reader.pos).take size
  length : got.length = size
  pos : next.pos = reader.pos + size

theorem Getting.full {size : Nat} {reader next : DevReader} {got : Bytes}
    (getting : Getting env content size reader next got) (full : size ≤ got.length) :
    reader.Reads env content size got next := by
  have length : got.length = size := Nat.le_antisymm getting.bound full
  refine ⟨getting.follows, ?_, length, ?_⟩
  · rw [← length]
    exact List.prefix_iff_eq_take.mp getting.sofar
  · rw [getting.pos, length]

theorem readExactTurn_spec {reader : DevReader} (size : Nat) (state : DevReader × Bytes) :
    Spec
      (fun w : World Event => Getting env content size reader state.1 state.2 ∧
        w.content env reader.node = content)
      (readExactTurn env size state)
      (.onReturn
        (fun
          | .inl next => fun w => Getting env content size reader next.1 next.2 ∧
              w.content env reader.node = content
          | .inr result => fun _ => reader.Reads env content size result.1 result.2)
        fun _ _ => True) := by
  obtain ⟨src, got⟩ := state
  refine Spec.assume fun getting => ?_
  apply Spec.ite
  · exact fun full => Spec.pure fun _ _ => getting.full full
  intro _
  have reads := DevReader.read_keeping env getting.follows.sound (size - got.length)
    fun _ : World Event => True
  have kept := (src.read_still env (size - got.length)).always
    fun w : World Event => w.content env reader.node = content
  apply Spec.bind fun
    | .ok result => fun w => src.Delivers env content (size - got.length) result.1 result.2 ∧
        w.content env reader.node = content
    | .error _ => fun w => w.content env reader.node = content
  · apply Spec.attempt
    refine (reads.and kept).weaken ?_ ?_ ?_ fun _ _ => trivial
    · intro w held
      rw [getting.follows.node]
      exact ⟨⟨held, trivial⟩, held⟩
    · exact fun _ _ met => ⟨met.1.1, met.2⟩
    · exact fun _ _ met => met.2
  · intro answer
    match answer with
    | .ok ([], _) => exact Spec.fail fun _ _ => trivial
    | .ok (b :: rest, next) => exact Spec.pure fun _ met => ⟨getting.read met.1, met.2⟩
    | .error e =>
        apply Spec.ite
        · exact fun _ => Spec.pure fun _ held => ⟨getting, held⟩
        · exact fun _ => Spec.fail fun _ _ => trivial

theorem DevReader.readExact_spec {reader : DevReader} (sound : reader.Sound content) (size : Nat) :
    Spec (fun w : World Event => w.content env reader.node = content) (reader.readExact env size)
      (.onReturn (fun result _ => reader.Reads env content size result.1 result.2)
        fun _ _ => True) := by
  intro w fuel held
  have start : Getting env content size reader reader [] :=
    ⟨⟨rfl, sound, fun same => same⟩, rfl, List.nil_prefix, Nat.zero_le _⟩
  refine Spec.loop
    (fun (state : DevReader × Bytes) w => Getting env content size reader state.1 state.2 ∧
      w.content env reader.node = content)
    (fun _ _ _ => trivial) ?_ (reader, []) w fuel ⟨start, held⟩
  intro state
  refine (readExactTurn_spec size state).imp ?_
  intro result w met
  cases result <;> exact met

end Delivering

/-! ## When nothing fails -/

/-- Every operation and every command succeeds. -/
structure Env.Reliable (env : Env) : Prop where
  answers : ∀ n, (env.reply n).error = none
  success : ∀ n, (env.reply n).output.success = true

/-- `blockdev` prints the size of a device of this size. -/
def Env.Sizes (env : Env) (size : Nat) : Prop :=
  ∀ n, ((env.reply n).blockdev size).success = true ∧
    parseUnsigned u64Bound (trim ((env.reply n).blockdev size).stdout) = .ok size

section Reliable

variable {env : Env} {before : World Event → Prop}

theorem call_ends {Error : Type} {ok : α → World Event → Prop}
    {operation : Reply → World Event → Except Error α × World Event}
    (answers : ∀ w, before w → ∃ value next,
      operation (env.reply w.clock) { w with clock := w.clock + 1 } = (.ok value, next) ∧
        ok value next) :
    Ends before (call env operation) ok := by
  intro w holds
  obtain ⟨value, next, result, met⟩ := answers w holds
  exact ⟨value, next, 1, Runs.perform result, met⟩

theorem call_finishes {Error : Type} {post : Post (World Event) Error α}
    {operation : Reply → World Event → Except Error α × World Event}
    (answers : ∀ w, before w →
      post.Answered (operation (env.reply w.clock) { w with clock := w.clock + 1 })) :
    Finishes before (call env operation) post := Finishes.perform answers

theorem ask_ends (reliable : env.Reliable) (answer : Reply → α) :
    Ends before (ask env answer : Io (World Event) α) fun _ _ => True := by
  apply call_ends
  intro w _
  simp only [reliable.answers]
  exact ⟨_, _, rfl, trivial⟩

theorem ddRange_ends (reliable : env.Reliable) (node : Node) (off len : Nat) :
    Ends before (ddRange env node off len : Io (World Event) Bytes) fun _ _ => True := by
  apply Ends.bind _ (ask_ends reliable _)
  intro _
  apply call_ends
  intro w _
  simp only [reliable.answers, reliable.success, if_true]
  exact ⟨_, _, rfl, trivial⟩

theorem SudoReader.read_ends (reliable : env.Reliable) (s : SudoReader) (size : Nat) :
    Ends before (s.read env size : Io (World Event) (Bytes × SudoReader)) fun _ _ => True := by
  have refilled : Ends before (s.refill env : Io (World Event) SudoReader) fun _ _ => True := by
    unfold SudoReader.refill
    split
    · exact Ends.pure fun _ _ => trivial
    · exact Ends.bind _ (ddRange_ends reliable _ _ _) fun _ => Ends.pure fun _ _ => trivial
  unfold SudoReader.read
  split
  · exact Ends.pure fun _ _ => trivial
  · dsimp only
    split
    · exact Ends.pure fun _ _ => trivial
    · split
      · exact Ends.bind _ (ddRange_ends reliable _ _ _) fun _ => Ends.pure fun _ _ => trivial
      · exact Ends.bind _ refilled fun _ => Ends.pure fun _ _ => trivial

theorem DevReader.read_ends (reliable : env.Reliable) (reader : DevReader) (size : Nat) :
    Ends before (reader.read env size : Io (World Event) (Bytes × DevReader)) fun _ _ => True := by
  cases reader with
  | file node pos =>
      apply Ends.bind fun _ _ => True
      · apply call_ends
        intro w _
        simp only [reliable.answers]
        exact ⟨_, _, rfl, trivial⟩
      · exact fun _ => Ends.pure fun _ _ => trivial
  | «sudo» s =>
      apply Ends.bind _ (s.read_ends reliable size)
      exact fun _ => Ends.pure fun _ _ => trivial

theorem DevReader.seekEnd_ends (reliable : env.Reliable) (reader : DevReader) :
    Ends before (reader.seekEnd env : Io (World Event) (Nat × DevReader)) fun _ _ => True := by
  cases reader with
  | file node pos =>
      unfold seekEnd
      apply call_ends
      intro w _
      simp only [reliable.answers]
      exact ⟨_, _, rfl, trivial⟩
  | «sudo» s => exact Ends.pure fun _ _ => trivial

theorem DevReader.seekStart_ends (reliable : env.Reliable) (reader : DevReader) (pos : Nat) :
    Ends before (reader.seekStart env pos : Io (World Event) DevReader) fun _ _ => True := by
  cases reader with
  | file node _ => exact Ends.bind _ (ask_ends reliable _) fun _ => Ends.pure fun _ _ => trivial
  | «sudo» s => exact Ends.pure fun _ _ => trivial

theorem DevReader.lend_ends (reliable : env.Reliable) (reader : DevReader)
    (parse : Bytes → Except String α) :
    Ends before (reader.lend env parse : Step Event (Except String α × DevReader))
      fun _ _ => True := by
  have cloned : Ends before (reader.tryClone env : Io (World Event) DevReader) fun _ _ => True := by
    cases reader with
    | file node pos => exact Ends.bind _ (ask_ends reliable _) fun _ => Ends.pure fun _ _ => trivial
    | «sudo» s => exact Ends.pure fun _ _ => trivial
  apply Ends.bind _ (Ends.mapError cloned)
  intro clone
  apply call_ends
  intro w _
  simp only [reliable.answers]
  exact ⟨_, _, rfl, trivial⟩

variable {content : Bytes}

/-- How far `read_exact` has got with the range. -/
def gotten (env : Env) (content : Bytes) (size : Nat) (reader : DevReader)
    (state : DevReader × Bytes) (w : World Event) : Prop :=
  Getting env content size reader state.1 state.2 ∧ w.content env reader.node = content

/-- The range was read, or it goes on after the end of the node. -/
def afterExact (env : Env) (content : Bytes) (size : Nat) (reader : DevReader) :
    Post (World Event) IoError (Bytes × DevReader) :=
  .onReturn (fun result _ => reader.Reads env content size result.1 result.2)
    fun _ _ => content.length < reader.pos + size

theorem readExactTurn_finishes (reliable : env.Reliable) {reader : DevReader} {size : Nat}
    (exact : reader.Exact env content) (state : DevReader × Bytes) :
    Finishes (gotten env content size reader state)
      (readExactTurn env size state : Io (World Event) _)
      (Post.ofTurn (gotten env content size reader) (fun state => size - state.2.length)
        (size - state.2.length) (afterExact env content size reader)) := by
  obtain ⟨src, got⟩ := state
  refine Finishes.assume fun getting => ?_
  by_cases full : size ≤ got.length
  · simp only [readExactTurn, if_pos full]
    exact Finishes.pure fun _ _ => getting.full full
  · simp only [readExactTurn, if_neg full]
    have reads := DevReader.read_keeping env getting.follows.sound (size - got.length)
      fun _ : World Event => True
    rw [getting.follows.node] at reads
    have ends := (DevReader.read_ends reliable src (size - got.length)).with_spec reads
    apply Finishes.attempt_bind fun result w =>
      src.Delivers env content (size - got.length) result.1 result.2 ∧
        w.content env reader.node = content
    · refine ends.weaken (fun _ held => ⟨held, trivial⟩) ?_
      exact fun _ _ met => ⟨met.2.1, met.2.2.1⟩
    · intro answer
      match answer with
      | ([], next) =>
          apply Finishes.fail
          intro w met
          have ended := met.1.ended (getting.follows.exact exact) (by omega) rfl
          have length := congrArg List.length ended
          have pos : src.pos = reader.pos + got.length := getting.pos
          rw [pos, List.length_drop, List.length_nil] at length
          change content.length < reader.pos + size
          omega
      | (b :: rest, next) =>
          apply Finishes.pure
          intro w met
          refine ⟨⟨getting.read met.1, met.2⟩, ?_⟩
          change size - (got ++ b :: rest).length < size - got.length
          rw [List.length_append, List.length_cons]
          omega

/-- However short the reads are, a range is read whole, or ends after the node. -/
theorem DevReader.readExact_finishes (reliable : env.Reliable) {reader : DevReader} {size : Nat}
    (sound : reader.Sound content) (exact : reader.Exact env content) :
    Finishes (fun w : World Event => w.content env reader.node = content)
      (reader.readExact env size) (afterExact env content size reader) := by
  intro w held
  have start : Getting env content size reader reader [] :=
    ⟨⟨rfl, sound, fun same => same⟩, rfl, List.nil_prefix, Nat.zero_le _⟩
  exact Finishes.loop (gotten env content size reader) (fun state => size - state.2.length)
    (readExactTurn_finishes reliable exact) (reader, []) w ⟨start, held⟩

theorem DevReader.readExact_ends (reliable : env.Reliable) {reader : DevReader} {size : Nat}
    (sound : reader.Sound content) (exact : reader.Exact env content)
    (inside : reader.pos + size ≤ content.length) :
    Ends (fun w : World Event => w.content env reader.node = content)
      (reader.readExact env size)
      fun result _ => reader.Reads env content size result.1 result.2 := by
  apply (DevReader.readExact_finishes reliable sound exact).ends
  intro e w (outside : content.length < reader.pos + size)
  omega

theorem deviceSize_ends (reliable : env.Reliable) (node : Node) (sizes : env.Sizes content.length) :
    Ends (fun w : World Event => w.content env node = content) (deviceSize env node)
      fun _ _ => True := by
  have printed : Ends (fun w : World Event => w.content env node = content)
      (runCaptured env ["blockdev", "--getsize64", node.path] (sizing env node))
      fun out _ => ∃ n, out = (env.reply n).blockdev content.length := by
    have asked : Preserves (fun w : World Event => w.content env node) (ask env fun _ => ()) :=
      (ask_still env _).comp fun w => w.content env node
    refine Ends.bind _ (Ends.mapError ((ask_ends reliable _).with_spec (asked.returns content))) ?_
    intro _
    apply Ends.mapError
    apply call_ends
    intro w held
    have same : World.content env { w with clock := w.clock + 1 } node = content := held.2
    simp only [sizing, reliable.answers, same]
    exact ⟨_, _, rfl, _, rfl⟩
  refine Ends.bind _ printed ?_
  intro out w met
  have parses : Ends (fun _ => True) (pure content.length : Step Event Nat) fun _ _ => True :=
    Ends.pure fun _ _ => trivial
  obtain ⟨n, rfl⟩ := met
  obtain ⟨success, parsed⟩ := sizes n
  simp only [success, parsed, Bool.not_true]
  exact parses w trivial

/-- A device is opened, and through `sudo` measured. -/
theorem openReader_ends (reliable : env.Reliable) (elev : Elevation) (node : Node)
    (sizes : elev ≠ .root → env.Sizes content.length) :
    Ends (fun w : World Event => w.content env node = content) (openReader env elev node)
      fun _ _ => True := by
  cases elev with
  | root =>
      apply Ends.bind _ (Ends.mapError (ask_ends reliable _))
      exact fun _ => Ends.pure fun _ _ => trivial
  | «sudo» secret =>
      apply Ends.bind _ (deviceSize_ends reliable node (sizes (by simp)))
      exact fun _ => Ends.pure fun _ _ => trivial

end Reliable

end Nixnas.Tui.Sudo
