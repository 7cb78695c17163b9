import Nixnas.Tui.SudoStream

/-!
# The window on the ESP

`SliceCursor` of `src/tui/src/verify.rs`: fatfs mounts the ESP through it, on a handle
that it shares.  It reads the window and nothing else, whatever others do to the
position of the handle, and it takes no write.  A seek computes its target without an
overflow, but keeps the low 64 bits of it: only there it is no cursor.
-/

set_option autoImplicit false

namespace Nixnas.Tui.Sudo

open Nixnas.Logic Nixnas.Logic.Action
open Nixnas.Rust

variable {W σ α Event : Type} {content : Bytes} {start len : Nat}

/-! ## The cursor -/

structure SliceCursor (σ : Type) where
  file : σ
  start : Nat
  len : Nat
  pos : Nat

def SliceCursor.new (file : σ) (start len : Nat) : SliceCursor σ := ⟨file, start, len, 0⟩

/-- `self.start + self.pos`, in 64 bits. -/
def SliceCursor.offset (s : SliceCursor σ) : Nat := (s.start + s.pos) % u64Bound

def SliceCursor.read (handle : Handle W σ) (s : SliceCursor σ) (size : Nat) :
    Io W (Bytes × SliceCursor σ) :=
  let remaining := s.len - s.pos
  if remaining = 0 then pure ([], s)
  else do
    let want := min size remaining
    let file ← handle.seekStart s.file s.offset
    let (chunk, file) ← handle.read file want
    pure (chunk, { s with file := file, pos := s.pos + chunk.length })

def SliceCursor.seek (s : SliceCursor σ) (whence : SeekFrom) :
    Except IoError Nat × SliceCursor σ :=
  let target := whence.target s.len s.pos
  if target < 0 then (.error ⟨.invalidInput, "seek before the start of the ESP window"⟩, s)
  else
    let pos := target.toNat % u64Bound
    (.ok pos, { s with pos := pos })

def SliceCursor.write (_ : SliceCursor σ) (_ : Bytes) : Except IoError Nat :=
  .error ⟨.unsupported, "verification is read-only"⟩

def SliceCursor.flush (_ : SliceCursor σ) : Except IoError Unit := .ok ()

/-! ## Sequences of calls -/

/-- A call on the cursor, or what others do to its handle. -/
inductive Call (σ : Type) where
  | read (size : Nat)
  | seek (whence : SeekFrom)
  | write (buf : Bytes)
  | flush
  | moved (move : σ → σ)

inductive Result where
  | read (chunk : Bytes)
  | seek (answer : Except IoError Nat)
  | write (answer : Except IoError Nat)
  | flush (answer : Except IoError Unit)
  | moved

/-- What is seen of one call: its result, and the position before and after it. -/
structure Observed (σ : Type) where
  call : Call σ
  before : Nat
  result : Result
  after : Nat

def SliceCursor.take (handle : Handle W σ) (s : SliceCursor σ) :
    Call σ → Io W (Result × SliceCursor σ)
  | .read size => do
      let (chunk, next) ← s.read handle size
      pure (.read chunk, next)
  | .seek whence => pure (.seek (s.seek whence).1, (s.seek whence).2)
  | .write buf => pure (.write (s.write buf), s)
  | .flush => pure (.flush s.flush, s)
  | .moved move => pure (.moved, { s with file := move s.file })

def SliceCursor.trace (handle : Handle W σ) :
    List (Call σ) → SliceCursor σ → Io W (List (Observed σ) × SliceCursor σ)
  | [], s => pure ([], s)
  | call :: rest, s => do
      let (result, next) ← s.take handle call
      let (more, last) ← SliceCursor.trace handle rest next
      pure (⟨call, s.pos, result, next.pos⟩ :: more, last)

/-- Each call starts where the one before has led to. -/
def Chained : Nat → List (Call σ) → List (Observed σ) → Prop
  | _, [], seen => seen = []
  | _, _ :: _, [] => False
  | pos, call :: rest, seen :: more =>
      seen.call = call ∧ seen.before = pos ∧ Chained seen.after rest more

/-! ## A plain cursor -/

/-- A seek of `std::io::Cursor`: a target that is no position is an error. -/
def CursorSeek (len pos : Nat) (whence : SeekFrom) (answer : Except IoError Nat) (next : Nat) :
    Prop :=
  let target := whence.target len pos
  if target < 0 ∨ u64Bound ≤ target then
    (∃ text, answer = .error ⟨.invalidInput, text⟩) ∧ next = pos
  else answer = .ok target.toNat ∧ next = target.toNat

/-- One call of a plain cursor over `bytes` that takes no write. -/
def Observed.Plain (bytes : Bytes) (seen : Observed σ) : Prop :=
  match seen.call with
  | .read size => ∃ chunk, seen.result = .read chunk ∧
      ReadsAt bytes seen.before size chunk seen.after
  | .seek whence => ∃ answer, seen.result = .seek answer ∧
      CursorSeek bytes.length seen.before whence answer seen.after
  | .write _ => (∃ text, seen.result = .write (.error ⟨.unsupported, text⟩)) ∧
      seen.after = seen.before
  | .flush => seen.result = .flush (.ok ()) ∧ seen.after = seen.before
  | .moved _ => seen.result = .moved ∧ seen.after = seen.before

/-- What holds of every call, in range or not. -/
structure Observed.Guarded (content : Bytes) (start len : Nat) (seen : Observed σ) : Prop where
  inside : ∀ chunk, seen.result = .read chunk →
    chunk <+: (slice content start len).drop seen.before
  past : ∀ chunk, seen.result = .read chunk → len ≤ seen.before → chunk = []
  noOverflow : seen.before < len → start + seen.before < u64Bound
  negative : ∀ whence, seen.call = .seek whence → whence.target len seen.before < 0 →
    (∃ e, seen.result = .seek (.error e)) ∧ seen.after = seen.before
  readOnly : ∀ buf, seen.call = .write buf →
    (∃ e, seen.result = .write (.error e)) ∧ seen.after = seen.before

/-- The call is no seek to a target that takes more than 64 bits. -/
def Observed.InRange (len : Nat) (seen : Observed σ) : Prop :=
  ∀ whence, seen.call = .seek whence → whence.target len seen.before < u64Bound

theorem slice_length (within : start + len ≤ content.length) :
    (slice content start len).length = len := by
  unfold slice
  rw [List.length_take, List.length_drop]
  omega

/-! ## One call -/

section Steps

variable {handle : Handle W σ} {good : σ → Prop} {held : W → Prop}

/-- The cursor is on its window of a good handle. -/
structure SliceCursor.On (good : σ → Prop) (start len : Nat) (s : SliceCursor σ) : Prop where
  good : good s.file
  start : s.start = start
  len : s.len = len

/-- A read of the handle inside the window is one of the window. -/
theorem reads_slice {pos want size next : Nat} {chunk : Bytes} (inside : pos < len)
    (isWant : want = min size (len - pos)) (within : start + len ≤ content.length)
    (reads : ReadsAt content (start + pos) want chunk next) :
    ReadsAt (slice content start len) pos size chunk (pos + chunk.length) where
  bytes := by
    have fits : chunk.length ≤ len - pos := by
      have short := reads.short
      omega
    have bytes := reads.bytes
    unfold slice
    rw [List.drop_take, List.drop_drop]
    exact List.prefix_take_iff.mpr ⟨bytes, fits⟩
  short := by
    have short := reads.short
    omega
  ended := by
    intro empty
    rcases reads.ended empty with none | ended
    · left
      omega
    · omega
  moved := rfl

theorem SliceCursor.read_ends (reads : handle.Over content good held)
    (within : start + len ≤ content.length) (small : content.length < u64Bound)
    {s : SliceCursor σ} (on : s.On good start len) (size : Nat) :
    Ends held (s.read handle size) fun result world =>
      (result.2.On good start len ∧
        ReadsAt (slice content start len) s.pos size result.1 result.2.pos) ∧ held world := by
  have sized := slice_length within
  unfold SliceCursor.read
  dsimp only
  by_cases past : s.len - s.pos = 0
  · rw [if_pos past]
    apply Ends.pure
    intro world holds
    have ended : (slice content start len).length ≤ s.pos := by
      have isLen := on.len
      omega
    exact ⟨⟨on, List.nil_prefix, Nat.zero_le _, fun _ => Or.inr ended, rfl⟩, holds⟩
  · rw [if_neg past]
    have isStart := on.start
    have isLen := on.len
    have exact : s.offset = start + s.pos := by
      unfold SliceCursor.offset
      rw [isStart]
      exact Nat.mod_eq_of_lt (by omega)
    apply Ends.bind _ (reads.seekStart s.file s.offset on.good)
    intro file
    apply Ends.assume
    intro sought
    obtain ⟨isGood, atOffset⟩ := sought
    apply Ends.bind _ (reads.read file (min size (s.len - s.pos)) isGood)
    rintro ⟨chunk, next⟩
    apply Ends.assume
    rintro ⟨isGood', delivers⟩
    rw [atOffset, exact] at delivers
    apply Ends.pure
    intro world holds
    refine ⟨⟨⟨isGood', isStart, isLen⟩, ?_⟩, holds⟩
    exact reads_slice (by omega) (by rw [isLen]) within delivers

/-- A seek is one of a plain cursor exactly when its target takes 64 bits. -/
theorem SliceCursor.seek_plain_iff (s : SliceCursor σ) (whence : SeekFrom) :
    CursorSeek s.len s.pos whence (s.seek whence).1 (s.seek whence).2.pos ↔
      whence.target s.len s.pos < u64Bound := by
  unfold CursorSeek SliceCursor.seek
  dsimp only
  by_cases negative : whence.target s.len s.pos < 0
  · rw [if_pos negative, if_pos (Or.inl negative)]
    have small : whence.target s.len s.pos < u64Bound := by omega
    exact iff_of_true ⟨⟨_, rfl⟩, rfl⟩ small
  · rw [if_neg negative]
    dsimp only
    by_cases large : (u64Bound : Int) ≤ whence.target s.len s.pos
    · rw [if_pos (Or.inr large)]
      refine iff_of_false ?_ (by omega)
      rintro ⟨⟨text, failed⟩, _⟩
      cases failed
    · rw [if_neg (by omega)]
      have small : (whence.target s.len s.pos).toNat < u64Bound := by omega
      rw [Nat.mod_eq_of_lt small]
      exact iff_of_true ⟨rfl, rfl⟩ (by omega)

theorem SliceCursor.seek_on {s : SliceCursor σ} (on : s.On good start len) (whence : SeekFrom) :
    (s.seek whence).2.On good start len := by
  unfold SliceCursor.seek
  dsimp only
  split
  · exact on
  · exact ⟨on.good, on.start, on.len⟩

/-- What one call is seen to do. -/
structure Observed.Kept (content : Bytes) (start len : Nat) (seen : Observed σ) : Prop where
  guarded : seen.Guarded content start len
  plain : seen.Plain (slice content start len) ↔ seen.InRange len

theorem kept_read (within : start + len ≤ content.length) (small : content.length < u64Bound)
    {before after size : Nat} {chunk : Bytes}
    (reads : ReadsAt (slice content start len) before size chunk after) :
    (⟨.read size, before, .read chunk, after⟩ : Observed σ).Kept content start len where
  guarded :=
    { inside := by
        rintro other ⟨⟩
        exact reads.bytes
      past := by
        rintro other ⟨⟩ past
        have none : (slice content start len).drop before = [] := by
          rw [List.drop_eq_nil_iff, slice_length within]
          exact past
        have bytes := reads.bytes
        rw [none] at bytes
        exact List.prefix_nil.mp bytes
      noOverflow := by
        intro inside
        dsimp only at inside ⊢
        omega
      negative := by
        rintro whence ⟨⟩
      readOnly := by
        rintro buf ⟨⟩ }
  plain := iff_of_true ⟨chunk, rfl, reads⟩ fun _ impossible => by cases impossible

theorem kept_seek (within : start + len ≤ content.length) (small : content.length < u64Bound)
    {s : SliceCursor σ} (on : s.On good start len) (whence : SeekFrom) :
    (⟨.seek whence, s.pos, .seek (s.seek whence).1, (s.seek whence).2.pos⟩ : Observed σ).Kept
      content start len where
  guarded :=
    { inside := by
        rintro chunk ⟨⟩
      past := by
        rintro chunk ⟨⟩
      noOverflow := by
        intro inside
        dsimp only at inside ⊢
        omega
      negative := by
        rintro other ⟨⟩ negative
        rw [← on.len] at negative
        have stays : s.seek whence =
            (.error ⟨.invalidInput, "seek before the start of the ESP window"⟩, s) := if_pos negative
        dsimp only
        rw [stays]
        exact ⟨⟨_, rfl⟩, rfl⟩
      readOnly := by
        rintro buf ⟨⟩ }
  plain := by
    have exact := s.seek_plain_iff whence
    unfold Observed.Plain Observed.InRange
    dsimp only
    rw [slice_length within, ← on.len]
    constructor
    · rintro ⟨answer, same, plain⟩ other ⟨⟩
      cases same
      exact exact.mp plain
    · intro inRange
      exact ⟨_, rfl, exact.mpr (inRange whence rfl)⟩

/-- A call that leaves the position. -/
theorem kept_still (within : start + len ≤ content.length) (small : content.length < u64Bound)
    {seen : Observed σ} (stays : seen.after = seen.before)
    (noRead : ∀ chunk, seen.result ≠ .read chunk) (noSeek : ∀ whence, seen.call ≠ .seek whence)
    (fails : ∀ buf, seen.call = .write buf → ∃ e, seen.result = .write (.error e))
    (plain : seen.Plain (slice content start len)) : seen.Kept content start len where
  guarded :=
    { inside := fun chunk read => absurd read (noRead chunk)
      past := fun chunk read => absurd read (noRead chunk)
      noOverflow := by
        intro inside
        omega
      negative := fun whence seek => absurd seek (noSeek whence)
      readOnly := fun buf write => ⟨fails buf write, stays⟩ }
  plain := iff_of_true plain fun whence seek => absurd seek (noSeek whence)

theorem SliceCursor.take_ends (reads : handle.Over content good held)
    (within : start + len ≤ content.length) (small : content.length < u64Bound)
    {s : SliceCursor σ} (on : s.On good start len) (call : Call σ)
    (keeps : ∀ move, call = .moved move → ∀ file, good file → good (move file)) :
    Ends held (s.take handle call) fun result world =>
      (result.2.On good start len ∧
        (⟨call, s.pos, result.1, result.2.pos⟩ : Observed σ).Kept content start len) ∧ held world := by
  cases call with
  | read size =>
      apply Ends.bind _ (SliceCursor.read_ends reads within small on size)
      rintro ⟨chunk, next⟩
      apply Ends.assume
      rintro ⟨on', delivers⟩
      exact Ends.pure fun world holds => ⟨⟨on', kept_read within small delivers⟩, holds⟩
  | seek whence =>
      exact Ends.pure fun world holds =>
        ⟨⟨SliceCursor.seek_on on whence, kept_seek within small on whence⟩, holds⟩
  | write buf =>
      refine Ends.pure fun world holds => ⟨⟨on, kept_still within small rfl ?_ ?_ ?_ ?_⟩, holds⟩
      · rintro chunk ⟨⟩
      · rintro whence ⟨⟩
      · exact fun _ _ => ⟨_, rfl⟩
      · exact ⟨⟨_, rfl⟩, rfl⟩
  | flush =>
      refine Ends.pure fun world holds => ⟨⟨on, kept_still within small rfl ?_ ?_ ?_ ?_⟩, holds⟩
      · rintro chunk ⟨⟩
      · rintro whence ⟨⟩
      · rintro buf ⟨⟩
      · exact ⟨rfl, rfl⟩
  | moved move =>
      refine Ends.pure fun world holds =>
        ⟨⟨⟨keeps move rfl s.file on.good, on.start, on.len⟩, kept_still within small rfl ?_ ?_ ?_ ?_⟩,
          holds⟩
      · rintro chunk ⟨⟩
      · rintro whence ⟨⟩
      · rintro buf ⟨⟩
      · exact ⟨rfl, rfl⟩

/-- Any sequence of calls, by induction on it. -/
theorem SliceCursor.trace_ends (reads : handle.Over content good held)
    (within : start + len ≤ content.length) (small : content.length < u64Bound)
    (calls : List (Call σ))
    (keeps : ∀ move, .moved move ∈ calls → ∀ file, good file → good (move file))
    {s : SliceCursor σ} (on : s.On good start len) :
    Ends held (SliceCursor.trace handle calls s) fun result world =>
      (Chained s.pos calls result.1 ∧ ∀ seen ∈ result.1, seen.Kept content start len) ∧
        held world := by
  induction calls generalizing s with
  | nil => exact Ends.pure fun world holds => ⟨⟨rfl, by simp⟩, holds⟩
  | cons call rest ih =>
      apply Ends.bind _ (SliceCursor.take_ends reads within small on call fun move same =>
        keeps move (same ▸ List.mem_cons_self))
      rintro ⟨result, next⟩
      apply Ends.assume
      rintro ⟨on', kept⟩
      apply Ends.bind _ (ih (fun move member => keeps move (List.mem_cons_of_mem _ member)) on')
      rintro ⟨more, last⟩
      apply Ends.assume
      rintro ⟨chained, all⟩
      refine Ends.pure fun world holds => ⟨⟨⟨rfl, rfl, chained⟩, ?_⟩, holds⟩
      intro seen member
      rcases List.mem_cons.mp member with rfl | member
      · exact kept
      · exact all seen member

end Steps

/-! ## The two handles -/

def devHandle (Event : Type) (env : Env) : Handle (World Event) DevReader where
  pos := DevReader.pos
  seekStart reader pos := reader.seekStart env pos
  read reader size := reader.read env size

/-- A handle on the node: a file, or a reader of the node with a sound cache. -/
def DevReader.On (content : Bytes) (node : Node) : DevReader → Prop
  | .file here _ => here = node
  | .sudo s => s.Caches content node

/-- Time passes and the node holds what it held. -/
theorem content_ticks {env : Env} {node : Node} {w : World Event}
    (held : w.content env node = content) :
    World.content env { w with clock := w.clock + 1 } node = content := by
  cases node <;> exact held

theorem devHandle_over {env : Env} (copies : env.Copies) (node : Node) :
    (devHandle Event env).Over content (DevReader.On content node)
      fun w => w.content env node = content where
  seekStart reader pos on := by
    cases reader with
    | file here old =>
        have asked : Ends (fun w : World Event => w.content env node = content) (ask env fun _ => ())
            fun _ w => w.content env node = content := by
          apply call_ends
          intro w held
          simp only [copies.answers]
          exact ⟨_, _, rfl, content_ticks held⟩
        apply Ends.bind _ asked
        intro _
        exact Ends.pure fun w held => ⟨⟨on, rfl⟩, held⟩
    | «sudo» s =>
        apply Ends.pure
        intro w held
        exact ⟨⟨⟨on.node, on.len, on.sound⟩, rfl⟩, held⟩
  read reader size on := by
    cases reader with
    | file here pos =>
        have isNode : here = node := on
        subst isNode
        have delivered : Ends (fun w : World Event => w.content env here = content)
            (readFile env here pos size) fun chunk w =>
              ReadsAt content pos size chunk (pos + chunk.length) ∧ w.content env here = content := by
          apply call_ends
          intro w held
          simp only [copies.answers, content_ticks held]
          refine ⟨_, _, rfl, ⟨?_, readSome_length_le _ _ _, ?_, rfl⟩, content_ticks held⟩
          · exact readSome_prefix _ _ _
          · intro empty
            by_cases none : size = 0
            · exact Or.inl none
            · have rest := readSome_eq_nil (Nat.pos_of_ne_zero none) empty
              exact Or.inr (List.drop_eq_nil_iff.mp rest)
        apply Ends.bind _ delivered
        intro chunk
        exact Ends.pure fun w met => ⟨⟨rfl, met.1⟩, met.2⟩
    | «sudo» s =>
        apply Ends.bind _ ((sudoStream_over copies).read s size on)
        rintro ⟨chunk, next⟩
        exact Ends.pure fun w met => met

/-! ## Every sequence of calls -/

/-- On a file and on an elevated reader, with their position moved by others or not:
every sequence of calls comes to its end, leaves the content alone and stays inside the
window; what it sees is what a plain cursor over the window may show exactly when no
seek of it leads to 2⁶⁴ or beyond. -/
theorem sliceCursor_plain_iff {env : Env} (copies : env.Copies) (content : Bytes)
    (small : content.length < u64Bound) (node : Node) (reader : DevReader)
    (opened : reader.On content node) (start len : Nat) (within : start + len ≤ content.length)
    (calls : List (Call DevReader))
    (keeps : ∀ move, .moved move ∈ calls → ∀ file, DevReader.On content node file →
      DevReader.On content node (move file)) :
    Ends (fun w : World Event => w.content env node = content)
      (SliceCursor.trace (devHandle Event env) calls (.new reader start len))
      fun result w => w.content env node = content ∧ Chained 0 calls result.1 ∧
        (∀ seen ∈ result.1, seen.Guarded content start len) ∧
        ((∀ seen ∈ result.1, seen.Plain (slice content start len)) ↔
          ∀ seen ∈ result.1, seen.InRange len) := by
  have on : (SliceCursor.new reader start len).On (DevReader.On content node) start len :=
    ⟨opened, rfl, rfl⟩
  apply (SliceCursor.trace_ends (devHandle_over copies node) within small calls keeps on).weaken
    (fun _ held => held)
  rintro ⟨observed, last⟩ w ⟨⟨chained, kept⟩, held⟩
  refine ⟨held, chained, fun seen member => (kept seen member).guarded, ?_⟩
  constructor
  · intro plain seen member
    exact (kept seen member).plain.mp (plain seen member)
  · intro inRange seen member
    exact (kept seen member).plain.mpr (inRange seen member)

/-- Reads around a foreign move of the handle, and seeks inside of the window, beyond
its end and before its start. -/
def smallCalls : List (Call DevReader) :=
  [.read 1, .moved (DevReader.disturb 3), .read 5, .seek (.start 1), .read 1, .seek (.current 7),
    .read 1, .seek (.fromEnd (-1)), .read 1, .seek (.current (-9)), .write [9]]

theorem sliceCursor_plain_small :
    Ends (fun w : World Nat => w.content Copying.dd (.image "disk.raw") = [1, 2, 3])
      (SliceCursor.trace (devHandle Nat Copying.dd) smallCalls
        (.new (.file (.image "disk.raw") 0) 1 2))
      fun result w => w.content Copying.dd (.image "disk.raw") = [1, 2, 3] ∧
        Chained 0 smallCalls result.1 ∧
        (∀ seen ∈ result.1, seen.Guarded [1, 2, 3] 1 2) ∧
        ((∀ seen ∈ result.1, seen.Plain (slice [1, 2, 3] 1 2)) ↔
          ∀ seen ∈ result.1, seen.InRange 2) := by
  refine sliceCursor_plain_iff Copying.dd_copies [1, 2, 3] (by decide) (.image "disk.raw")
    (.file (.image "disk.raw") 0) rfl 1 2 (by decide) smallCalls ?_
  intro move member file on
  have same : move = DevReader.disturb 3 := by simpa [smallCalls] using member
  subst same
  cases file with
  | file here pos => exact on
  | «sudo» s => exact on

/-- One step beyond the largest position a cursor fails; this one is back at its start. -/
theorem wrapping_seek_not_plain :
    ¬ ∀ (env : Env), env.Copies → ∀ (content : Bytes), content.length < u64Bound →
      ∀ (node : Node) (reader : DevReader), reader.On content node → ∀ (start len : Nat),
        start + len ≤ content.length → ∀ calls : List (Call DevReader),
          (∀ move, .moved move ∈ calls → ∀ file, DevReader.On content node file →
            DevReader.On content node (move file)) →
          Ends (fun w : World Nat => w.content env node = content)
            (SliceCursor.trace (devHandle Nat env) calls (.new reader start len))
            fun result _ => ∀ seen ∈ result.1, seen.Plain (slice content start len) := by
  intro plain
  have ends := plain Copying.dd Copying.dd_copies [1, 2, 3] (by decide) (.image "disk.raw")
    (.file (.image "disk.raw") 0) rfl 1 2 (by decide)
    [.seek (.start (u64Bound - 1)), .seek (.current 1)] (by simp)
  have idle : World Nat := ⟨0, fun _ => [], fun _ => none, fun _ => false, [], [], false, [], false, []⟩
  obtain ⟨value, after, cost, run, all⟩ := ends idle rfl
  obtain ⟨left, _, returned⟩ := run cost (Nat.le_refl _)
  have computed : SliceCursor.trace (devHandle Nat Copying.dd)
      [.seek (.start (u64Bound - 1)), .seek (.current 1)]
      (.new (.file (.image "disk.raw") 0) 1 2) idle cost =
        .ok ([⟨.seek (.start (u64Bound - 1)), 0, .seek (.ok (u64Bound - 1)), u64Bound - 1⟩,
          ⟨.seek (.current 1), u64Bound - 1, .seek (.ok 0), 0⟩],
          ⟨.file (.image "disk.raw") 0, 1, 2, 0⟩) idle cost := rfl
  rw [computed] at returned
  cases returned
  have second := all ⟨.seek (.current 1), u64Bound - 1, .seek (.ok 0), 0⟩ (by simp)
  obtain ⟨answer, same, seeks⟩ := second
  cases same
  unfold CursorSeek at seeks
  dsimp only at seeks
  rw [if_pos (Or.inr (by decide))] at seeks
  obtain ⟨⟨text, failed⟩, _⟩ := seeks
  cases failed

end Nixnas.Tui.Sudo
