import Mathlib.Algebra.Group.Nat.Defs
import Nixnas.Logic.Sharing
import Nixnas.Tui.SudoStream

/-!
# A reader and its clone

`DevReader::try_clone` of `src/tui/src/sudo.rs` is to give an independent handle.
A `SudoReader` is copied, so that it does.  A `File` is duplicated by `dup(2)`,
and both descriptors go on with one offset.

The environment answers alike in all the runs that are compared: nothing fails,
a `dd` copies its range, and one `read(2)` moves the same number of bytes at most.
-/

set_option autoImplicit false

namespace Nixnas.Tui.Sudo

open Nixnas.Logic Nixnas.Logic.Action
open Nixnas.Rust

variable {Event α : Type}

/-! ## Seeking -/

/-- The last position that a seek can lead to. -/
def lseekLimit (len : Nat) : Node → Nat
  | .device _ => len
  | .image _ => 2 ^ 63 - 1

/-- `lseek(2)`: a position before the start or beyond the limit is refused. -/
def SeekFrom.refused (node : Node) (len pos : Nat) (whence : SeekFrom) : Bool :=
  whence.target len pos < 0 || lseekLimit len node < whence.target len pos

def lseek (node : Node) (len pos : Nat) (whence : SeekFrom) : Except IoError Nat × Nat :=
  if SeekFrom.refused node len pos whence then
    (.error ⟨.invalidInput, "Invalid argument (os error 22)"⟩, pos)
  else (.ok (whence.target len pos).toNat, (whence.target len pos).toNat)

/-- `Seek::seek`. -/
def DevReader.seek (env : Env) (whence : SeekFrom) :
    DevReader → Io (World Event) (Except IoError Nat × DevReader)
  | .file node pos =>
      call env fun reply w =>
        match reply.error with
        | some e => (.ok (.error e, .file node pos), w)
        | none =>
            let moved := lseek node (w.content env node).length pos whence
            (.ok (moved.1, .file node moved.2), w)
  | .sudo s =>
      let moved := s.seek whence
      pure (moved.1, .sudo moved.2)

/-! ## Accesses -/

/-- What is seen of an access, and the position that the handle is left at. -/
structure Answer where
  chunk : Bytes
  result : Except IoError Nat
  pos : Nat

def DevReader.access (env : Env) (reader : DevReader) :
    Access → Io (World Event) (Answer × DevReader)
  | .read size => do
      let (chunk, next) ← reader.read env size
      pure (⟨chunk, .ok chunk.length, next.pos⟩, next)
  | .seek whence => do
      let (answer, next) ← reader.seek env whence
      pure (⟨[], answer, next.pos⟩, next)

def DevReader.accesses (env : Env) :
    List Access → DevReader → Io (World Event) (List Answer × DevReader)
  | [], reader => pure ([], reader)
  | access :: rest, reader => do
      let (seen, next) ← reader.access env access
      let (more, last) ← DevReader.accesses env rest next
      pure (seen :: more, last)

/-! ## Two handles -/

inductive Side where
  | original
  | clone
  deriving DecidableEq, Repr

structure Handles where
  original : DevReader
  clone : DevReader

def Handles.handle (h : Handles) : Side → DevReader
  | .original => h.original
  | .clone => h.clone

/-- An access of one handle; the descriptors of a file share its offset. -/
def Handles.access (env : Env) (h : Handles) (side : Side) (access : Access) :
    Io (World Event) (Answer × Handles) :=
  match side with
  | .original => do
      let (seen, next) ← h.original.access env access
      pure (seen, ⟨next, h.clone.disturb next.pos⟩)
  | .clone => do
      let (seen, next) ← h.clone.access env access
      pure (seen, ⟨h.original.disturb next.pos, next⟩)

def Handles.accesses (env : Env) :
    List (Side × Access) → Handles → Io (World Event) (List (Side × Answer) × Handles)
  | [], h => pure ([], h)
  | (side, access) :: rest, h => do
      let (seen, next) ← h.access env side access
      let (more, last) ← Handles.accesses env rest next
      pure ((side, seen) :: more, last)

/-- What `open_reader` returns for a node of this size. -/
def DevReader.opened (elev : Elevation) (node : Node) (len : Nat) : DevReader :=
  match elev with
  | .root => .file node 0
  | .sudo _ => .sudo (SudoReader.new node len)

/-- A handle is read through, then cloned, then both are used. -/
def together (env : Env) (reader : DevReader) (earlier : List Access)
    (accesses : List (Side × Access)) : Io (World Event) (List (Side × Answer)) := do
  let (_, reader) ← reader.accesses env earlier
  let clone ← reader.tryClone env
  let (seen, _) ← Handles.accesses env accesses ⟨reader, clone⟩
  pure seen

/-- The same with one of the handles only. -/
def onlyOne (env : Env) (reader : DevReader) (earlier : List Access) (side : Side)
    (accesses : List Access) : Io (World Event) (List Answer) := do
  let (_, reader) ← reader.accesses env earlier
  let clone ← reader.tryClone env
  let (seen, _) ← (Handles.handle ⟨reader, clone⟩ side).accesses env accesses
  pure seen

def Sees (action : Io (World Event) α) (w : World Event) (value : α) : Prop :=
  ∃ after cost, Runs action w value after cost

/-- On each handle the same is observed as if the other one were not used. -/
def Independent (env : Env) (w : World Event) (reader : DevReader) (earlier : List Access)
    (accesses : List (Side × Access)) : Prop :=
  ∀ side, ∃ seen, Sees (together env reader earlier accesses) w seen ∧
    Sees (onlyOne env reader earlier side (partOf side accesses)) w (partOf side seen)

/-! ## The cursors -/

/-- What an access of a file finds at an offset, where a `read(2)` moves up to `most`
bytes. -/
def fileLook (node : Node) (content : Bytes) (most pos : Nat) : Access → Answer
  | .read size =>
      let chunk := readSome (content.drop pos) size most
      ⟨chunk, .ok chunk.length, pos + chunk.length⟩
  | .seek whence =>
      let moved := lseek node content.length pos whence
      ⟨[], moved.1, moved.2⟩

/-- How much a read through `sudo dd` gets: all that is wanted, or what is left of a
block. -/
def sudoCount (len pos size : Nat) : Nat :=
  let want := min size (len - pos)
  if blockSize ≤ want then want else min (blockSize - pos % blockSize) want

def sudoLook (node : Node) (content : Bytes) (pos : Nat) : Access → Answer
  | .read size =>
      let chunk := (content.drop pos).take (sudoCount content.length pos size)
      ⟨chunk, .ok chunk.length, pos + chunk.length⟩
  | .seek whence =>
      let moved := { SudoReader.new node content.length with pos := pos }.seek whence
      ⟨[], moved.1, moved.2.pos⟩

def deviceCursor (elev : Elevation) (node : Node) (content : Bytes) (most : Nat) :
    Cursor Nat Access Answer where
  look :=
    match elev with
    | .root => fileLook node content most
    | .sudo _ => sudoLook node content
  leads := Answer.pos

/-! ## A read through `sudo dd` -/

section Intact

variable {env : Env} {content : Bytes} {node : Node} {most : Nat}

/-- The cache is empty or the whole block that it starts. -/
structure SudoReader.Intact (content : Bytes) (node : Node) (s : SudoReader) : Prop where
  node : s.node = node
  len : s.len = content.length
  cache : s.cache = [] ∨
    s.cacheStart % blockSize = 0 ∧ s.cache = (content.drop s.cacheStart).take blockSize

theorem SudoReader.intact_new : (SudoReader.new node content.length).Intact content node :=
  ⟨rfl, rfl, Or.inl rfl⟩

theorem ddRange_copies (copies : env.Copies) (off len : Nat) :
    Ends (fun w : World Event => w.content env node = content) (ddRange env node off len)
      fun bytes w => bytes = (content.drop off).take len ∧ w.content env node = content := by
  apply Ends.bind fun _ w => w.content env node = content
  · apply call_ends
    intro w held
    simp only [copies.answers]
    exact ⟨_, _, rfl, held⟩
  · intro _
    apply call_ends
    intro w held
    simp only [copies.answers, copies.success, copies.range, if_true, Nat.sub_zero, List.take_length]
    exact ⟨_, _, rfl, congrArg (fun bytes => (List.drop off bytes).take len) held, held⟩

/-- The cache holds the block of the position. -/
theorem SudoReader.refill_ends (copies : env.Copies) {s : SudoReader}
    (intact : s.Intact content node) :
    Ends (fun w : World Event => w.content env node = content) (s.refill env)
      fun next w => (next = { s with
          cache := (content.drop (s.pos - s.pos % blockSize)).take blockSize
          cacheStart := s.pos - s.pos % blockSize }) ∧ w.content env node = content := by
  obtain ⟨isNode, isLen, cache⟩ := intact
  unfold SudoReader.refill
  by_cases hit : s.cacheStart ≤ s.pos ∧ s.pos < s.cacheStart + s.cache.length
  · rw [if_pos hit]
    apply Ends.pure
    intro w held
    refine ⟨?_, held⟩
    rcases cache with empty | ⟨aligned, whole⟩
    · rw [empty, List.length_nil] at hit
      omega
    · have short : s.cache.length ≤ blockSize := by
        rw [whole]
        exact List.length_take_le _ _
      have start : s.cacheStart = s.pos - s.pos % blockSize := by
        simp only [blockSize] at aligned short ⊢
        omega
      rw [← start, ← whole]
  · rw [if_neg hit, isNode, isLen]
    apply Ends.bind _ (ddRange_copies copies _ _)
    intro block
    apply Ends.pure
    intro w fetched
    obtain ⟨rfl, held⟩ := fetched
    refine ⟨?_, held⟩
    have same : (content.drop (s.pos - s.pos % blockSize)).take
        (min blockSize (content.length - (s.pos - s.pos % blockSize))) =
          (content.drop (s.pos - s.pos % blockSize)).take blockSize := by
      rw [← List.length_drop, List.take_eq_take_iff]
      omega
    rw [same]

/-- From the block of the position a read gets what is wanted of it. -/
theorem SudoReader.fromCache_block {s : SudoReader} {want : Nat} (inside : s.pos < content.length)
    (wanted : want ≤ content.length - s.pos)
    (start : s.cacheStart = s.pos - s.pos % blockSize)
    (block : s.cache = (content.drop s.cacheStart).take blockSize) :
    (s.fromCache want).1 = (content.drop s.pos).take (min (blockSize - s.pos % blockSize) want) ∧
      (s.fromCache want).2 = { s with pos := s.pos + (s.fromCache want).1.length } := by
  have inBlock : s.pos % blockSize < blockSize := Nat.mod_lt _ (by decide)
  have below : s.pos % blockSize ≤ s.pos := Nat.mod_le _ _
  have offset : s.pos - s.cacheStart = s.pos % blockSize := by omega
  have length : s.cache.length = min blockSize (content.length - s.cacheStart) := by
    rw [block, List.length_take, List.length_drop]
  have count : min (s.cache.length - s.pos % blockSize) want =
      min (blockSize - s.pos % blockSize) want := by omega
  have chunk : (s.cache.drop (s.pos % blockSize)).take (min (blockSize - s.pos % blockSize) want) =
      (content.drop s.pos).take (min (blockSize - s.pos % blockSize) want) := by
    rw [block, List.drop_take, List.take_take, List.drop_drop,
      Nat.min_eq_left (Nat.min_le_left _ _), show s.cacheStart + s.pos % blockSize = s.pos by omega]
  have got : s.fromCache want = ((content.drop s.pos).take (min (blockSize - s.pos % blockSize) want),
      { s with pos := s.pos + min (blockSize - s.pos % blockSize) want }) := by
    have more : ¬ s.cache.length ≤ s.pos % blockSize := by omega
    unfold SudoReader.fromCache
    simp only [offset, if_neg more, count, chunk]
  have moved : ((content.drop s.pos).take (min (blockSize - s.pos % blockSize) want)).length =
      min (blockSize - s.pos % blockSize) want := by
    rw [List.length_take, List.length_drop]
    omega
  rw [got]
  exact ⟨rfl, by rw [moved]⟩

/-- What a read gets is decided by its place. -/
theorem SudoReader.read_looks (copies : env.Copies) {s : SudoReader}
    (intact : s.Intact content node) (size : Nat) :
    Ends (fun w : World Event => w.content env node = content) (s.read env size)
      fun result w => (result.1 = (content.drop s.pos).take (sudoCount content.length s.pos size) ∧
        result.2.Intact content node ∧ result.2.pos = s.pos + result.1.length) ∧
          w.content env node = content := by
  have isNode := intact.node
  have isLen := intact.len
  unfold SudoReader.read sudoCount
  rw [isLen]
  by_cases past : content.length ≤ s.pos
  · rw [if_pos past]
    apply Ends.pure
    intro w held
    refine ⟨⟨?_, intact, rfl⟩, held⟩
    rw [List.drop_eq_nil_of_le past, List.take_nil]
  · rw [if_neg past]
    dsimp only
    by_cases none : min size (content.length - s.pos) = 0
    · rw [if_pos none]
      apply Ends.pure
      intro w held
      refine ⟨⟨?_, intact, rfl⟩, held⟩
      simp only [none, Nat.min_zero, ite_self, List.take_zero]
    · rw [if_neg none]
      by_cases large : blockSize ≤ min size (content.length - s.pos)
      · simp only [if_pos large, isNode]
        apply Ends.bind _ (ddRange_copies copies _ _)
        intro data
        apply Ends.pure
        intro w fetched
        obtain ⟨rfl, held⟩ := fetched
        have short : ((content.drop s.pos).take (min size (content.length - s.pos))).length ≤
            min size (content.length - s.pos) := List.length_take_le _ _
        rw [Nat.min_eq_left short, List.take_length]
        exact ⟨⟨rfl, ⟨rfl, rfl, intact.cache⟩, rfl⟩, held⟩
      · simp only [if_neg large]
        apply Ends.bind _ (SudoReader.refill_ends copies intact)
        intro filled
        apply Ends.pure
        intro w fetched
        obtain ⟨rfl, held⟩ := fetched
        have aligned : (s.pos - s.pos % blockSize) % blockSize = 0 := by
          simp only [blockSize]
          omega
        obtain ⟨chunk, next⟩ := SudoReader.fromCache_block
          (s := { s with
            cache := (content.drop (s.pos - s.pos % blockSize)).take blockSize
            cacheStart := s.pos - s.pos % blockSize })
          (Nat.lt_of_not_le past) (Nat.min_le_right size (content.length - s.pos)) rfl rfl
        rw [next]
        exact ⟨⟨chunk, ⟨isNode, isLen, Or.inr ⟨aligned, rfl⟩⟩, rfl⟩, held⟩

/-! ## What each access finds -/

/-- The handle stands at a position of the node. -/
def DevReader.Stands (content : Bytes) (node : Node) (pos : Nat) (elev : Elevation)
    (reader : DevReader) : Prop :=
  match elev with
  | .root => reader = .file node pos
  | .sudo _ => ∃ s : SudoReader, reader = .sudo s ∧ s.Intact content node ∧ s.pos = pos

theorem DevReader.stands_opened (content : Bytes) (node : Node) (elev : Elevation) :
    (DevReader.opened elev node content.length).Stands content node 0 elev := by
  cases elev with
  | root => rfl
  | «sudo» _ => exact ⟨_, rfl, SudoReader.intact_new, rfl⟩

theorem DevReader.Stands.pos {elev : Elevation} {pos : Nat} {reader : DevReader}
    (stands : reader.Stands content node pos elev) : reader.pos = pos := by
  cases elev with
  | root =>
      cases stands
      rfl
  | «sudo» _ =>
      obtain ⟨s, rfl, _, rfl⟩ := stands
      rfl

theorem file_access (copies : env.Copies) (steady : ∀ n, (env.reply n).count = most) (pos : Nat)
    (access : Access) :
    Ends (fun w : World Event => w.content env node = content)
      ((DevReader.file node pos).access env access)
      fun result w => result = (fileLook node content most pos access,
        DevReader.file node (fileLook node content most pos access).pos) ∧
          w.content env node = content := by
  cases access with
  | read size =>
      have got : Ends (fun w : World Event => w.content env node = content)
          (readFile env node pos size)
          fun chunk w => chunk = readSome (content.drop pos) size most ∧
            w.content env node = content := by
        apply call_ends
        intro w held
        simp only [copies.answers, steady]
        exact ⟨_, _, rfl, congrArg (fun bytes => readSome (List.drop pos bytes) size most) held,
          held⟩
      have reads : Ends (fun w : World Event => w.content env node = content)
          ((DevReader.file node pos).read env size)
          fun result w => result = (readSome (content.drop pos) size most,
            DevReader.file node (pos + (readSome (content.drop pos) size most).length)) ∧
              w.content env node = content := by
        apply Ends.bind _ got
        intro chunk
        apply Ends.pure
        rintro w ⟨rfl, held⟩
        exact ⟨rfl, held⟩
      apply Ends.bind _ reads
      intro result
      apply Ends.pure
      rintro w ⟨rfl, held⟩
      exact ⟨rfl, held⟩
  | seek whence =>
      have moves : Ends (fun w : World Event => w.content env node = content)
          ((DevReader.file node pos).seek env whence)
          fun result w => result = ((lseek node content.length pos whence).1,
            DevReader.file node (lseek node content.length pos whence).2) ∧
              w.content env node = content := by
        unfold DevReader.seek
        apply call_ends
        intro w held
        have same : World.content env { w with clock := w.clock + 1 } node = content := held
        simp only [copies.answers, same]
        exact ⟨_, _, rfl, rfl, held⟩
      apply Ends.bind _ moves
      intro result
      apply Ends.pure
      rintro w ⟨rfl, held⟩
      exact ⟨rfl, held⟩

/-- A seek looks at the position and the length only. -/
theorem SudoReader.seek_looks {s : SudoReader} (intact : s.Intact content node)
    (whence : SeekFrom) :
    (s.seek whence).1 = (sudoLook node content s.pos (.seek whence)).result ∧
      (s.seek whence).2.Intact content node ∧
        (s.seek whence).2.pos = (sudoLook node content s.pos (.seek whence)).pos := by
  simp only [sudoLook, SudoReader.seek, SudoReader.new, intact.len]
  by_cases before : whence.target content.length s.pos < 0
  · simp only [before, if_true]
    exact ⟨trivial, intact, trivial⟩
  · simp only [before, if_false]
    exact ⟨trivial, ⟨intact.node, rfl, intact.cache⟩, trivial⟩

theorem sudo_access (copies : env.Copies) {s : SudoReader} (intact : s.Intact content node)
    (access : Access) :
    Ends (fun w : World Event => w.content env node = content)
      ((DevReader.sudo s).access env access)
      fun result w => (result.1 = sudoLook node content s.pos access ∧
        ∃ next : SudoReader, result.2 = .sudo next ∧ next.Intact content node ∧
          next.pos = result.1.pos) ∧ w.content env node = content := by
  cases access with
  | read size =>
      have reads : Ends (fun w : World Event => w.content env node = content)
          ((DevReader.sudo s).read env size)
          fun result w =>
            (result.1 = (content.drop s.pos).take (sudoCount content.length s.pos size) ∧
              ∃ next : SudoReader, result.2 = .sudo next ∧ next.Intact content node ∧
                next.pos = s.pos + result.1.length) ∧ w.content env node = content := by
        apply Ends.bind _ (SudoReader.read_looks copies intact size)
        intro result
        apply Ends.pure
        rintro w ⟨⟨isChunk, kept, moved⟩, held⟩
        exact ⟨⟨isChunk, result.2, rfl, kept, moved⟩, held⟩
      apply Ends.bind _ reads
      intro result
      obtain ⟨chunk, reader⟩ := result
      apply Ends.pure
      rintro w ⟨⟨rfl, next, rfl, kept, moved⟩, held⟩
      refine ⟨⟨?_, next, rfl, kept, rfl⟩, held⟩
      simp only [sudoLook, DevReader.pos, moved]
  | seek whence =>
      obtain ⟨answer, kept, moved⟩ := SudoReader.seek_looks intact whence
      have moves : Ends (fun w : World Event => w.content env node = content)
          ((DevReader.sudo s).seek env whence)
          fun result w => result = ((s.seek whence).1, DevReader.sudo (s.seek whence).2) ∧
            w.content env node = content := Ends.pure fun w held => ⟨rfl, held⟩
      apply Ends.bind _ moves
      intro result
      apply Ends.pure
      rintro w ⟨rfl, held⟩
      refine ⟨⟨?_, _, rfl, kept, rfl⟩, held⟩
      simp only [DevReader.pos, answer, moved]
      rfl

variable {elev : Elevation} {pos : Nat} {reader : DevReader}

theorem DevReader.Stands.access (copies : env.Copies) (steady : ∀ n, (env.reply n).count = most)
    (stands : reader.Stands content node pos elev) (access : Access) :
    Ends (fun w : World Event => w.content env node = content) (reader.access env access)
      fun result w => (result.1 = (deviceCursor elev node content most).look pos access ∧
        result.2.Stands content node result.1.pos elev) ∧ w.content env node = content := by
  cases elev with
  | root =>
      rw [show reader = .file node pos from stands]
      apply (file_access copies steady pos access).weaken (fun _ held => held)
      rintro result w ⟨rfl, held⟩
      exact ⟨⟨rfl, rfl⟩, held⟩
  | «sudo» _ =>
      obtain ⟨s, rfl, intact, rfl⟩ := stands
      exact sudo_access copies intact access

/-- A handle that is used alone is the cursor; by induction on the accesses. -/
theorem DevReader.Stands.accesses (copies : env.Copies)
    (steady : ∀ n, (env.reply n).count = most) (accesses : List Access)
    (stands : reader.Stands content node pos elev) :
    Ends (fun w : World Event => w.content env node = content) (reader.accesses env accesses)
      fun result w => (result.1 = (deviceCursor elev node content most).alone pos accesses ∧
        result.2.Stands content node ((deviceCursor elev node content most).after pos accesses) elev) ∧
          w.content env node = content := by
  induction accesses generalizing reader pos with
  | nil => exact Ends.pure fun w held => ⟨⟨rfl, stands⟩, held⟩
  | cons access rest ih =>
      apply Ends.bind _ (stands.access copies steady access)
      intro first
      apply Ends.assume
      rintro ⟨found, stands'⟩
      apply Ends.bind _ (ih stands')
      intro more
      apply Ends.pure
      rintro w ⟨⟨seen, last⟩, held⟩
      rw [found] at seen last
      refine ⟨⟨?_, last⟩, held⟩
      simp only [seen, found]
      rfl

theorem DevReader.Stands.tryClone (copies : env.Copies)
    (stands : reader.Stands content node pos elev) :
    Ends (fun w : World Event => w.content env node = content) (reader.tryClone env)
      fun clone w => clone.Stands content node pos elev ∧ w.content env node = content := by
  cases elev with
  | root =>
      rw [show reader = .file node pos from stands]
      apply Ends.bind fun _ w => w.content env node = content
      · apply call_ends
        intro w held
        simp only [copies.answers]
        exact ⟨_, _, rfl, held⟩
      · exact fun _ => Ends.pure fun w held => ⟨rfl, held⟩
  | «sudo» _ =>
      obtain ⟨s, rfl, intact, rfl⟩ := stands
      exact Ends.pure fun w held => ⟨⟨_, rfl, ⟨intact.node, intact.len, Or.inl rfl⟩, rfl⟩, held⟩

/-! ## Both handles -/

/-- The descriptors of a file have one offset. -/
theorem file_accesses (copies : env.Copies) (steady : ∀ n, (env.reply n).count = most)
    (accesses : List (Side × Access)) (pos : Nat) :
    Ends (fun w : World Event => w.content env node = content)
      (Handles.accesses env accesses ⟨.file node pos, .file node pos⟩)
      fun result w => result.1 = (deviceCursor .root node content most).shared pos accesses ∧
        w.content env node = content := by
  induction accesses generalizing pos with
  | nil => exact Ends.pure fun w held => ⟨rfl, held⟩
  | cons entry rest ih =>
      obtain ⟨side, access⟩ := entry
      have first : Ends (fun w : World Event => w.content env node = content)
          (Handles.access env ⟨.file node pos, .file node pos⟩ side access)
          fun result w => result = (fileLook node content most pos access,
            ⟨.file node (fileLook node content most pos access).pos,
              .file node (fileLook node content most pos access).pos⟩) ∧
                w.content env node = content := by
        cases side with
        | original | clone =>
            apply Ends.bind _ (file_access copies steady pos access)
            intro result
            apply Ends.pure
            rintro w ⟨rfl, held⟩
            exact ⟨rfl, held⟩
      apply Ends.bind _ first
      intro result
      apply Ends.assume
      rintro rfl
      apply Ends.bind _ (ih (fileLook node content most pos access).pos)
      intro more
      apply Ends.pure
      rintro w ⟨seen, held⟩
      refine ⟨?_, held⟩
      simp only [seen]
      rfl

theorem DevReader.Stands.disturb {password : String}
    (stands : reader.Stands content node pos (.sudo password)) (moved : Nat) :
    reader.disturb moved = reader := by
  obtain ⟨s, rfl, _, _⟩ := stands
  rfl

/-- An access of one of two readers leaves the other where it stands. -/
theorem sudo_handles (copies : env.Copies) (steady : ∀ n, (env.reply n).count = most)
    {password : String} {positions : Side → Nat} {h : Handles}
    (stands : ∀ side, (h.handle side).Stands content node (positions side) (.sudo password))
    (side : Side) (access : Access) :
    Ends (fun w : World Event => w.content env node = content) (h.access env side access)
      fun result w => (result.1 = sudoLook node content (positions side) access ∧
        ∀ other, (result.2.handle other).Stands content node
          (Function.update positions side result.1.pos other) (.sudo password)) ∧
            w.content env node = content := by
  cases side with
  | original =>
      apply Ends.bind _ ((stands .original).access copies steady access)
      intro result
      apply Ends.pure
      rintro w ⟨⟨found, next⟩, held⟩
      refine ⟨⟨found, fun other => ?_⟩, held⟩
      cases other with
      | original => exact next
      | clone =>
          have kept := (stands .clone).disturb result.2.pos
          simp only [Handles.handle] at kept ⊢
          rw [kept]
          exact stands .clone
  | clone =>
      apply Ends.bind _ ((stands .clone).access copies steady access)
      intro result
      apply Ends.pure
      rintro w ⟨⟨found, next⟩, held⟩
      refine ⟨⟨found, fun other => ?_⟩, held⟩
      cases other with
      | clone => exact next
      | original =>
          have kept := (stands .original).disturb result.2.pos
          simp only [Handles.handle] at kept ⊢
          rw [kept]
          exact stands .original

/-- The two readers of a device have an offset each. -/
theorem sudo_accesses (copies : env.Copies) (steady : ∀ n, (env.reply n).count = most)
    {password : String} (accesses : List (Side × Access)) {positions : Side → Nat} {h : Handles}
    (stands : ∀ side, (h.handle side).Stands content node (positions side) (.sudo password)) :
    Ends (fun w : World Event => w.content env node = content) (Handles.accesses env accesses h)
      fun result w =>
        result.1 = (deviceCursor (.sudo password) node content most).apart positions accesses ∧
          w.content env node = content := by
  induction accesses generalizing positions h with
  | nil => exact Ends.pure fun w held => ⟨rfl, held⟩
  | cons entry rest ih =>
      obtain ⟨side, access⟩ := entry
      apply Ends.bind _ (sudo_handles copies steady stands side access)
      intro result
      apply Ends.assume
      rintro ⟨found, stands⟩
      apply Ends.bind _ (ih stands)
      intro more
      apply Ends.pure
      rintro w ⟨seen, held⟩
      refine ⟨?_, held⟩
      simp only [seen, found]
      rfl

/-- What both handles together observe. -/
def bothSeen (elev : Elevation) (node : Node) (content : Bytes) (most pos : Nat)
    (accesses : List (Side × Access)) : List (Side × Answer) :=
  match elev with
  | .root => (deviceCursor .root node content most).shared pos accesses
  | .sudo password => (deviceCursor (.sudo password) node content most).apart (fun _ => pos) accesses

/-- What is done with a handle and its clone finds both where the first was left. -/
theorem cloned_ends {β : Type} {ok : β → World Event → Prop} (copies : env.Copies)
    (steady : ∀ n, (env.reply n).count = most) (elev : Elevation) (node : Node) (content : Bytes)
    (earlier : List Access) (use : Handles → Io (World Event) β)
    (uses : ∀ handles : Handles,
      (∀ side, (handles.handle side).Stands content node
        ((deviceCursor elev node content most).after 0 earlier) elev) →
      Ends (fun w => w.content env node = content) (use handles) ok) :
    Ends (fun w : World Event => w.content env node = content)
      (do
        let (_, reader) ← (DevReader.opened elev node content.length).accesses env earlier
        let clone ← reader.tryClone env
        use ⟨reader, clone⟩) ok := by
  apply Ends.bind _ ((DevReader.stands_opened content node elev).accesses copies steady earlier)
  intro result
  apply Ends.assume
  rintro ⟨-, stands⟩
  apply Ends.bind _ (stands.tryClone copies)
  intro clone
  apply Ends.assume
  intro cloned
  apply uses
  intro side
  cases side with
  | original => exact stands
  | clone => exact cloned

theorem together_ends (copies : env.Copies) (steady : ∀ n, (env.reply n).count = most)
    (elev : Elevation) (node : Node) (content : Bytes) (earlier : List Access)
    (accesses : List (Side × Access)) :
    Ends (fun w : World Event => w.content env node = content)
      (together env (.opened elev node content.length) earlier accesses)
      fun seen _ => seen = bothSeen elev node content most
        ((deviceCursor elev node content most).after 0 earlier) accesses := by
  apply cloned_ends copies steady elev node content earlier fun handles => do
    let (seen, _) ← Handles.accesses env accesses handles
    pure seen
  intro handles both
  cases elev with
  | root =>
      have original : handles.original = .file node _ := both .original
      have clone : handles.clone = .file node _ := both .clone
      obtain ⟨_, _⟩ := handles
      subst original clone
      apply Ends.bind _ (file_accesses copies steady accesses _)
      intro seen
      exact Ends.pure fun w met => met.1
  | «sudo» password =>
      apply Ends.bind _ (sudo_accesses copies steady accesses both)
      intro seen
      exact Ends.pure fun w met => met.1

theorem onlyOne_ends (copies : env.Copies) (steady : ∀ n, (env.reply n).count = most)
    (elev : Elevation) (node : Node) (content : Bytes) (earlier : List Access) (side : Side)
    (accesses : List Access) :
    Ends (fun w : World Event => w.content env node = content)
      (onlyOne env (.opened elev node content.length) earlier side accesses)
      fun seen _ => seen = (deviceCursor elev node content most).alone
        ((deviceCursor elev node content most).after 0 earlier) accesses := by
  apply cloned_ends copies steady elev node content earlier fun handles => do
    let (seen, _) ← (handles.handle side).accesses env accesses
    pure seen
  intro handles both
  apply Ends.bind _ ((both side).accesses copies steady accesses)
  intro seen
  exact Ends.pure fun w met => met.1.1

theorem Sees.unique {action : Io (World Event) α} {w : World Event} {value other : α}
    (sees : Sees action w value) (again : Sees action w other) : value = other := by
  obtain ⟨_, _, run⟩ := sees
  obtain ⟨_, _, run'⟩ := again
  exact (run.unique run').1

theorem sees_of_ends {action : Io (World Event) α} {w : World Event} {value : α}
    {before : World Event → Prop} (ends : Ends before action fun seen _ => seen = value)
    (holds : before w) : Sees action w value := by
  obtain ⟨_, after, cost, run, rfl⟩ := ends w holds
  exact ⟨after, cost, run⟩

/-- The handles do not notice each other where the cursors do not. -/
theorem independent_iff (copies : env.Copies) (steady : ∀ n, (env.reply n).count = most)
    (elev : Elevation) (node : Node) (w : World Event) (earlier : List Access)
    (accesses : List (Side × Access)) :
    Independent env w (.opened elev node (w.content env node).length) earlier accesses ↔
      ∀ side, partOf side (bothSeen elev node (w.content env node) most
          ((deviceCursor elev node (w.content env node) most).after 0 earlier) accesses) =
        (deviceCursor elev node (w.content env node) most).alone
          ((deviceCursor elev node (w.content env node) most).after 0 earlier)
          (partOf side accesses) := by
  have both := sees_of_ends (together_ends copies steady elev node (w.content env node) earlier
    accesses) (rfl : w.content env node = w.content env node)
  have one := fun side => sees_of_ends (onlyOne_ends copies steady elev node (w.content env node)
    earlier side (partOf side accesses)) (rfl : w.content env node = w.content env node)
  constructor
  · intro independent side
    obtain ⟨seen, together, only⟩ := independent side
    rw [← both.unique together] at only
    exact only.unique (one side)
  · intro same side
    refine ⟨_, both, ?_⟩
    rw [same side]
    exact one side

end Intact

/-! ## The offset -/

/-- A seek that looks at no offset and is not refused. -/
def Absolute (node : Node) (len : Nat) : Access → Prop
  | .seek (.start offset) => SeekFrom.refused node len 0 (.start offset) = false
  | .seek (.fromEnd offset) => SeekFrom.refused node len 0 (.fromEnd offset) = false
  | .seek (.current _) | .read _ => False

/-- Where an access of a file takes its offset. -/
def moveOffset (node : Node) (len most offset : Nat) : Access → Nat
  | .read size => offset + min (min size (max 1 most)) (len - offset)
  | .seek whence =>
      if SeekFrom.refused node len offset whence then offset else (whence.target len offset).toNat

/-- Every access through a descriptor finds the offset where the last access through
the same descriptor left it, or looks at no offset. -/
def OffsetKept (node : Node) (len most : Nat) : (Side → Nat) → Nat → List (Side × Access) → Prop
  | _, _, [] => True
  | left, offset, (side, access) :: rest =>
      (offset = left side ∨ Absolute node len access) ∧
        OffsetKept node len most
          (Function.update left side (moveOffset node len most offset access))
          (moveOffset node len most offset access) rest

theorem fileLook_pos (node : Node) (content : Bytes) (most pos : Nat) (access : Access) :
    (fileLook node content most pos access).pos =
      moveOffset node content.length most pos access := by
  cases access with
  | read size =>
      simp only [fileLook, moveOffset, readSome, List.length_take, List.length_drop]
  | seek whence =>
      simp only [fileLook, moveOffset, lseek]
      split <;> rfl

/-- A refused seek stays; any other leads to its target. -/
theorem lseek_eq_iff (node : Node) (len pos other : Nat) (whence : SeekFrom) :
    lseek node len pos whence = lseek node len other whence ↔
      pos = other ∨ (SeekFrom.refused node len pos whence = false ∧
        SeekFrom.refused node len other whence = false ∧
          whence.target len pos = whence.target len other) := by
  constructor
  · intro same
    unfold lseek at same
    cases here : SeekFrom.refused node len pos whence with
    | true =>
        cases there : SeekFrom.refused node len other whence with
        | true =>
            simp only [here, there, if_true, Prod.mk.injEq, true_and] at same
            exact Or.inl same
        | false => simp [here, there] at same
    | false =>
        cases there : SeekFrom.refused node len other whence with
        | true => simp [here, there] at same
        | false =>
            simp only [here, there, Bool.false_eq_true, if_false, Prod.mk.injEq] at same
            have positive : 0 ≤ whence.target len pos ∧ 0 ≤ whence.target len other := by
              simp only [SeekFrom.refused, Bool.or_eq_false_iff, decide_eq_false_iff_not] at here there
              omega
            exact Or.inr ⟨rfl, rfl, by omega⟩
  · rintro (rfl | ⟨here, there, target⟩)
    · rfl
    · simp only [lseek, here, there, target, Bool.false_eq_true, if_false]

/-- Two offsets give an access the same answer only if they are one, unless it looks
at none. -/
theorem fileLook_eq_iff (node : Node) (content : Bytes) (most pos other : Nat) (access : Access) :
    fileLook node content most pos access = fileLook node content most other access ↔
      pos = other ∨ Absolute node content.length access := by
  have seeks : ∀ whence,
      fileLook node content most pos (.seek whence) = fileLook node content most other (.seek whence) ↔
        lseek node content.length pos whence = lseek node content.length other whence := by
    intro whence
    simp only [fileLook, Answer.mk.injEq, true_and, Prod.ext_iff]
  cases access with
  | read size =>
      simp only [fileLook, Answer.mk.injEq, Absolute, or_false]
      constructor
      · rintro ⟨chunk, -, moved⟩
        rw [chunk] at moved
        omega
      · rintro rfl
        exact ⟨rfl, rfl, rfl⟩
  | seek whence =>
      rw [seeks, lseek_eq_iff]
      cases whence with
      | current offset =>
          simp only [Absolute, or_false, SeekFrom.target]
          constructor
          · rintro (same | ⟨_, _, target⟩)
            · exact same
            · omega
          · exact Or.inl
      | start offset | fromEnd offset =>
          apply or_congr_right
          exact ⟨fun accepted => accepted.1, fun accepted => ⟨accepted, accepted, rfl⟩⟩

theorem unmoved_iff (node : Node) (content : Bytes) (most : Nat) (left : Side → Nat) (pos : Nat)
    (accesses : List (Side × Access)) :
    (deviceCursor .root node content most).Unmoved left pos accesses ↔
      OffsetKept node content.length most left pos accesses := by
  induction accesses generalizing left pos with
  | nil => rfl
  | cons entry rest ih =>
      obtain ⟨side, access⟩ := entry
      simp only [Cursor.Unmoved, OffsetKept, ih]
      simp only [deviceCursor, fileLook_eq_iff, fileLook_pos]

theorem after_eq (node : Node) (content : Bytes) (most pos : Nat) (accesses : List Access) :
    (deviceCursor .root node content most).after pos accesses =
      accesses.foldl (moveOffset node content.length most) pos := by
  induction accesses generalizing pos with
  | nil => rfl
  | cons access rest ih =>
      rw [Cursor.after, ih, List.foldl_cons]
      simp only [deviceCursor, fileLook_pos]

/-- Whatever is on the device, and however the accesses of a handle and of its clone
alternate: two readers through `sudo dd` never notice each other, and the two
descriptors of a file do not as long as each finds the offset where it left it. -/
theorem clones_independent_iff {env : Env} {most : Nat} (copies : env.Copies)
    (steady : ∀ n, (env.reply n).count = most) (elev : Elevation) (node : Node)
    (w : World Event) (earlier : List Access) (accesses : List (Side × Access)) :
    Independent env w (.opened elev node (w.content env node).length) earlier accesses ↔
      (elev = .root →
        OffsetKept node (w.content env node).length most
          (fun _ => earlier.foldl (moveOffset node (w.content env node).length most) 0)
          (earlier.foldl (moveOffset node (w.content env node).length most) 0) accesses) := by
  rw [independent_iff copies steady]
  cases elev with
  | root =>
      simp only [bothSeen, forall_const]
      rw [after_eq, ← unmoved_iff]
      exact Cursor.partOf_shared_iff _ _ _ _
  | «sudo» password =>
      simp only [bothSeen, reduceCtorEq, false_implies, iff_true]
      intro side
      exact Cursor.partOf_apart _ side _ _

/-! ## Three bytes -/

namespace Copying

def idle : World Nat := ⟨0, fun _ => [], fun _ => none, fun _ => false, [], [], false, [], false, []⟩

/-- Each handle reads one byte. -/
def inTurns : List (Side × Access) := [(.original, .read 1), (.clone, .read 1)]

/-- Each handle says where it reads, but for the clone's second byte. -/
def absolute : List (Side × Access) :=
  [(.original, .seek (.start 2)), (.original, .read 1), (.clone, .seek (.start 0)),
    (.clone, .read 1), (.clone, .read 1), (.original, .seek (.fromEnd (-3))), (.original, .read 1)]

end Copying

/-- Two readers through sudo that say nothing of where they read, and two descriptors
of a file that do. -/
theorem clones_independent_iff_both :
    Independent Copying.dd Copying.idle (.opened (.sudo "secret") (.image "disk.raw") 3) []
        Copying.inTurns ∧
      Independent Copying.dd Copying.idle (.opened .root (.image "disk.raw") 3) [.read 1]
        Copying.absolute := by
  constructor
  · exact (clones_independent_iff Copying.dd_copies (fun _ => rfl) (.sudo "secret")
      (.image "disk.raw") Copying.idle [] Copying.inTurns).mpr (by rintro ⟨⟩)
  · refine (clones_independent_iff Copying.dd_copies (fun _ => rfl) .root (.image "disk.raw")
      Copying.idle [.read 1] Copying.absolute).mpr fun _ => ?_
    have len : (Copying.idle.content Copying.dd (.image "disk.raw")).length = 3 := rfl
    rw [len]
    simp [Copying.absolute, OffsetKept, Absolute, SeekFrom.refused, moveOffset, SeekFrom.target,
      lseekLimit, Function.update]

/-- Through two descriptors of one file, the clone is given the second byte. -/
theorem file_clones_not_independent :
    ¬ ∀ (env : Env) (most : Nat), env.Copies → (∀ n, (env.reply n).count = most) →
      ∀ (elev : Elevation) (node : Node) (w : World Nat) (earlier : List Access)
        (accesses : List (Side × Access)),
        Independent env w (.opened elev node (w.content env node).length) earlier accesses := by
  intro always
  have independent := always Copying.dd 1 Copying.dd_copies (fun _ => rfl) .root (.image "disk.raw")
    Copying.idle [] Copying.inTurns
  rw [independent_iff Copying.dd_copies fun _ => rfl] at independent
  have chunks := congrArg (List.map Answer.chunk) (independent .clone)
  exact absurd chunks (by decide)

end Nixnas.Tui.Sudo
