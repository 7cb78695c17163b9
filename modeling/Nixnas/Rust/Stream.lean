import Nixnas.Logic.Total
import Nixnas.Rust.Io

/-!
# Seekable streams

`Read` and `Seek` over a fixed content.  A read may deliver less than its buffer
holds, so single reads of two streams differ; what a client makes of them by
`read_exact` and `read_to_end` does not.
-/

set_option autoImplicit false

namespace Nixnas.Rust

open Nixnas.Logic Nixnas.Logic.Action

inductive SeekFrom where
  | start (offset : Nat)
  | fromEnd (offset : Int)
  | current (offset : Int)

/-- Where a seek leads to, from a position in a content of some length. -/
def SeekFrom.target (len pos : Nat) : SeekFrom → Int
  | .start offset => offset
  | .fromEnd offset => len + offset
  | .current offset => pos + offset

structure ByteStream (World σ : Type) where
  pos : σ → Nat
  read : σ → Nat → Io World (Bytes × σ)
  seek : σ → SeekFrom → Io World (Except IoError Nat × σ)

variable {World σ α : Type} {content : Bytes}

/-! ## What a stream over a content does -/

/-- A read at `pos` into a buffer of `size` bytes, which leads to `next`. -/
structure ReadsAt (content : Bytes) (pos size : Nat) (chunk : Bytes) (next : Nat) : Prop where
  bytes : chunk <+: content.drop pos
  short : chunk.length ≤ size
  ended : chunk = [] → size = 0 ∨ content.length ≤ pos
  moved : next = pos + chunk.length

/-- A seek to before the start fails and stays. -/
def SeeksTo (content : Bytes) (pos : Nat) (whence : SeekFrom) (answer : Except IoError Nat)
    (next : Nat) : Prop :=
  let target := whence.target content.length pos
  if target < 0 then (∃ text, answer = .error ⟨.invalidInput, text⟩) ∧ next = pos
  else answer = .ok target.toNat ∧ next = target.toNat

/-- A target that a position can hold. -/
def SeekFrom.InRange (content : Bytes) (pos : Nat) (whence : SeekFrom) : Prop :=
  whence.target content.length pos < u64Bound

/-- The stream reads the content, from every state that is `good`, while the
world is `held`. -/
structure ByteStream.Over (stream : ByteStream World σ) (content : Bytes) (good : σ → Prop)
    (held : World → Prop) : Prop where
  read : ∀ state size, good state → Ends held (stream.read state size) fun result world =>
    (good result.2 ∧
      ReadsAt content (stream.pos state) size result.1 (stream.pos result.2)) ∧ held world
  seek : ∀ state whence, good state → Ends held (stream.seek state whence) fun result world =>
    (good result.2 ∧ (whence.InRange content (stream.pos state) →
      SeeksTo content (stream.pos state) whence result.1 (stream.pos result.2))) ∧ held world

/-! ## Single accesses -/

inductive Access where
  | read (size : Nat)
  | seek (whence : SeekFrom)

/-- What is seen of one access. -/
structure Seen where
  access : Access
  before : Nat
  chunk : Bytes
  answer : Except IoError Nat
  after : Nat

def ByteStream.access (stream : ByteStream World σ) (state : σ) : Access → Io World (Seen × σ)
  | .read size => do
      let (chunk, next) ← stream.read state size
      pure (⟨.read size, stream.pos state, chunk, .ok chunk.length, stream.pos next⟩, next)
  | .seek whence => do
      let (answer, next) ← stream.seek state whence
      pure (⟨.seek whence, stream.pos state, [], answer, stream.pos next⟩, next)

def ByteStream.trace (stream : ByteStream World σ) : List Access → σ → Io World (List Seen × σ)
  | [], state => pure ([], state)
  | access :: rest, state => do
      let (seen, next) ← stream.access state access
      let (more, last) ← stream.trace rest next
      pure (seen :: more, last)

/-- One access of a plain cursor. -/
def Seen.Fits (content : Bytes) (seen : Seen) : Prop :=
  match seen.access with
  | .read size => ReadsAt content seen.before size seen.chunk seen.after
  | .seek whence => SeeksTo content seen.before whence seen.answer seen.after

def Access.InRange (content : Bytes) (pos : Nat) : Access → Prop
  | .read _ => True
  | .seek whence => whence.InRange content pos

/-- Each access starts where the one before has led to, and is one of a plain
cursor as long as no seek leaves the range of positions. -/
def Traced (content : Bytes) : Nat → List Access → List Seen → Prop
  | _, [], seen => seen = []
  | _, _ :: _, [] => False
  | pos, access :: rest, seen :: more =>
      access.InRange content pos → seen.access = access ∧ seen.before = pos ∧ seen.Fits content ∧
        Traced content seen.after rest more

/-! ## Clients -/

/-- One turn of filling a buffer: `size` is what is left of it after the chunks
so far, and an interrupted read is tried again. -/
def gatherTurn (stream : ByteStream World σ) (size : List Bytes → Nat) :
    σ × List Bytes → Io World ((σ × List Bytes) ⊕ (Bytes × σ))
  | (state, chunks) =>
      if size chunks = 0 then pure (.inr (chunks.flatten, state))
      else do
        match ← attempt (stream.read state (size chunks)) with
        | .ok ([], next) => pure (.inr (chunks.flatten, next))
        | .ok (b :: rest, next) => pure (.inl (next, chunks ++ [b :: rest]))
        | .error e => if e.kind = .interrupted then pure (.inl (state, chunks)) else fail e

/-- Reads until the buffer is full or a read comes back empty. -/
def ByteStream.gather (stream : ByteStream World σ) (size : List Bytes → Nat) (state : σ) :
    Io World (Bytes × σ) :=
  loop (gatherTurn stream size) (state, [])

/-- A client repositions the stream, fills buffers by `read_exact`, which fails
when the buffer is not full at the end, and collects the rest by `read_to_end`
with buffers that are never empty; what it does next depends on what it got. -/
inductive Client (α : Type) where
  | done (value : α)
  | seek (whence : SeekFrom) (next : Except ErrorKind Nat → Client α)
  | readExact (size : Nat) (next : Except ErrorKind Unit → Bytes → Client α)
  | readToEnd (size : { size : List Bytes → Nat // ∀ chunks, 0 < size chunks })
      (next : Bytes → Client α)

/-- What `read_exact` makes of the bytes it has got. -/
def filled (size : Nat) (got : Bytes) : Except ErrorKind Unit :=
  if got.length = size then .ok () else .error .unexpectedEof

def Client.run (stream : ByteStream World σ) : Client α → σ → Io World (α × σ)
  | .done value, state => pure (value, state)
  | .seek whence next, state => do
      let (answer, state) ← stream.seek state whence
      (next (answer.mapError IoError.kind)).run stream state
  | .readExact size next, state => do
      let (got, state) ← stream.gather (fun chunks => size - chunks.flatten.length) state
      (next (filled size got) got).run stream state
  | .readToEnd size next, state => do
      let (got, state) ← stream.gather size.1 state
      (next got).run stream state

/-- The value of a client that reads the content from a position, and the
position it leaves. -/
def Client.eval (content : Bytes) : Client α → Nat → α × Nat
  | .done value, pos => (value, pos)
  | .seek whence next, pos =>
      let target := whence.target content.length pos
      if target < 0 then (next (.error .invalidInput)).eval content pos
      else (next (.ok target.toNat)).eval content target.toNat
  | .readExact size next, pos =>
      let got := (content.drop pos).take size
      (next (filled size got) got).eval content (pos + got.length)
  | .readToEnd _ next, pos =>
      let got := content.drop pos
      (next got).eval content (pos + got.length)

/-- No seek of the client leaves the range of positions. -/
def Client.InRange (content : Bytes) : Client α → Nat → Prop
  | .done _, _ => True
  | .seek whence next, pos =>
      let target := whence.target content.length pos
      whence.InRange content pos ∧
        if target < 0 then (next (.error .invalidInput)).InRange content pos
        else (next (.ok target.toNat)).InRange content target.toNat
  | .readExact size next, pos =>
      let got := (content.drop pos).take size
      (next (filled size got) got).InRange content (pos + got.length)
  | .readToEnd _ next, pos =>
      let got := content.drop pos
      (next got).InRange content (pos + got.length)

/-! ## Every stream over the content does the same -/

section Over

variable {stream : ByteStream World σ} {good : σ → Prop} {held : World → Prop}

theorem ByteStream.Over.access (reads : stream.Over content good held) {state : σ} (isGood : good state)
    (access : Access) :
    Ends held (stream.access state access) fun result world =>
      (good result.2 ∧ result.1.access = access ∧ result.1.before = stream.pos state ∧
        result.1.after = stream.pos result.2 ∧
        (access.InRange content (stream.pos state) → result.1.Fits content)) ∧ held world := by
  cases access with
  | read size =>
      apply Ends.bind _ (reads.read state size isGood)
      intro result
      apply Ends.pure
      intro world met
      exact ⟨⟨met.1.1, rfl, rfl, rfl, fun _ => met.1.2⟩, met.2⟩
  | seek whence =>
      apply Ends.bind _ (reads.seek state whence isGood)
      intro result
      apply Ends.pure
      intro world met
      exact ⟨⟨met.1.1, rfl, rfl, rfl, met.1.2⟩, met.2⟩

/-- Any sequence of accesses, by induction on it. -/
theorem ByteStream.Over.trace (reads : stream.Over content good held) (accesses : List Access)
    {state : σ} (isGood : good state) :
    Ends held (stream.trace accesses state) fun result world =>
      Traced content (stream.pos state) accesses result.1 ∧ held world := by
  induction accesses generalizing state with
  | nil => exact Ends.pure fun world holds => ⟨rfl, holds⟩
  | cons access rest ih =>
      apply Ends.bind _ (reads.access isGood access)
      intro first
      apply Ends.assume
      intro known
      obtain ⟨isGood', same, before, after, fits⟩ := known
      apply Ends.bind _ (ih isGood')
      intro more
      apply Ends.pure
      intro world met
      refine ⟨?_, met.2⟩
      intro inRange
      exact ⟨same, before, fits inRange, after ▸ met.1⟩

/-- What the chunks so far make up, and where the stream stands. -/
structure Gathered (content : Bytes) (start : Nat) (chunks : List Bytes) (pos : Nat) : Prop where
  bytes : chunks.flatten <+: content.drop start
  moved : pos = start + chunks.flatten.length

theorem Gathered.nil (content : Bytes) (start : Nat) : Gathered content start [] start :=
  ⟨List.nil_prefix, rfl⟩

theorem Gathered.append {start pos size next : Nat} {chunks : List Bytes} {chunk : Bytes}
    (gathered : Gathered content start chunks pos) (reads : ReadsAt content pos size chunk next) :
    Gathered content start (chunks ++ [chunk]) next where
  bytes := by
    have more := reads.bytes
    rw [gathered.moved, ← List.drop_drop] at more
    rw [List.flatten_append, List.flatten_singleton]
    exact prefix_append_of_prefix_drop gathered.bytes more
  moved := by
    have moved := gathered.moved
    have further := reads.moved
    rw [List.flatten_append, List.flatten_singleton, List.length_append]
    omega

/-- The loop keeps `extra` of the chunks and gets closer to the end of the
content with every chunk. -/
theorem ByteStream.Over.gather (reads : stream.Over content good held) (size : List Bytes → Nat)
    (extra : List Bytes → Prop) (empty : extra [])
    (grows : ∀ chunks chunk, extra chunks → chunk.length ≤ size chunks → extra (chunks ++ [chunk]))
    {state : σ} (isGood : good state) :
    Ends held (stream.gather size state) fun result world =>
      (good result.2 ∧ ∃ chunks, chunks.flatten = result.1 ∧ extra chunks ∧
        Gathered content (stream.pos state) chunks (stream.pos result.2) ∧
        (size chunks = 0 ∨ content.length ≤ stream.pos result.2)) ∧ held world := by
  intro world holds
  apply Ends.loop
    (fun (turn : σ × List Bytes) world => (good turn.1 ∧ extra turn.2 ∧
      Gathered content (stream.pos state) turn.2 (stream.pos turn.1)) ∧ held world)
    (fun turn => content.length - stream.pos turn.1) _ (state, []) world
    ⟨⟨isGood, empty, Gathered.nil content _⟩, holds⟩
  intro turn
  obtain ⟨current, chunks⟩ := turn
  apply Ends.assume
  intro known
  obtain ⟨isGood', kept, gathered⟩ := known
  rw [gatherTurn]
  by_cases full : size chunks = 0
  · rw [if_pos full]
    apply Ends.pure
    intro world holds
    exact ⟨⟨isGood', chunks, rfl, kept, gathered, Or.inl full⟩, holds⟩
  · rw [if_neg full]
    apply Ends.attempt_bind _ (reads.read current (size chunks) isGood')
    intro answer
    apply Ends.assume
    intro read
    obtain ⟨isGood'', delivers⟩ := read
    match answer with
    | ([], next) =>
        apply Ends.pure
        intro world holds
        have same : stream.pos next = stream.pos current := delivers.moved
        have ended : content.length ≤ stream.pos next := by
          rcases delivers.ended rfl with none | ended
          · exact absurd none full
          · omega
        exact ⟨⟨isGood'', chunks, rfl, kept, same ▸ gathered, Or.inr ended⟩, holds⟩
    | (b :: rest, next) =>
        apply Ends.pure
        intro world holds
        refine ⟨⟨⟨isGood'', grows _ _ kept delivers.short, gathered.append delivers⟩, holds⟩, ?_⟩
        have inside := delivers.bytes.length_le
        have moved := delivers.moved
        rw [List.length_cons, List.length_drop] at inside
        rw [List.length_cons] at moved
        dsimp only at moved ⊢
        omega

/-- A buffer of `size` bytes ends up with what there is of them. -/
theorem ByteStream.Over.readExact (reads : stream.Over content good held) (size : Nat) {state : σ}
    (isGood : good state) :
    Ends held (stream.gather (fun chunks => size - chunks.flatten.length) state)
      fun result world =>
        (good result.2 ∧ result.1 = (content.drop (stream.pos state)).take size ∧
          stream.pos result.2 = stream.pos state + result.1.length) ∧ held world := by
  apply (reads.gather _ (fun chunks => chunks.flatten.length ≤ size) (Nat.zero_le _) _ isGood).weaken
    (fun _ holds => holds)
  · rintro ⟨got, next⟩ world ⟨⟨isGood', chunks, rfl, fits, gathered, stopped⟩, holds⟩
    refine ⟨⟨isGood', ?_, gathered.moved⟩, holds⟩
    rcases stopped with full | ended
    · have length : chunks.flatten.length = size := by omega
      rw [← length]
      exact List.prefix_iff_eq_take.mp gathered.bytes
    · have whole : chunks.flatten = content.drop (stream.pos state) := by
        apply gathered.bytes.eq_of_length_le
        have moved := gathered.moved
        rw [List.length_drop]
        dsimp only at ended moved
        omega
      rw [← whole, List.take_of_length_le fits]
  · intro chunks chunk fits short
    rw [List.flatten_append, List.flatten_singleton, List.length_append]
    omega

/-- Collecting to the end gets all there is. -/
theorem ByteStream.Over.readToEnd (reads : stream.Over content good held)
    (size : { size : List Bytes → Nat // ∀ chunks, 0 < size chunks }) {state : σ}
    (isGood : good state) :
    Ends held (stream.gather size.1 state) fun result world =>
      (good result.2 ∧ result.1 = content.drop (stream.pos state) ∧
        stream.pos result.2 = stream.pos state + result.1.length) ∧ held world := by
  apply (reads.gather size.1 (fun _ => True) trivial (fun _ _ _ _ => trivial) isGood).weaken
    (fun _ holds => holds)
  rintro ⟨got, next⟩ world ⟨⟨isGood', chunks, rfl, -, gathered, stopped⟩, holds⟩
  refine ⟨⟨isGood', ?_, gathered.moved⟩, holds⟩
  have positive := size.2 chunks
  have ended : content.length ≤ stream.pos next := by
    rcases stopped with none | ended
    · omega
    · exact ended
  apply gathered.bytes.eq_of_length_le
  have moved := gathered.moved
  rw [List.length_drop]
  dsimp only at moved
  omega

/-- A client gets its value, and leaves the stream, as the content alone
determines; by induction on the client. -/
theorem Client.run_ends (reads : stream.Over content good held) (client : Client α) {state : σ}
    (isGood : good state) (inRange : client.InRange content (stream.pos state)) :
    Ends held (client.run stream state) fun result world =>
      (result.1, stream.pos result.2) = client.eval content (stream.pos state) ∧ held world := by
  induction client generalizing state with
  | done value => exact Ends.pure fun world holds => ⟨rfl, holds⟩
  | seek whence next ih =>
      obtain ⟨within, rest⟩ := inRange
      apply Ends.bind _ (reads.seek state whence isGood)
      rintro ⟨answer, state'⟩
      apply Ends.assume
      rintro ⟨isGood', seeks⟩
      have leads := seeks within
      dsimp only [SeeksTo] at leads
      dsimp only [Client.eval]
      split at rest
      · rename_i negative
        rw [if_pos negative] at leads ⊢
        obtain ⟨⟨text, rfl⟩, stays⟩ := leads
        rw [← stays] at rest ⊢
        exact ih _ isGood' rest
      · rename_i inside
        rw [if_neg inside] at leads ⊢
        obtain ⟨rfl, moved⟩ := leads
        rw [← moved] at rest ⊢
        exact ih _ isGood' rest
  | readExact size next ih =>
      apply Ends.bind _ (reads.readExact size isGood)
      rintro ⟨got, state'⟩
      apply Ends.assume
      rintro ⟨isGood', isGot, moved⟩
      dsimp only [Client.InRange] at inRange
      dsimp only [Client.eval]
      dsimp only at isGot moved
      rw [← isGot, ← moved] at inRange ⊢
      exact ih _ _ isGood' inRange
  | readToEnd size next ih =>
      apply Ends.bind _ (reads.readToEnd size isGood)
      rintro ⟨got, state'⟩
      apply Ends.assume
      rintro ⟨isGood', isGot, moved⟩
      dsimp only [Client.InRange] at inRange
      dsimp only [Client.eval]
      dsimp only at isGot moved
      rw [← isGot, ← moved] at inRange ⊢
      exact ih _ isGood' inRange

end Over

/-! ## The plain cursor -/

/-- A cursor over the content: `count` says how much a read at a position into a
buffer of some size moves at most. -/
def cursor (World : Type) (content : Bytes) (count : Nat → Nat → Nat) : ByteStream World Nat where
  pos := id
  read pos size :=
    let chunk := readSome (content.drop pos) size (count pos size)
    pure (chunk, pos + chunk.length)
  seek pos whence :=
    let target := whence.target content.length pos
    if target < 0 then
      pure (.error ⟨.invalidInput, "invalid seek to a negative or overflowing position"⟩, pos)
    else pure (.ok target.toNat, target.toNat)

theorem cursor_over (World : Type) (content : Bytes) (count : Nat → Nat → Nat)
    (held : World → Prop) : (cursor World content count).Over content (fun _ => True) held where
  read pos size _ := by
    apply Ends.pure
    intro world holds
    refine ⟨⟨trivial, readSome_prefix _ _ _, readSome_length_le _ _ _, ?_, rfl⟩, holds⟩
    intro empty
    by_cases none : size = 0
    · exact Or.inl none
    · have rest := readSome_eq_nil (Nat.pos_of_ne_zero none) empty
      exact Or.inr (List.drop_eq_nil_iff.mp rest)
  seek pos whence _ := by
    dsimp only [cursor]
    split
    · rename_i negative
      apply Ends.pure
      intro world holds
      refine ⟨⟨trivial, fun _ => ?_⟩, holds⟩
      dsimp only [SeeksTo]
      rw [if_pos (by exact negative)]
      exact ⟨⟨_, rfl⟩, rfl⟩
    · rename_i inside
      apply Ends.pure
      intro world holds
      refine ⟨⟨trivial, fun _ => ?_⟩, holds⟩
      dsimp only [SeeksTo]
      rw [if_neg (by exact inside)]
      exact ⟨rfl, rfl⟩

/-! ## Handles

What a client asks of a handle that it positions before every read. -/

structure Handle (World σ : Type) where
  pos : σ → Nat
  seekStart : σ → Nat → Io World σ
  read : σ → Nat → Io World (Bytes × σ)

/-- The handle reads the content, from every state that is `good`, while the world is
`held`. -/
structure Handle.Over (handle : Handle World σ) (content : Bytes) (good : σ → Prop)
    (held : World → Prop) : Prop where
  seekStart : ∀ state pos, good state → Ends held (handle.seekStart state pos) fun next world =>
    (good next ∧ handle.pos next = pos) ∧ held world
  read : ∀ state size, good state → Ends held (handle.read state size) fun result world =>
    (good result.2 ∧
      ReadsAt content (handle.pos state) size result.1 (handle.pos result.2)) ∧ held world

/-- The bytes of a range. -/
def slice (content : Bytes) (start len : Nat) : Bytes := (content.drop start).take len

end Nixnas.Rust
