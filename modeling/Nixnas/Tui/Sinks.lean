import Nixnas.Logic.Total
import Nixnas.Tui.FlashRun

/-!
# The two sinks of an image write

`open_writer`, `copy_with_progress` and `finish` of `src/tui/src/sudo.rs` and
`src/tui/src/flash.rs` against the path itself: a block device, a regular file,
or nothing.  As root the image goes through an open file; otherwise through a
pipe into `dd`, a process of its own that creates what is missing, writes its
standard input in order, and ends with a failure when a write fails.

`dd` takes its turns between the operations of the writer, in any number and
moving any amount each.
-/

set_option autoImplicit false

namespace Nixnas.Tui.Sinks

open Nixnas.Logic Nixnas.Logic.Action
open Nixnas.Rust
open Nixnas.Tui.Sudo (Elevation DevWriter)
open Nixnas.Tui.Flash (FlashEvent chunkSize)

/-! ## The path -/

inductive Place where
  | missing
  | file (content : Bytes)
  | device (content : Bytes)
  deriving DecidableEq, Repr

/-- What the two ways of writing have in common. -/
structure Host where
  /-- How large a regular file may get. -/
  room : Nat
  pipeSize : Nat
  pipe_pos : 0 < pipeSize
  /-- What `fsync` answers after the write. -/
  syncs : Option IoError

/-- `bytes` at an offset of `content`. -/
def overwriteAt (content : Bytes) (offset : Nat) (bytes : Bytes) : Bytes :=
  content.take offset ++ bytes ++ content.drop (offset + bytes.length)

def Place.put (offset : Nat) (bytes : Bytes) : Place → Place
  | .missing => .missing
  | .file content => .file (overwriteAt content offset bytes)
  | .device content => .device (overwriteAt content offset bytes)

/-- How many bytes it can hold. -/
def Place.capacity (host : Host) : Place → Nat
  | .missing => 0
  | .file _ => host.room
  | .device content => content.length

/-- What `O_CREAT` and `O_TRUNC` make of it: a device is neither created nor cut. -/
def Place.created : Place → Place
  | .device content => .device content
  | _ => .file []

/-- An open path, and where the next write to it goes. -/
structure Handle where
  place : Place
  offset : Nat
  deriving DecidableEq, Repr

/-- How much `write(2)` takes: nothing when there is no room. -/
def Handle.takes (host : Host) (count : Nat) (handle : Handle) (bytes : Bytes) : Nat :=
  min (max 1 count) (min bytes.length (handle.place.capacity host - handle.offset))

def Handle.put (handle : Handle) (bytes : Bytes) : Handle :=
  ⟨handle.place.put handle.offset bytes, handle.offset + bytes.length⟩

def noSpace : IoError := ⟨.other, "No space left on device (os error 28)"⟩

def brokenPipe : IoError := ⟨.other, "Broken pipe (os error 32)"⟩

def notFound : IoError := ⟨.other, "No such file or directory (os error 2)"⟩

/-! ## `dd` -/

/-- `bs=4194304`. -/
def ddBlock : Nat := 4194304

structure Dd where
  /-- What was written to its standard input and not read yet. -/
  pipe : Bytes
  /-- The writer has closed the pipe. -/
  closed : Bool
  /-- What it has read and not written yet. -/
  block : Bytes
  /-- Whether it was a success, once it has ended. -/
  exit : Option Bool
  deriving DecidableEq, Repr

/-- One turn of `dd`, which moves up to `count` bytes. -/
def Dd.turn (host : Host) (count : Nat) (dd : Dd) (out : Handle) : Dd × Handle :=
  if dd.exit.isSome then (dd, out)
  else if dd.block ≠ [] then
    let n := out.takes host count dd.block
    if n = 0 then ({ dd with exit := some false }, out)
    else ({ dd with block := dd.block.drop n }, out.put (dd.block.take n))
  else if dd.pipe ≠ [] then
    let n := min (max 1 count) (min dd.pipe.length ddBlock)
    ({ dd with pipe := dd.pipe.drop n, block := dd.pipe.take n }, out)
  else if dd.closed then ({ dd with exit := some host.syncs.isNone }, out)
  -- it waits for input
  else (dd, out)

/-- Its turns while the writer does something else. -/
def Dd.turns (host : Host) : List Nat → Dd × Handle → Dd × Handle
  | [], state => state
  | count :: rest, (dd, out) => Dd.turns host rest (dd.turn host count out)

/-- Its turns while the writer waits for it, at most `bound` of them. -/
def Dd.wait (host : Host) (moves : Nat → Nat) (done : Dd → Bool) : Nat → Dd × Handle → Dd × Handle
  | 0, state => state
  | bound + 1, (dd, out) =>
      if done dd then (dd, out) else Dd.wait host moves done bound (dd.turn host (moves bound) out)

/-- How many turns it has to make with what it has got. -/
def Dd.work (dd : Dd) : Nat :=
  2 * dd.pipe.length + dd.block.length + if dd.exit.isSome then 0 else 1

def Dd.ended (dd : Dd) : Bool := dd.exit.isSome

/-- A write to its standard input does not block. -/
def Dd.ready (host : Host) (dd : Dd) : Bool := dd.exit.isSome || dd.pipe.length < host.pipeSize

/-! ## The world -/

/-- What the kernel decides: how much an operation of the writer moves, and the
turns `dd` gets before it and during it. -/
structure Times where
  count : Nat → Nat
  turns : Nat → List Nat
  waiting : Nat → Nat → Nat

structure World where
  clock : Nat
  out : Handle
  dd : Option Dd
  events : List FlashEvent

abbrev Step (α : Type) := Action World String α

variable {α : Type}

/-- `dd` does something, if there is one. -/
def World.advance (w : World) (move : Dd × Handle → Dd × Handle) : World :=
  match w.dd with
  | none => w
  | some dd => { w with dd := some (move (dd, w.out)).1, out := (move (dd, w.out)).2 }

/-- `dd` goes on until it is `done`. -/
def World.waitFor (host : Host) (times : Times) (done : Dd → Bool) (w : World) : World :=
  w.advance fun state => Dd.wait host (times.waiting w.clock) done state.1.work state

/-- What is left when `dd` has ended too. -/
def World.atRest (host : Host) (times : Times) (w : World) : World := w.waitFor host times Dd.ended

/-- One operation of the writer. -/
def call {Error : Type} (host : Host) (times : Times)
    (operation : World → Except Error α × World) : Action World Error α :=
  perform fun w =>
    operation { w.advance (Dd.turns host (times.turns w.clock)) with clock := w.clock + 1 }

def send (event : FlashEvent) : Step Unit := modify fun w => { w with events := w.events ++ [event] }

/-! ## The source -/

/-- What can be read of the image file, and the error that a read after it meets. -/
structure Image where
  content : Bytes
  fault : Option IoError

/-- `Read::read` of the image file. -/
def Image.read (host : Host) (times : Times) (image : Image) (pos size : Nat) :
    Io World (Bytes × Nat) :=
  call host times fun w =>
    if image.content.length ≤ pos then
      match image.fault with
      | some e => (.error e, w)
      | none => (.ok ([], pos), w)
    else
      let chunk := readSome (image.content.drop pos) size (times.count w.clock)
      (.ok (chunk, pos + chunk.length), w)

/-! ## The sinks -/

/-- `OpenOptions::new().write(true).open(…)`. -/
def openFile (host : Host) (times : Times) : Io World Unit :=
  call host times fun w =>
    if w.out.place = .missing then (.error notFound, w)
    else (.ok (), { w with out := ⟨w.out.place, 0⟩ })

/-- The spawn of `sudo -n dd of=… bs=4194304 conv=fsync status=none`. -/
def spawnDd (host : Host) (times : Times) : Io World Unit :=
  call host times fun w =>
    (.ok (), { w with out := ⟨w.out.place.created, 0⟩, dd := some ⟨[], false, [], none⟩ })

/-- `open_writer`. -/
def openWriter (host : Host) (times : Times) (elev : Elevation) (dev : String) : Step DevWriter :=
  match elev with
  | .root => do
      ioContext ("opening " ++ dev ++ " for writing") (openFile host times)
      pure (.file dev)
  | .sudo _ => do
      ioContext ("spawning sudo dd of=" ++ dev) (spawnDd host times)
      pure (.sudo dev)

/-- `File::write`. -/
def writeFile (host : Host) (times : Times) (buf : Bytes) (w : World) : Except IoError Nat × World :=
  let n := w.out.takes host (times.count w.clock) buf
  if n = 0 ∧ buf ≠ [] then (.error noSpace, w)
  else (.ok n, { w with out := w.out.put (buf.take n) })

/-- `ChildStdin::write`: the pipe has a reader as long as `dd` has not ended. -/
def writePipe (host : Host) (times : Times) (buf : Bytes) (w : World) : Except IoError Nat × World :=
  let w := w.waitFor host times (Dd.ready host)
  match w.dd with
  | none => (.error brokenPipe, w)
  | some dd =>
      if dd.ended then (.error brokenPipe, w)
      else
        let n := min (max 1 (times.count w.clock)) (min buf.length (host.pipeSize - dd.pipe.length))
        (.ok n, { w with dd := some { dd with pipe := dd.pipe ++ buf.take n } })

/-- `Write::write`. -/
def write (host : Host) (times : Times) (writer : DevWriter) (buf : Bytes) : Io World Nat :=
  call host times fun w =>
    match writer with
    | .file _ => writeFile host times buf w
    | .sudo _ => writePipe host times buf w

/-- `drop(stdin)`. -/
def World.closePipe (w : World) : World := w.advance fun (dd, out) => ({ dd with closed := true }, out)

/-- `File::sync_all`. -/
def syncAll (host : Host) (times : Times) : Io World Unit :=
  call host times fun w =>
    match host.syncs with
    | some e => (.error e, w)
    | none => (.ok (), w)

/-- `Child::wait`: whether `dd` was a success. -/
def waitDd (host : Host) (times : Times) : Io World Bool :=
  call host times fun w =>
    let w := w.waitFor host times Dd.ended
    (.ok (w.dd.bind Dd.exit == some true), w)

/-- `DevWriter::finish`. -/
def finish (host : Host) (times : Times) : DevWriter → Step Unit
  | .file _ => ioContext "syncing the device after the write" (syncAll host times)
  | .sudo _ => do
      modify World.closePipe
      let success ← ioContext "waiting for sudo dd" (waitDd host times)
      if success then pure ()
      else fail "sudo dd (device write) failed — is the sudo timestamp still valid?"

/-! ## The write -/

/-- One turn of `copy_with_progress`, over any source and any sink. -/
def copyTurn {World σ : Type} (read : σ → Nat → Io World (Bytes × σ)) (write : Bytes → Io World Nat)
    (progress : Nat → Action World String Unit) :
    σ × Nat → Action World String ((σ × Nat) ⊕ Unit)
  | (src, done) => do
      let (chunk, src) ← ioContext "reading source" (read src chunkSize)
      if chunk.isEmpty then pure (.inr ())
      else do
        ioContext "writing destination" (writeAll write chunk)
        progress (done + chunk.length)
        pure (.inl (src, done + chunk.length))

/-- `copy_with_progress`. -/
def copyWithProgress {World σ : Type} (read : σ → Nat → Io World (Bytes × σ))
    (write : Bytes → Io World Nat) (progress : Nat → Action World String Unit) (src : σ) :
    Action World String Unit :=
  loop (copyTurn read write progress) (src, 0)

/-- The copy of a whole flash run is this one. -/
theorem copyWithProgress_flash
    (read : Sudo.DevReader → Nat → Io (Sudo.World FlashEvent) (Bytes × Sudo.DevReader))
    (write : Bytes → Io (Sudo.World FlashEvent) Nat) (src : Sudo.DevReader) (total : Nat) :
    Flash.copyWithProgress read write src total =
      copyWithProgress read write (fun done => Sudo.send (.progress done total)) src := rfl

/-- The copy into the sink, finished or dropped.  A writer that is dropped closes
its pipe and leaves `dd` alone. -/
def writeOpened (host : Host) (times : Times) (image : Image) (sink : DevWriter) : Step Unit := do
  let copied ← attempt (copyWithProgress (image.read host times) (write host times sink)
    (fun done => send (.progress done image.content.length)) 0)
  match copied with
  | .ok () => context "finishing the device write" (finish host times sink)
  | .error e => do
      modify World.closePipe
      fail ("writing the image: " ++ e)

/-- The write phase of `run_flash` from the opening of the device on. -/
def writeImage (host : Host) (times : Times) (elev : Elevation) (dev : String) (image : Image) :
    Step Unit := do
  let sink ← context ("opening " ++ dev ++ " for writing") (openWriter host times elev dev)
  writeOpened host times image sink

/-! ## What a handle holds -/

section Sinks

variable {host : Host} {times : Times} {p : Place} {sent : Bytes}

/-- The first bytes of the open path are `written`, and the next write goes after
them. -/
structure Handle.Holds (host : Host) (p : Place) (written : Bytes) (handle : Handle) : Prop where
  place : handle.place = p.put 0 written
  offset : handle.offset = written.length
  fits : written.length ≤ p.capacity host

/-- The path is full of the first bytes of `data`, which has more. -/
structure Handle.Full (host : Host) (p : Place) (data : Bytes) (handle : Handle) : Prop where
  place : handle.place = p.put 0 (data.take (p.capacity host))
  exceeds : p.capacity host < data.length

theorem overwriteAt_append (content written bytes : Bytes) :
    overwriteAt (overwriteAt content 0 written) written.length bytes =
      overwriteAt content 0 (written ++ bytes) := by
  have start : overwriteAt content 0 written = written ++ content.drop written.length := by
    simp [overwriteAt]
  rw [start]
  unfold overwriteAt
  rw [List.take_left, List.take_zero, List.nil_append, Nat.zero_add, List.length_append,
    ← List.drop_drop, List.drop_left, List.drop_drop]

theorem Place.put_append (written bytes : Bytes) :
    (p.put 0 written).put written.length bytes = p.put 0 (written ++ bytes) := by
  cases p with
  | missing => rfl
  | file content => exact congrArg Place.file (overwriteAt_append content written bytes)
  | device content => exact congrArg Place.device (overwriteAt_append content written bytes)

/-- Writing within a path leaves it as large as it may get. -/
theorem Place.put_capacity {written : Bytes} (fits : written.length ≤ p.capacity host) :
    (p.put 0 written).capacity host = p.capacity host := by
  cases p with
  | missing => rfl
  | file content => rfl
  | device content =>
      change written.length ≤ content.length at fits
      simp only [Place.put, Place.capacity, overwriteAt, List.length_append, List.length_take,
        List.length_drop]
      omega

theorem Handle.Holds.start (host : Host) (place : Place) (opened : place ≠ .missing) :
    Handle.Holds host place [] ⟨place, 0⟩ := by
  refine ⟨?_, rfl, Nat.zero_le _⟩
  cases place with
  | missing => exact absurd rfl opened
  | file content => simp [Place.put, overwriteAt]
  | device content => simp [Place.put, overwriteAt]

theorem Handle.Holds.takes {written bytes : Bytes} {handle : Handle} {count : Nat}
    (held : handle.Holds host p written) :
    handle.takes host count bytes =
      min (max 1 count) (min bytes.length (p.capacity host - written.length)) := by
  unfold Handle.takes
  rw [held.place, held.offset, Place.put_capacity held.fits]

/-- A write that takes some of its bytes. -/
theorem Handle.Holds.put {written bytes : Bytes} {handle : Handle} {count : Nat}
    (held : handle.Holds host p written) :
    (handle.put (bytes.take (handle.takes host count bytes))).Holds host p
      (written ++ bytes.take (handle.takes host count bytes)) := by
  have taken : (bytes.take (handle.takes host count bytes)).length ≤
      p.capacity host - written.length := by
    rw [held.takes, List.length_take]
    omega
  have fits := held.fits
  refine ⟨?_, ?_, ?_⟩
  · change handle.place.put handle.offset _ = _
    rw [held.place, held.offset, Place.put_append]
  · change handle.offset + _ = _
    rw [held.offset, List.length_append]
  · rw [List.length_append]
    omega

/-- A write that takes nothing: there is no room for more. -/
theorem Handle.Holds.full {written bytes : Bytes} {handle : Handle} {count : Nat}
    (held : handle.Holds host p written) (some : bytes ≠ [])
    (refused : handle.takes host count bytes = 0) : handle.Full host p (written ++ bytes) := by
  have more : 0 < bytes.length := List.length_pos_iff.mpr some
  have fits := held.fits
  rw [held.takes] at refused
  have reached : p.capacity host = written.length := by omega
  refine ⟨?_, ?_⟩
  · rw [reached, List.take_left]
    exact held.place
  · rw [List.length_append]
    omega

theorem Handle.Full.mono {data more : Bytes} {handle : Handle} (full : handle.Full host p data)
    (longer : data <+: more) : handle.Full host p more := by
  obtain ⟨tail, rfl⟩ := longer
  have exceeds := full.exceeds
  refine ⟨?_, ?_⟩
  · rw [List.take_append_of_le_length (by omega)]
    exact full.place
  · rw [List.length_append]
    omega

/-! ## What `dd` makes of its input -/

/-- `dd` was given `sent`, and `out` is what it has made of it. -/
inductive Dd.Holds (host : Host) (p : Place) (sent : Bytes) (dd : Dd) (out : Handle) : Prop
  | runs (written : Bytes) (running : dd.exit = none) (parts : written ++ dd.block ++ dd.pipe = sent)
      (held : out.Holds host p written)
  | full (failed : dd.exit = some false) (full : out.Full host p sent)
  | ended (closed : dd.closed = true) (success : dd.exit = some host.syncs.isNone)
      (held : out.Holds host p sent)

theorem Dd.turn_closed (host : Host) (count : Nat) (dd : Dd) (out : Handle) :
    (dd.turn host count out).1.closed = dd.closed := by
  unfold Dd.turn
  dsimp only
  split
  · rfl
  split
  · split <;> rfl
  split
  · rfl
  split <;> rfl

theorem Dd.Holds.turn {dd : Dd} {out : Handle} (holds : dd.Holds host p sent out) (count : Nat) :
    (dd.turn host count out).1.Holds host p sent (dd.turn host count out).2 := by
  cases holds with
  | full failed full =>
      have same : dd.turn host count out = (dd, out) := if_pos (by rw [failed]; rfl)
      rw [same]
      exact .full failed full
  | ended closed success held =>
      have same : dd.turn host count out = (dd, out) := if_pos (by rw [success]; rfl)
      rw [same]
      exact .ended closed success held
  | runs written running parts held =>
      unfold Dd.turn
      rw [if_neg (by rw [running]; decide)]
      dsimp only
      by_cases writing : dd.block ≠ []
      · rw [if_pos writing]
        by_cases refused : out.takes host count dd.block = 0
        · rw [if_pos refused]
          refine .full rfl ((held.full writing refused).mono ?_)
          rw [← parts]
          exact List.prefix_append _ _
        · rw [if_neg refused]
          refine .runs (written ++ dd.block.take (out.takes host count dd.block)) running ?_ held.put
          rw [← parts, List.append_assoc written, List.take_append_drop]
      · rw [if_neg writing]
        have empty : dd.block = [] := by simpa using writing
        rw [empty, List.append_nil] at parts
        by_cases reading : dd.pipe ≠ []
        · rw [if_pos reading]
          refine .runs written running ?_ held
          rw [← parts, List.append_assoc]
          exact congrArg (written ++ ·) (List.take_append_drop _ _)
        · rw [if_neg reading]
          have drained : dd.pipe = [] := by simpa using reading
          rw [drained, List.append_nil] at parts
          subst parts
          by_cases closed : dd.closed = true
          · rw [if_pos closed]
            exact .ended closed rfl held
          · rw [if_neg closed]
            exact .runs written running (by rw [empty, drained, List.append_nil, List.append_nil]) held

/-- It has something to do. -/
def Dd.Busy (dd : Dd) : Prop := dd.exit = none ∧ (dd.pipe ≠ [] ∨ dd.closed = true)

theorem Dd.Busy.turn_work {dd : Dd} (busy : dd.Busy) (host : Host) (count : Nat) (out : Handle) :
    (dd.turn host count out).1.work < dd.work := by
  obtain ⟨running, todo⟩ := busy
  unfold Dd.turn
  rw [if_neg (by rw [running]; decide)]
  dsimp only
  by_cases writing : dd.block ≠ []
  · rw [if_pos writing]
    have some : 0 < dd.block.length := List.length_pos_iff.mpr writing
    by_cases refused : out.takes host count dd.block = 0
    · rw [if_pos refused]
      simp [Dd.work, running]
    · rw [if_neg refused]
      simp only [Dd.work, running, List.length_drop]
      omega
  · rw [if_neg writing]
    by_cases reading : dd.pipe ≠ []
    · rw [if_pos reading]
      have empty : dd.block = [] := by simpa using writing
      have some : 0 < dd.pipe.length := List.length_pos_iff.mpr reading
      have block : 0 < ddBlock := by decide
      simp only [Dd.work, running, empty, List.length_drop, List.length_take, List.length_nil]
      omega
    · rw [if_neg reading]
      have closed : dd.closed = true := todo.resolve_left reading
      rw [if_pos closed]
      simp [Dd.work, running]

/-- What a turn of `dd` keeps, its turns keep. -/
theorem Dd.turns_induct {fact : Dd → Handle → Prop}
    (turn : ∀ count dd out, fact dd out →
      fact (dd.turn host count out).1 (dd.turn host count out).2)
    (counts : List Nat) : ∀ dd out, fact dd out →
      fact (Dd.turns host counts (dd, out)).1 (Dd.turns host counts (dd, out)).2 := by
  induction counts with
  | nil =>
      intro dd out holds
      exact holds
  | cons count rest ih =>
      intro dd out holds
      exact ih _ _ (turn count dd out holds)

/-- `dd` keeps what its turns keep while it is waited for, and comes to be `done`
when it is busy until then. -/
theorem Dd.wait_induct {fact : Dd → Handle → Prop} {moves : Nat → Nat} {done : Dd → Bool}
    (turn : ∀ count dd out, fact dd out →
      fact (dd.turn host count out).1 (dd.turn host count out).2)
    (busy : ∀ dd out, fact dd out → done dd = false → dd.Busy) (bound : Nat) :
    ∀ dd out, dd.work ≤ bound → fact dd out →
      fact (Dd.wait host moves done bound (dd, out)).1 (Dd.wait host moves done bound (dd, out)).2 ∧
        done (Dd.wait host moves done bound (dd, out)).1 = true := by
  induction bound with
  | zero =>
      intro dd out enough holds
      cases stops : done dd with
      | true => exact ⟨holds, stops⟩
      | false =>
          have less := (busy dd out holds stops).turn_work host 0 out
          omega
  | succ bound ih =>
      intro dd out enough holds
      unfold Dd.wait
      cases stops : done dd with
      | true =>
          rw [if_pos rfl]
          exact ⟨holds, stops⟩
      | false =>
          rw [if_neg Bool.false_ne_true]
          have less := (busy dd out holds stops).turn_work host (moves bound) out
          have enough' : (dd.turn host (moves bound) out).1.work ≤ bound := by omega
          exact ih _ _ enough' (turn (moves bound) dd out holds)

/-- `dd` is still being fed. -/
structure Dd.Fed (host : Host) (p : Place) (sent : Bytes) (dd : Dd) (out : Handle) : Prop where
  opened : dd.closed = false
  holds : dd.Holds host p sent out

theorem Dd.Fed.turn (count : Nat) (dd : Dd) (out : Handle) (fed : dd.Fed host p sent out) :
    (dd.turn host count out).1.Fed host p sent (dd.turn host count out).2 :=
  ⟨(dd.turn_closed host count out).trans fed.opened, fed.holds.turn count⟩

/-- `dd` has got everything. -/
structure Dd.Closed (host : Host) (p : Place) (sent : Bytes) (dd : Dd) (out : Handle) : Prop where
  closed : dd.closed = true
  holds : dd.Holds host p sent out

theorem Dd.Closed.turn (count : Nat) (dd : Dd) (out : Handle) (all : dd.Closed host p sent out) :
    (dd.turn host count out).1.Closed host p sent (dd.turn host count out).2 :=
  ⟨(dd.turn_closed host count out).trans all.closed, all.holds.turn count⟩

/-- A full pipe is something to do. -/
theorem Dd.busy_of_not_ready {dd : Dd} (blocked : dd.ready host = false) : dd.Busy := by
  have pos := host.pipe_pos
  cases running : dd.exit with
  | some success =>
      rw [Dd.ready, running] at blocked
      cases blocked
  | none =>
      refine ⟨running, .inl ?_⟩
      intro empty
      rw [Dd.ready, running, empty] at blocked
      simp only [Option.isSome_none, List.length_nil, Bool.false_or, decide_eq_false_iff_not] at blocked
      exact blocked pos

/-- `dd` is fed until it can be written to, or has ended. -/
theorem Dd.Fed.wait {dd : Dd} {out : Handle} (fed : dd.Fed host p sent out) (moves : Nat → Nat) :
    (Dd.wait host moves (Dd.ready host) dd.work (dd, out)).1.Fed host p sent
        (Dd.wait host moves (Dd.ready host) dd.work (dd, out)).2 ∧
      (Dd.wait host moves (Dd.ready host) dd.work (dd, out)).1.ready host = true :=
  Dd.wait_induct Dd.Fed.turn (fun _ _ _ blocked => Dd.busy_of_not_ready blocked) dd.work dd out
    (Nat.le_refl _) fed

/-- `dd` that has got everything comes to its end. -/
theorem Dd.Closed.wait {dd : Dd} {out : Handle} (all : dd.Closed host p sent out)
    (moves : Nat → Nat) :
    (Dd.wait host moves Dd.ended dd.work (dd, out)).1.Closed host p sent
        (Dd.wait host moves Dd.ended dd.work (dd, out)).2 ∧
      (Dd.wait host moves Dd.ended dd.work (dd, out)).1.ended = true :=
  Dd.wait_induct Dd.Closed.turn
    (fun _ _ held going => ⟨Option.not_isSome_iff_eq_none.mp (by simpa [Dd.ended] using going),
      .inr held.closed⟩)
    dd.work dd out (Nat.le_refl _) all

/-! ## The two sinks do the same -/

/-- The writer has been given `sent`, all of which is written or on its way. -/
def World.Accepted (host : Host) (p : Place) (sent : Bytes) (writer : DevWriter) (w : World) : Prop :=
  match writer with
  | .file _ => w.dd = none ∧ w.out.Holds host p sent
  | .sudo _ => ∃ dd, w.dd = some dd ∧ dd.closed = false ∧ dd.Holds host p sent w.out

/-- The writer has failed, and what could be written of `data` is. -/
def World.Broken (host : Host) (p : Place) (data : Bytes) (writer : DevWriter) (w : World) : Prop :=
  match writer with
  | .file _ => w.dd = none ∧ w.out.Full host p data
  | .sudo _ => ∃ dd, w.dd = some dd ∧ dd.exit = some false ∧ w.out.Full host p data

theorem World.advance_some {w : World} {dd : Dd} (is : w.dd = some dd)
    (move : Dd × Handle → Dd × Handle) :
    w.advance move = { w with dd := some (move (dd, w.out)).1, out := (move (dd, w.out)).2 } := by
  simp only [World.advance, is]

theorem World.advance_none {w : World} (is : w.dd = none) (move : Dd × Handle → Dd × Handle) :
    w.advance move = w := by
  simp only [World.advance, is]

/-- The turns of `dd` between two operations change nothing that matters. -/
theorem World.Accepted.advance {w : World} {writer : DevWriter}
    (counts : List Nat) (clock : Nat) (accepted : w.Accepted host p sent writer) :
    World.Accepted host p sent writer
      { w.advance (Dd.turns host counts) with clock := clock } := by
  cases writer with
  | file dev =>
      obtain ⟨none, held⟩ := accepted
      rw [World.advance_none none]
      exact ⟨none, held⟩
  | «sudo» dev =>
      obtain ⟨dd, is, opened, holds⟩ := accepted
      rw [World.advance_some is]
      have kept : Dd.Fed host p sent _ _ := Dd.turns_induct Dd.Fed.turn counts dd w.out ⟨opened, holds⟩
      exact ⟨_, rfl, kept.opened, kept.holds⟩

/-- One operation of the writer, after the turns that `dd` gets before it. -/
theorem call_spec {Error α : Type} {before : World → Prop} {post : Post World Error α}
    {operation : World → Except Error α × World}
    (advance : ∀ counts clock w, before w →
      before { w.advance (Dd.turns host counts) with clock := clock })
    (answers : ∀ w, before w → post.Answered (operation w))
    (stopped : ∀ w, before w → post.stopped w) :
    Spec before (call host times operation) post :=
  Spec.answered stopped fun w holds => answers _ (advance _ _ w holds)

/-- `rest` is what the writer still has to be given of `target`. -/
def World.Owes (host : Host) (p : Place) (target : Bytes) (writer : DevWriter) (rest : Bytes)
    (w : World) : Prop :=
  ∃ sent, sent ++ rest = target ∧ w.Accepted host p sent writer

/-- Everything was accepted, or the path is full. -/
def afterCopy (host : Host) (p : Place) (target : Bytes) (writer : DevWriter) :
    Post World IoError Unit :=
  .onReturn (fun _ => World.Accepted host p target writer)
    fun _ => World.Broken host p target writer

theorem writeFile_spec {w : World} {rest target : Bytes} {dev : String} (some : rest ≠ [])
    (owes : w.Owes host p target (.file dev) rest) :
    (Post.ofWrite (World.Owes host p target (.file dev)) (afterCopy host p target (.file dev))
      rest).Answered (writeFile host times rest w) := by
  obtain ⟨sent, rfl, none, held⟩ := owes
  unfold writeFile
  dsimp only
  by_cases refused : w.out.takes host (times.count w.clock) rest = 0
  · rw [if_pos ⟨refused, some⟩]
    exact ⟨none, held.full some refused⟩
  · rw [if_neg fun both => refused both.1]
    change if _ then _ else _
    rw [if_neg refused]
    refine ⟨sent ++ rest.take (w.out.takes host (times.count w.clock) rest), ?_, none, held.put⟩
    rw [List.append_assoc, List.take_append_drop]

theorem writePipe_spec {w : World} {rest target : Bytes} {dev : String} (some : rest ≠ [])
    (owes : w.Owes host p target (.sudo dev) rest) :
    (Post.ofWrite (World.Owes host p target (.sudo dev)) (afterCopy host p target (.sudo dev))
      rest).Answered (writePipe host times rest w) := by
  obtain ⟨sent, rfl, dd, is, opened, holds⟩ := owes
  have fed : dd.Fed host p sent w.out := ⟨opened, holds⟩
  obtain ⟨still, ready⟩ := fed.wait (times.waiting w.clock)
  unfold writePipe World.waitFor
  rw [World.advance_some is]
  dsimp only
  generalize Dd.wait host (times.waiting w.clock) (Dd.ready host) dd.work (dd, w.out) = state at still ready
  obtain ⟨next, out⟩ := state
  dsimp only at still ready ⊢
  cases running : next.exit with
  | some success =>
      rw [if_pos (by rw [Dd.ended, running]; rfl)]
      refine ⟨next, rfl, ?_⟩
      cases still.holds with
      | runs written running' _ _ => cases running.symm.trans running'
      | full failed full => exact ⟨failed, full.mono (List.prefix_append _ _)⟩
      | ended closed _ _ => cases still.opened.symm.trans closed
  | none =>
      rw [if_neg (by rw [Dd.ended, running]; decide)]
      have room : next.pipe.length < host.pipeSize := by
        simpa [Dd.ready, running] using ready
      have more : 0 < rest.length := List.length_pos_iff.mpr some
      have moved : min (max 1 (times.count w.clock)) (min rest.length (host.pipeSize - next.pipe.length)) ≠ 0 := by
        omega
      change if _ then _ else _
      rw [if_neg moved]
      generalize min (max 1 (times.count w.clock)) (min rest.length (host.pipeSize - next.pipe.length)) = n
      refine ⟨sent ++ rest.take n, ?_, _, rfl, still.opened, ?_⟩
      · rw [List.append_assoc, List.take_append_drop]
      · cases still.holds with
        | runs written running' parts held =>
            refine .runs written rfl ?_ held
            rw [← parts]
            simp only [List.append_assoc]
        | full failed _ => cases running.symm.trans failed
        | ended closed _ _ => cases still.opened.symm.trans closed

theorem World.Owes.advance {w : World} {writer : DevWriter} {target rest : Bytes} (counts : List Nat)
    (clock : Nat) (owes : w.Owes host p target writer rest) :
    World.Owes host p target writer rest
      { w.advance (Dd.turns host counts) with clock := clock } := by
  obtain ⟨sent, whole, accepted⟩ := owes
  exact ⟨sent, whole, accepted.advance counts clock⟩

theorem write_spec {rest target : Bytes} {writer : DevWriter} (some : rest ≠ []) :
    Spec (World.Owes host p target writer rest) (write host times writer rest)
      (Post.ofWrite (World.Owes host p target writer) (afterCopy host p target writer) rest) := by
  refine call_spec (fun counts clock _ owes => owes.advance counts clock) ?_ fun _ _ => trivial
  intro w owes
  cases writer with
  | file dev => exact writeFile_spec some owes
  | «sudo» dev => exact writePipe_spec some owes

/-! ## The copy -/

variable {image : Image} {writer : DevWriter}

/-- What one read of the image file delivers. -/
structure Image.Delivers (image : Image) (pos : Nat) (result : Bytes × Nat) : Prop where
  next : image.content.take result.2 = image.content.take pos ++ result.1
  ended : result.1 = [] → image.content.take pos = image.content ∧ image.fault = none
  moved : result.1 ≠ [] → image.content.length - result.2 < image.content.length - pos

/-- A read of the image: the next bytes of it, its end, or its fault after all of it. -/
def afterRead (image : Image) (pos : Nat) (fact : World → Prop) :
    Post World IoError (Bytes × Nat) :=
  .onReturn (fun result w => image.Delivers pos result ∧ fact w)
    fun _ w => image.content.take pos = image.content ∧ image.fault.isSome = true ∧ fact w

theorem Image.read_spec {fact : World → Prop} {size : Nat} (some : 0 < size)
    (advance : ∀ counts clock w, fact w →
      fact { w.advance (Dd.turns host counts) with clock := clock }) (pos : Nat) :
    Spec fact (image.read host times pos size) (afterRead image pos fact) := by
  refine call_spec advance ?_ fun _ _ => trivial
  intro w holds
  dsimp only
  by_cases past : image.content.length ≤ pos
  · rw [if_pos past]
    have all : image.content.take pos = image.content := List.take_of_length_le past
    cases fault : image.fault with
    | some e => exact ⟨all, by rw [fault]; rfl, holds⟩
    | none => exact ⟨⟨(List.append_nil _).symm, fun _ => ⟨all, fault⟩, fun some => absurd rfl some⟩, holds⟩
  · rw [if_neg past]
    generalize isChunk : readSome (image.content.drop pos) size (times.count w.clock) = chunk
    have leads : chunk <+: image.content.drop pos := isChunk ▸ readSome_prefix _ _ _
    refine ⟨⟨?_, ?_, ?_⟩, holds⟩
    · change image.content.take (pos + chunk.length) = _
      rw [List.take_add, ← List.prefix_iff_eq_take.mp leads]
    · intro empty
      have nothing := readSome_eq_nil some (isChunk.trans empty)
      have length := congrArg List.length nothing
      rw [List.length_drop, List.length_nil] at length
      omega
    · intro some
      have moved : 0 < chunk.length := List.length_pos_iff.mpr some
      change image.content.length - (pos + chunk.length) < _
      omega

/-- The whole image was accepted, or the copy has failed on its way. -/
def afterImage (host : Host) (p : Place) (image : Image) (writer : DevWriter) :
    Post World String Unit :=
  .onReturn (fun _ w => image.fault = none ∧ w.Accepted host p image.content writer)
    fun _ w => (image.fault.isSome = true ∧ w.Accepted host p image.content writer) ∨
      w.Broken host p image.content writer

theorem World.Broken.mono {w : World} {data more : Bytes} (broken : w.Broken host p data writer)
    (longer : data <+: more) : w.Broken host p more writer := by
  cases writer with
  | file dev => exact ⟨broken.1, broken.2.mono longer⟩
  | «sudo» dev =>
      obtain ⟨dd, is, failed, full⟩ := broken
      exact ⟨dd, is, failed, full.mono longer⟩

theorem writeAll_accepted (chunk : Bytes) :
    Spec (World.Accepted host p sent writer) (writeAll (write host times writer) chunk)
      (afterCopy host p (sent ++ chunk) writer) := by
  have all : Spec (World.Owes host p (sent ++ chunk) writer chunk)
      (writeAll (write host times writer) chunk) (afterCopy host p (sent ++ chunk) writer) := by
    apply writeAll_rule (World.Owes host p (sent ++ chunk) writer) fun rest some => write_spec some
    · intro w owes
      obtain ⟨given, whole, accepted⟩ := owes
      rw [List.append_nil] at whole
      rw [← whole]
      exact accepted
    · exact fun _ _ _ => trivial
  exact fun w fuel accepted => all w fuel ⟨sent, rfl, accepted⟩

/-- What the copy has come to, from the position in the image and the bytes done. -/
def copied (host : Host) (p : Place) (image : Image) (writer : DevWriter) (state : Nat × Nat) :
    World → Prop :=
  World.Accepted host p (image.content.take state.1) writer

theorem copy_spec :
    Spec (World.Accepted host p [] writer)
      (copyWithProgress (image.read host times) (write host times writer)
        (fun done => send (.progress done image.content.length)) 0)
      (afterImage host p image writer) := by
  refine Spec.loop (copied host p image writer) (fun _ _ _ => trivial) ?_ (0, 0)
  intro (pos, done)
  have large : 0 < chunkSize := by decide
  apply Spec.bind fun result w =>
    image.Delivers pos result ∧ w.Accepted host p (image.content.take pos) writer
  · apply Spec.mapError
    refine (Image.read_spec large (fun counts clock _ accepted => accepted.advance counts clock)
      pos).weaken (fun _ holds => holds) (fun _ _ holds => holds) ?_ fun _ _ => trivial
    intro e w failed
    obtain ⟨all, fault, (accepted : w.Accepted host p (image.content.take pos) writer)⟩ := failed
    rw [all] at accepted
    exact .inl ⟨fault, accepted⟩
  · intro (chunk, next)
    dsimp only
    by_cases empty : chunk = []
    · rw [if_pos (by rw [empty]; rfl)]
      apply Spec.pure
      intro w holds
      obtain ⟨delivers, accepted⟩ := holds
      obtain ⟨all, whole⟩ := delivers.ended empty
      rw [all] at accepted
      exact ⟨whole, accepted⟩
    · rw [if_neg (by simpa using empty)]
      apply Spec.assume
      intro delivers
      have advanced : image.content.take next = image.content.take pos ++ chunk := delivers.next
      apply Spec.bind fun _ w => w.Accepted host p (image.content.take next) writer
      · apply Spec.mapError
        rw [advanced]
        refine (writeAll_accepted chunk).weaken (fun _ holds => holds) (fun _ _ holds => holds) ?_
          fun _ _ => trivial
        intro e w broken
        refine .inr (broken.mono ?_)
        rw [← advanced]
        exact List.take_prefix _ _
      · intro _
        apply Spec.bind fun _ w => w.Accepted host p (image.content.take next) writer
        · apply Spec.modify
          intro w accepted
          cases writer <;> exact accepted
        · intro _
          exact Spec.pure fun _ accepted => accepted

/-! ## The end of the write -/

/-- Whether the whole image gets to the path and stays there. -/
def fits (host : Host) (p : Place) (image : Image) : Bool :=
  image.fault.isNone && host.syncs.isNone && decide (image.content.length ≤ p.capacity host)

/-- The path with as much of the image as it has room for. -/
def Place.imaged (host : Host) (p : Place) (image : Image) : Place :=
  p.put 0 (image.content.take (p.capacity host))

/-- The verdict of the write, and the path once `dd` has ended too. -/
def afterWrite (host : Host) (times : Times) (p : Place) (image : Image) : Post World String Unit :=
  .onReturn
    (fun _ w => fits host p image = true ∧ (w.atRest host times).out.place = p.imaged host image)
    fun _ w => fits host p image = false ∧ (w.atRest host times).out.place = p.imaged host image

theorem Handle.Holds.whole {written : Bytes} {handle : Handle} (held : handle.Holds host p written) :
    handle.place = p.put 0 (written.take (p.capacity host)) := by
  rw [List.take_of_length_le held.fits]
  exact held.place

/-- When `dd` has ended, as much of its input as there is room for is written. -/
theorem Dd.Holds.whole {dd : Dd} {out : Handle} (holds : dd.Holds host p sent out)
    (ended : dd.ended = true) : out.place = p.put 0 (sent.take (p.capacity host)) := by
  cases holds with
  | runs written running _ _ =>
      rw [Dd.ended, running] at ended
      cases ended
  | full _ full => exact full.place
  | ended _ _ held => exact held.whole

/-- It was a success when all of its input is. -/
theorem Dd.Holds.success {dd : Dd} {out : Handle} (holds : dd.Holds host p sent out)
    (ended : dd.ended = true) :
    (dd.exit == some true) = (host.syncs.isNone && decide (sent.length ≤ p.capacity host)) := by
  cases holds with
  | runs written running _ _ =>
      rw [Dd.ended, running] at ended
      cases ended
  | full failed full =>
      have exceeds := full.exceeds
      rw [failed, decide_eq_false (by omega), Bool.and_false]
      rfl
  | ended _ success held =>
      rw [success, decide_eq_true held.fits, Bool.and_true]
      cases host.syncs <;> rfl

theorem Dd.wait_done {moves : Nat → Nat} {done : Dd → Bool} {dd : Dd} {out : Handle}
    (stops : done dd = true) (bound : Nat) :
    Dd.wait host moves done bound (dd, out) = (dd, out) := by
  cases bound with
  | zero => rfl
  | succ bound => exact if_pos stops

theorem World.atRest_file {w : World} (none : w.dd = none) : w.atRest host times = w := by
  unfold World.atRest World.waitFor
  exact World.advance_none none _

theorem World.atRest_ended {w : World} {dd : Dd} (is : w.dd = some dd) (ended : dd.ended = true) :
    (w.atRest host times).out = w.out := by
  unfold World.atRest World.waitFor
  rw [World.advance_some is]
  dsimp only
  rw [Dd.wait_done ended]

/-- `dd` has got everything. -/
def World.Closing (host : Host) (p : Place) (sent : Bytes) (w : World) : Prop :=
  ∃ dd, w.dd = some dd ∧ dd.Closed host p sent w.out

theorem World.Closing.advance (counts : List Nat) (clock : Nat) (w : World)
    (closing : w.Closing host p sent) :
    World.Closing host p sent { w.advance (Dd.turns host counts) with clock := clock } := by
  obtain ⟨dd, is, all⟩ := closing
  rw [World.advance_some is]
  exact ⟨_, rfl, Dd.turns_induct Dd.Closed.turn counts dd w.out all⟩

theorem World.Closing.atRest {w : World} (closing : w.Closing host p sent) :
    (w.atRest host times).out.place = p.put 0 (sent.take (p.capacity host)) := by
  obtain ⟨dd, is, all⟩ := closing
  obtain ⟨still, ended⟩ := all.wait (times.waiting w.clock)
  unfold World.atRest World.waitFor
  rw [World.advance_some is]
  exact still.holds.whole ended

theorem World.Accepted.closePipe {w : World} {dev : String}
    (accepted : w.Accepted host p sent (.sudo dev)) : w.closePipe.Closing host p sent := by
  obtain ⟨dd, is, _, holds⟩ := accepted
  unfold World.closePipe
  rw [World.advance_some is]
  refine ⟨_, rfl, rfl, ?_⟩
  cases holds with
  | runs written running parts held => exact .runs written running parts held
  | full failed full => exact .full failed full
  | ended closed success held => exact .ended rfl success held

/-- What dropping the writer leaves of a copy that has accepted everything. -/
theorem World.Accepted.dropped {w : World} (accepted : w.Accepted host p sent writer) :
    (w.closePipe.atRest host times).out.place = p.put 0 (sent.take (p.capacity host)) := by
  cases writer with
  | file dev =>
      obtain ⟨none, held⟩ := accepted
      unfold World.closePipe
      rw [World.advance_none none, World.atRest_file none]
      exact held.whole
  | «sudo» dev => exact accepted.closePipe.atRest

theorem World.Broken.dropped {w : World} {data : Bytes} (broken : w.Broken host p data writer) :
    (w.closePipe.atRest host times).out.place = p.put 0 (data.take (p.capacity host)) := by
  cases writer with
  | file dev =>
      obtain ⟨none, full⟩ := broken
      unfold World.closePipe
      rw [World.advance_none none, World.atRest_file none]
      exact full.place
  | «sudo» dev =>
      obtain ⟨dd, is, failed, full⟩ := broken
      unfold World.closePipe
      rw [World.advance_some is, World.atRest_ended rfl (by rw [Dd.ended, failed]; rfl)]
      exact full.place

theorem World.Broken.exceeds {w : World} {data : Bytes} (broken : w.Broken host p data writer) :
    p.capacity host < data.length := by
  cases writer with
  | file dev => exact broken.2.exceeds
  | «sudo» dev =>
      obtain ⟨_, _, _, full⟩ := broken
      exact full.exceeds

theorem syncAll_spec :
    Spec (fun w => w.dd = none ∧ w.out.Holds host p sent) (syncAll host times)
      (.onReturn (fun _ w => host.syncs = none ∧ w.dd = none ∧ w.out.Holds host p sent)
        fun _ w => host.syncs ≠ none ∧ w.dd = none ∧ w.out.Holds host p sent) := by
  refine call_spec ?_ ?_ fun _ _ => trivial
  · intro counts clock w holds
    rw [World.advance_none holds.1]
    exact holds
  · intro w holds
    cases syncs : host.syncs with
    | some e => exact ⟨Option.some_ne_none e, holds⟩
    | none => exact ⟨rfl, holds⟩

theorem waitDd_spec :
    Spec (World.Closing host p sent) (waitDd host times)
      (.onReturn
        (fun success w =>
          success = (host.syncs.isNone && decide (sent.length ≤ p.capacity host)) ∧
            (w.atRest host times).out.place = p.put 0 (sent.take (p.capacity host)))
        fun _ _ => False) := by
  refine call_spec World.Closing.advance ?_ fun _ _ => trivial
  intro w closing
  obtain ⟨dd, is, all⟩ := closing
  obtain ⟨still, ended⟩ := all.wait (times.waiting w.clock)
  dsimp only
  unfold World.waitFor
  rw [World.advance_some is]
  refine ⟨still.holds.success ended, ?_⟩
  rw [World.atRest_ended rfl ended]
  exact still.holds.whole ended

theorem finish_spec :
    Spec (fun w => image.fault = none ∧ w.Accepted host p image.content writer)
      (finish host times writer) (afterWrite host times p image) := by
  apply Spec.assume
  intro readable
  have verdict : fits host p image =
      (host.syncs.isNone && decide (image.content.length ≤ p.capacity host)) := by
    rw [fits, readable]
    rfl
  cases writer with
  | file dev =>
      apply Spec.mapError
      refine syncAll_spec.weaken (fun _ holds => holds) ?_ ?_ fun _ _ => trivial
      · intro _ w synced
        obtain ⟨syncs, none, held⟩ := synced
        refine ⟨?_, ?_⟩
        · rw [verdict, syncs, decide_eq_true held.fits]
          rfl
        · rw [World.atRest_file none]
          exact held.whole
      · intro e w failed
        obtain ⟨syncs, none, held⟩ := failed
        refine ⟨?_, ?_⟩
        · rw [verdict, Option.isNone_eq_false_iff.mpr (Option.isSome_iff_ne_none.mpr syncs)]
          rfl
        · rw [World.atRest_file none]
          exact held.whole
  | «sudo» dev =>
      apply Spec.bind fun _ => World.Closing host p image.content
      · exact Spec.modify fun _ accepted => accepted.closePipe
      · intro _
        apply Spec.bind fun success w => success = fits host p image ∧
          (w.atRest host times).out.place = p.imaged host image
        · apply Spec.mapError
          refine waitDd_spec.weaken (fun _ holds => holds) ?_ (fun _ _ never => never.elim)
            fun _ _ => trivial
          intro success w ended
          exact ⟨ended.1.trans verdict.symm, ended.2⟩
        · intro success
          cases success with
          | true => exact Spec.pure fun _ ended => ⟨ended.1.symm, ended.2⟩
          | false => exact Spec.fail fun _ ended => ⟨ended.1.symm, ended.2⟩

/-- The copy into an open sink, finished or dropped. -/
theorem writeOpened_spec :
    Spec (World.Accepted host p [] writer) (writeOpened host times image writer)
      (afterWrite host times p image) := by
  apply Spec.bind fun
    | .ok _ => fun w => image.fault = none ∧ w.Accepted host p image.content writer
    | .error _ => fun w => (image.fault.isSome = true ∧ w.Accepted host p image.content writer) ∨
        w.Broken host p image.content writer
  · exact Spec.attempt copy_spec
  · intro result
    cases result with
    | ok _ => exact Spec.mapError finish_spec
    | error e =>
        apply Spec.bind fun _ w => fits host p image = false ∧
          (w.atRest host times).out.place = p.imaged host image
        · apply Spec.modify
          intro w failed
          rcases failed with ⟨fault, accepted⟩ | broken
          · refine ⟨?_, accepted.dropped⟩
            rw [fits, Option.isNone_eq_false_iff.mpr fault]
            rfl
          · have exceeds := broken.exceeds
            refine ⟨?_, broken.dropped⟩
            rw [fits, decide_eq_false (by omega), Bool.and_false]
        · intro _
          exact Spec.fail fun _ failed => failed

/-! ## The write comes to its end -/

theorem call_halts {Error α : Type} (operation : World → Except Error α × World) :
    Halts (call host times operation) :=
  Halts.perform _

/-- No write is interrupted. -/
theorem write_calm (rest : Bytes) :
    Spec (fun _ => True) (write host times writer rest)
      (.onReturn (fun _ _ => True) fun e _ => e.kind ≠ .interrupted) := by
  refine call_spec (fun _ _ _ _ => trivial) ?_ fun _ _ => trivial
  intro w _
  cases writer with
  | file dev =>
      change Post.Answered _ (writeFile host times rest w)
      unfold writeFile
      dsimp only
      split
      · exact (by decide : noSpace.kind ≠ .interrupted)
      · trivial
  | «sudo» dev =>
      change Post.Answered _ (writePipe host times rest w)
      unfold writePipe
      dsimp only
      split
      · exact (by decide : brokenPipe.kind ≠ .interrupted)
      · split
        · exact (by decide : brokenPipe.kind ≠ .interrupted)
        · trivial

/-- A turn of the copy that goes on leaves less of the image. -/
theorem copyTurn_shrinks (state : Nat × Nat) :
    Spec (fun _ => True)
      (copyTurn (image.read host times) (write host times writer)
        (fun done => send (.progress done image.content.length)) state)
      (.onReturn (fun turn _ => Below (fun state : Nat × Nat => image.content.length - state.1)
        (image.content.length - state.1) turn) fun _ _ => True) := by
  obtain ⟨pos, done⟩ := state
  have large : 0 < chunkSize := by decide
  apply Spec.bind fun result _ => image.Delivers pos result ∧ True
  · apply Spec.mapError
    exact (Image.read_spec large (fun _ _ _ _ => trivial) pos).imp fun _ _ holds => holds
  · intro (chunk, next)
    dsimp only
    apply Spec.assume
    intro delivers
    by_cases empty : chunk.isEmpty = true
    · rw [if_pos empty]
      exact Spec.pure fun _ _ => trivial
    · rw [if_neg empty]
      have less := delivers.moved (by simpa using empty)
      apply Spec.bind fun _ _ => True
      · exact fun w fuel _ => by
          cases ioContext "writing destination" (writeAll (write host times writer) chunk) w fuel <;>
            trivial
      · intro _
        apply Spec.bind fun _ _ => True
        · exact Spec.modify fun _ _ => trivial
        · intro _
          exact Spec.pure fun _ _ => less

theorem copy_halts :
    Halts (copyWithProgress (image.read host times) (write host times writer)
      (fun done => send (.progress done image.content.length)) 0) := by
  apply Halts.loop fun state : Nat × Nat => image.content.length - state.1
  · intro (pos, done)
    apply Halts.bind (call_halts _).mapError
    intro (chunk, next)
    dsimp only
    apply Halts.ite (Halts.pure _)
    apply Halts.bind (writeAll_halts (fun rest => call_halts _) write_calm chunk).mapError
    intro _
    exact Halts.bind (Halts.modify _) fun _ => Halts.pure _
  · exact copyTurn_shrinks

theorem finish_halts : Halts (finish host times writer) := by
  cases writer with
  | file dev => exact (call_halts _).mapError
  | «sudo» dev =>
      apply Halts.bind (Halts.modify _)
      intro _
      apply Halts.bind (call_halts _).mapError
      intro success
      exact Halts.ite (Halts.pure _) (Halts.fail _)

theorem writeOpened_halts : Halts (writeOpened host times image writer) := by
  apply Halts.bind copy_halts.attempt
  intro result
  cases result with
  | ok _ => exact finish_halts.mapError
  | error e => exact Halts.bind (Halts.modify _) fun _ => Halts.fail _

theorem writeImage_halts (elev : Elevation) (dev : String) :
    Halts (writeImage host times elev dev image) := by
  apply Halts.bind _ fun _ => writeOpened_halts
  apply Halts.mapError
  cases elev with
  | root => exact Halts.bind (call_halts _).mapError fun _ => Halts.pure _
  | «sudo» secret => exact Halts.bind (call_halts _).mapError fun _ => Halts.pure _

end Sinks

/-! ## The verdict and the path -/

/-- Nothing is open yet. -/
def World.start (place : Place) : World := ⟨0, ⟨place, 0⟩, none, []⟩

/-- The device path: a block device, or nothing. -/
def Place.ofDevice : Option Bytes → Place
  | some content => .device content
  | none => .missing

/-- The write comes to its end with this verdict, and the path is like this once
`dd` has ended too. -/
def Leads (host : Host) (times : Times) (elev : Elevation) (dev : String) (image : Image)
    (place : Place) (verdict : Bool) (final : Place) : Prop :=
  ∃ result after cost,
    Runs (attempt (writeImage host times elev dev image)) (World.start place) result after cost ∧
      result.isOk = verdict ∧ (after.atRest host times).out.place = final

/-- Both ways of writing come to the same verdict and leave the same path, whenever
each of them gets its turns. -/
def SameEffect (host : Host) (rootTimes sudoTimes : Times) (secret dev : String) (image : Image)
    (place : Place) : Prop :=
  ∃ verdict final, Leads host rootTimes .root dev image place verdict final ∧
    Leads host sudoTimes (.sudo secret) dev image place verdict final

theorem Leads.unique {host : Host} {times : Times} {elev : Elevation} {dev : String} {image : Image}
    {place final final' : Place} {verdict verdict' : Bool}
    (one : Leads host times elev dev image place verdict final)
    (other : Leads host times elev dev image place verdict' final') :
    verdict = verdict' ∧ final = final' := by
  obtain ⟨result, after, cost, run, rfl, rfl⟩ := one
  obtain ⟨result', after', cost', run', rfl, rfl⟩ := other
  obtain ⟨rfl, rfl⟩ := run.unique run'
  exact ⟨rfl, rfl⟩

/-- What a write that comes to its end leads to, a triple says. -/
theorem Leads.of_spec {host : Host} {times : Times} {elev : Elevation} {dev : String} {image : Image}
    {place final : Place} {verdict : Bool}
    (spec : Spec (· = World.start place) (writeImage host times elev dev image)
      (.onReturn (fun _ w => verdict = true ∧ (w.atRest host times).out.place = final)
        fun _ w => verdict = false ∧ (w.atRest host times).out.place = final)) :
    Leads host times elev dev image place verdict final := by
  obtain ⟨result, after, cost, run, met⟩ :=
    (writeImage_halts elev dev).finishes spec (World.start place) rfl
  cases result with
  | ok _ => exact ⟨_, after, cost, run, met.1.symm, met.2⟩
  | error _ => exact ⟨_, after, cost, run, met.1.symm, met.2⟩

section Verdict

variable {host : Host} {times : Times} {dev : String} {image : Image} {place : Place}

theorem openFile_missing :
    Spec (· = World.start .missing) (openFile host times)
      (.onReturn (fun _ _ => False) fun _ w => (w.atRest host times).out.place = .missing) := by
  apply Spec.answered fun _ _ => trivial
  intro w isStart
  subst isStart
  exact rfl

theorem openFile_spec (dev : String) (present : place ≠ .missing) :
    Spec (· = World.start place) (openFile host times)
      (.onReturn (fun _ => World.Accepted host place [] (.file dev)) fun _ _ => False) := by
  apply Spec.answered fun _ _ => trivial
  intro w isStart
  subst isStart
  change Post.Answered _ (if place = .missing then _ else _)
  rw [if_neg present]
  exact ⟨rfl, Handle.Holds.start host place present⟩

theorem spawnDd_spec (dev : String) (present : place.created ≠ .missing) :
    Spec (· = World.start place) (spawnDd host times)
      (.onReturn (fun _ => World.Accepted host place.created [] (.sudo dev)) fun _ _ => False) := by
  unfold spawnDd call
  apply Spec.answered fun _ _ => trivial
  intro w isStart
  subst isStart
  exact ⟨_, rfl, rfl, .runs [] rfl rfl (Handle.Holds.start host place.created present)⟩

/-- A sink that opens, and takes the image from there. -/
theorem Leads.of_open {elev : Elevation} {p : Place}
    (opens : Spec (· = World.start place) (openWriter host times elev dev)
      (.onReturn (fun writer => World.Accepted host p [] writer) fun _ _ => False)) :
    Leads host times elev dev image place (fits host p image) (p.imaged host image) := by
  apply Leads.of_spec
  apply Spec.bind fun writer => World.Accepted host p [] writer
  · apply Spec.mapError
    exact opens.unfailing
  · exact fun _ => writeOpened_spec

/-- As root nothing is created. -/
theorem root_missing : Leads host times .root dev image .missing false .missing := by
  apply Leads.of_spec
  apply Spec.bind fun _ _ => False
  · apply Spec.mapError
    apply Spec.bind fun _ _ => False
    · apply Spec.mapError
      exact openFile_missing.weaken (fun _ holds => holds) (fun _ _ never => never)
        (fun _ _ same => ⟨rfl, same⟩) fun _ _ => trivial
    · intro _
      exact Spec.pure fun _ never => never
  · exact fun _ _ _ never => never.elim

theorem root_leads (present : place ≠ .missing) :
    Leads host times .root dev image place (fits host place image) (place.imaged host image) := by
  apply Leads.of_open
  apply Spec.bind fun _ => World.Accepted host place [] (.file dev)
  · exact Spec.mapError (openFile_spec dev present)
  · intro _
    exact Spec.pure fun _ accepted => accepted

theorem sudo_leads (secret : String) :
    Leads host times (.sudo secret) dev image place (fits host place.created image)
      (place.created.imaged host image) := by
  have present : place.created ≠ .missing := by
    cases place <;> exact Place.noConfusion
  apply Leads.of_open
  apply Spec.bind fun _ => World.Accepted host place.created [] (.sudo dev)
  · exact Spec.mapError (spawnDd_spec dev present)
  · intro _
    exact Spec.pure fun _ accepted => accepted

/-- The two ways of writing agree exactly where there is a device to write to. -/
theorem sinks_agree_iff (host : Host) (rootTimes sudoTimes : Times) (secret dev : String)
    (image : Image) (device : Option Bytes) :
    SameEffect host rootTimes sudoTimes secret dev image (.ofDevice device) ↔
      device.isSome = true := by
  constructor
  · intro same
    obtain ⟨verdict, final, asRoot, asUser⟩ := same
    cases device with
    | some content => rfl
    | none =>
        obtain ⟨rfl, rfl⟩ := root_missing.unique asRoot
        obtain ⟨_, created⟩ := (sudo_leads secret).unique asUser
        cases created
  · intro present
    cases device with
    | none => cases present
    | some content => exact ⟨_, _, root_leads Place.noConfusion, sudo_leads secret⟩

/-- The kernel's usual pipe, and every turn takes all it can. -/
def plainHost : Host := ⟨1048576, 65536, by decide, none⟩

def plainTimes : Times := ⟨fun _ => 4194304, fun _ => [4194304], fun _ _ => 4194304⟩

/-- With the stick gone, root is told so, and `dd` writes the image to a regular
file in its place. -/
theorem removed_stick_not_same :
    Leads plainHost plainTimes .root "/dev/sdb" ⟨[69, 70, 73], none⟩ (.ofDevice none) false .missing ∧
      Leads plainHost plainTimes (.sudo "pw") "/dev/sdb" ⟨[69, 70, 73], none⟩ (.ofDevice none) true
        (.file [69, 70, 73]) ∧
      ¬ SameEffect plainHost plainTimes plainTimes "pw" "/dev/sdb" ⟨[69, 70, 73], none⟩
        (.ofDevice none) := by
  have asRoot : Leads plainHost plainTimes .root "/dev/sdb" ⟨[69, 70, 73], none⟩ .missing false
      .missing := root_missing
  have asUser : Leads plainHost plainTimes (.sudo "pw") "/dev/sdb" ⟨[69, 70, 73], none⟩ .missing true
      (.file [69, 70, 73]) := sudo_leads "pw"
  refine ⟨asRoot, asUser, fun same => ?_⟩
  obtain ⟨verdict, final, rootLeads, userLeads⟩ := same
  obtain ⟨rfl, rfl⟩ := asRoot.unique rootLeads
  obtain ⟨impossible, _⟩ := asUser.unique userLeads
  cases impossible

end Verdict

end Nixnas.Tui.Sinks
