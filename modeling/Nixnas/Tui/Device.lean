import Nixnas.Rust.Io
import Nixnas.Tui.Sudo

/-!
# Elevated device access

The handles of `src/tui/src/sudo.rs`: commands, the seekable reader over a
`File` or over `sudo dd`, and the writer over a `File` or over the pipe of a
`sudo dd`.

Every operation of a run has a `Reply`, found by the time of the operation: it
says whether the operation fails, how much a read or a write moves, and what a
device does with what is written to it.  What a reader delivers is part of what
the device holds; where a write lands is up to the reply.
-/

set_option autoImplicit false

namespace Nixnas.Tui.Sudo

open Nixnas.Logic Nixnas.Logic.Action
open Nixnas.Rust

/-! ## The world -/

structure Output where
  success : Bool
  stdout : String
  stderr : String

/-- What the operating system answers to one operation. -/
structure Reply where
  error : Option IoError
  /-- How many bytes a read or a write moves, within its bounds. -/
  count : Nat
  /-- How many bytes of its range a `dd` comes back without. -/
  short : Nat
  output : Output
  /-- What `blockdev --getsize64` prints of a device of some size. -/
  blockdev : Nat → Output
  present : Bool
  /-- The device after a write: from what it held when it was opened, what the
  writer has accepted since, and what it holds. -/
  deliver : Bytes → Bytes → Bytes → Bytes
  /-- The same after the `fsync` or the end of `dd`. -/
  settle : Bytes → Bytes → Bytes → Bytes
  /-- The device after a command that may write to it. -/
  tool : Bytes → Bytes

/-- The image files of `.nixnas-image`, which nothing writes meanwhile. -/
structure Env where
  image : String → Bytes
  reply : Nat → Reply

structure World (Event : Type) where
  clock : Nat
  devices : String → Bytes
  files : String → Option Bytes
  synced : String → Bool
  /-- What the device that is written held when it was opened. -/
  original : Bytes
  /-- What its writer has accepted. -/
  accepted : Bytes
  /-- A writer has been given bytes, or told to finish. -/
  wrote : Bool
  /-- What the reader of the backup has delivered, and whether it came to its end. -/
  delivered : Bytes
  ended : Bool
  events : List Event

variable {Event α : Type}

abbrev Step (Event α : Type) := Action (World Event) String α

/-- The world with nothing written or read yet. -/
def World.fresh (w : World Event) : World Event :=
  { w with original := [], accepted := [], wrote := false, delivered := [], ended := false }

/-- The world without its clock. -/
def World.still (w : World Event) : World Event := { w with clock := 0 }

/-- The world without its clock and its events. -/
def World.quiet (w : World Event) : World Event := { w.still with events := [] }

def World.setDevice (w : World Event) (dev : String) (content : Bytes) : World Event :=
  { w with devices := fun other => if other = dev then content else w.devices other }

def World.setFile (w : World Event) (path : String) (content : Bytes) (synced : Bool) :
    World Event :=
  { w with
    files := fun other => if other = path then some content else w.files other
    synced := fun other => if other = path then synced else w.synced other }

@[simp] theorem World.setDevice_self (w : World Event) (dev : String) (content : Bytes) :
    (w.setDevice dev content).devices dev = content := by
  simp [World.setDevice]

@[simp] theorem World.setFile_self (w : World Event) (path : String) (content : Bytes)
    (synced : Bool) : (w.setFile path content synced).files path = some content := by
  simp [World.setFile]

@[simp] theorem World.setFile_synced (w : World Event) (path : String) (content : Bytes)
    (synced : Bool) : (w.setFile path content synced).synced path = synced := by
  simp [World.setFile]

/-! ## Operations -/

/-- One operation, with its reply. -/
def call {Error : Type} (env : Env)
    (operation : Reply → World Event → Except Error α × World Event) :
    Action (World Event) Error α :=
  perform fun w => operation (env.reply w.clock) { w with clock := w.clock + 1 }

/-- An operation that changes nothing. -/
def ask (env : Env) (answer : Reply → α) : Io (World Event) α :=
  call env fun reply w =>
    match reply.error with
    | some e => (.error e, w)
    | none => (.ok (answer reply), w)

def send (event : Event) : Step Event Unit := modify fun w => { w with events := w.events ++ [event] }

def unwords (argv : List String) : String := String.intercalate " " argv

/-- What a command that writes to no device leads to. -/
def readOnly (reply : Reply) (w : World Event) : Output × World Event := (reply.output, w)

/-- The same for a command that may write to a device. -/
def touching (dev : String) (reply : Reply) (w : World Event) : Output × World Event :=
  (reply.output, w.setDevice dev (reply.tool (w.devices dev)))

/-- `Child::wait_with_output`. -/
def waitWithOutput (env : Env) (command : Reply → World Event → Output × World Event) :
    Io (World Event) Output :=
  call env fun reply w =>
    let (out, w) := command reply w
    match reply.error with
    | some e => (.error e, w)
    | none => (.ok out, w)

/-- `run_captured`. -/
def runCaptured (env : Env) (argv : List String)
    (command : Reply → World Event → Output × World Event) : Step Event Output := do
  ioContext ("running " ++ unwords argv) (ask env fun _ => ())
  ioContext ("waiting for " ++ unwords argv) (waitWithOutput env command)

/-- `run_with_input`; the input reaches the child only. -/
def runWithInput (env : Env) (argv : List String) (_input : Bytes)
    (command : Reply → World Event → Output × World Event) : Step Event Output := do
  ioContext ("running " ++ unwords argv) (ask env fun _ => ())
  ioContext ("feeding stdin of " ++ unwords argv) (ask env fun _ => ())
  ioContext ("waiting for " ++ unwords argv) (waitWithOutput env command)

/-! ## The reader -/

/-- What a reader is opened on. -/
inductive Node where
  | device (path : String)
  | image (path : String)
  deriving DecidableEq, Repr

def Node.path : Node → String
  | .device path => path
  | .image path => path

def World.content (env : Env) (w : World Event) : Node → Bytes
  | .device path => w.devices path
  | .image path => env.image path

/-- What `blockdev` and `dd` are documented to do: print the size of the device,
and copy the whole range. -/
structure Env.Honest (env : Env) : Prop where
  size : ∀ n len size, ((env.reply n).blockdev len).success = true →
    parseUnsigned u64Bound (trim ((env.reply n).blockdev len).stdout) = .ok size → size = len
  range : ∀ n, (env.reply n).short = 0

def sizing (env : Env) (node : Node) (reply : Reply) (w : World Event) : Output × World Event :=
  (reply.blockdev (w.content env node).length, w)

/-- `device_size`. -/
def deviceSize (env : Env) (node : Node) : Step Event Nat := do
  let out ← runCaptured env ["blockdev", "--getsize64", node.path] (sizing env node)
  if !out.success then
    fail ("blockdev --getsize64 " ++ node.path ++ " failed: " ++ trim out.stderr)
  else
    match parseUnsigned u64Bound (trim out.stdout) with
    | .ok size => pure size
    | .error e => fail ("parsing blockdev size: " ++ e)

/-- `BLOCK`. -/
def blockSize : Nat := 1024 * 1024

structure SudoReader where
  node : Node
  len : Nat
  pos : Nat
  cache : Bytes
  cacheStart : Nat

def SudoReader.new (node : Node) (len : Nat) : SudoReader := ⟨node, len, 0, [], 0⟩

inductive DevReader where
  | file (node : Node) (pos : Nat)
  | «sudo» (reader : SudoReader)

def DevReader.node : DevReader → Node
  | .file node _ => node
  | .sudo s => s.node

def DevReader.pos : DevReader → Nat
  | .file _ pos => pos
  | .sudo s => s.pos

/-- `open_device_read`. -/
def openDeviceRead (env : Env) (path : String) : Step Event Unit :=
  mapError
    (fun e =>
      if e.kind = .permissionDenied then
        "no permission to read " ++ path ++ " — run nixnas as a user that can sudo, add yourself " ++
          "to the `disk` group, or run as root."
      else "opening " ++ path ++ ": " ++ e.text)
    (ask env fun _ => ())

/-- `open_reader`. -/
def openReader (env : Env) (elev : Elevation) (node : Node) : Step Event DevReader :=
  match elev with
  | .root => do
      openDeviceRead env node.path
      pure (.file node 0)
  | .sudo _ => do
      let len ← deviceSize env node
      pure (.sudo (SudoReader.new node len))

/-- `dd_range`: however many bytes of the range came back. -/
def ddRange (env : Env) (node : Node) (off len : Nat) : Io (World Event) Bytes := do
  ask env fun _ => ()
  call env fun reply w =>
    match reply.error with
    | some e => (.error e, w)
    | none =>
        let range := ((w.content env node).drop off).take len
        if reply.output.success then (.ok (range.take (range.length - reply.short)), w)
        else (.error ⟨.other, "sudo dd read failed: " ++ trim reply.output.stderr⟩, w)

/-- The block cache, refilled by an aligned fetch unless the position is in it. -/
def SudoReader.refill (env : Env) (s : SudoReader) : Io (World Event) SudoReader :=
  if s.cacheStart ≤ s.pos ∧ s.pos < s.cacheStart + s.cache.length then pure s
  else do
    let start := s.pos - s.pos % blockSize
    let cache ← ddRange env s.node start (min blockSize (s.len - start))
    pure { s with cache := cache, cacheStart := start }

/-- What the cache has from the position on. -/
def SudoReader.fromCache (s : SudoReader) (want : Nat) : Bytes × SudoReader :=
  let offset := s.pos - s.cacheStart
  if s.cache.length ≤ offset then ([], s)
  else
    let n := min (s.cache.length - offset) want
    ((s.cache.drop offset).take n, { s with pos := s.pos + n })

/-- `SudoReader::read` into a buffer of `size` bytes. -/
def SudoReader.read (env : Env) (s : SudoReader) (size : Nat) :
    Io (World Event) (Bytes × SudoReader) :=
  if s.len ≤ s.pos then pure ([], s)
  else
    let want := min size (s.len - s.pos)
    if want = 0 then pure ([], s)
    else if blockSize ≤ want then do
      let data ← ddRange env s.node s.pos want
      let n := min data.length want
      pure (data.take n, { s with pos := s.pos + n })
    else do
      let s ← s.refill env
      pure (s.fromCache want)

/-- `Read::read` of a plain file. -/
def readFile (env : Env) (node : Node) (pos size : Nat) : Io (World Event) Bytes :=
  call env fun reply w =>
    match reply.error with
    | some e => (.error e, w)
    | none => (.ok (readSome ((w.content env node).drop pos) size reply.count), w)

def DevReader.read (env : Env) (reader : DevReader) (size : Nat) :
    Io (World Event) (Bytes × DevReader) :=
  match reader with
  | .file node pos => do
      let chunk ← readFile env node pos size
      pure (chunk, .file node (pos + chunk.length))
  | .sudo s => do
      let (chunk, s) ← s.read env size
      pure (chunk, .sudo s)

/-! ## The writer -/

inductive DevWriter where
  | file (dev : String)
  | «sudo» (dev : String)

def DevWriter.dev : DevWriter → String
  | .file dev => dev
  | .sudo dev => dev

/-- Opening the device, or spawning `dd` on it: what is written from here on
lands over what the device holds now. -/
def beginWrite (env : Env) (dev : String) : Io (World Event) Unit :=
  call env fun reply w =>
    match reply.error with
    | some e => (.error e, w)
    | none => (.ok (), { w with original := w.devices dev, accepted := [] })

/-- `open_writer`. -/
def openWriter (env : Env) (elev : Elevation) (dev : String) : Step Event DevWriter :=
  match elev with
  | .root => do
      ioContext ("opening " ++ dev ++ " for writing") (beginWrite env dev)
      pure (.file dev)
  | .sudo _ => do
      ioContext ("spawning sudo dd of=" ++ dev) (beginWrite env dev)
      pure (.sudo dev)

/-- The device after its writer has accepted `bytes`. -/
def World.deliver (w : World Event) (dev : String) (reply : Reply) (bytes : Bytes) : World Event :=
  let accepted := w.accepted ++ bytes
  { w.setDevice dev (reply.deliver w.original accepted (w.devices dev)) with
    accepted := accepted
    wrote := true }

/-- The device after its writer was told to finish. -/
def World.settle (w : World Event) (dev : String) (reply : Reply) : World Event :=
  { w.setDevice dev (reply.settle w.original w.accepted (w.devices dev)) with wrote := true }

/-- `Write::write`. -/
def DevWriter.write (env : Env) (writer : DevWriter) (buf : Bytes) : Io (World Event) Nat :=
  call env fun reply w =>
    match reply.error with
    | some e => (.error e, w.deliver writer.dev reply [])
    | none =>
        let n := min reply.count buf.length
        (.ok n, w.deliver writer.dev reply (buf.take n))

/-- `File::sync_all`, or closing the pipe and waiting for `dd`. -/
def endWrite (env : Env) (dev : String) (answer : Reply → α) : Io (World Event) α :=
  call env fun reply w =>
    match reply.error with
    | some e => (.error e, w.settle dev reply)
    | none => (.ok (answer reply), w.settle dev reply)

/-- `DevWriter::finish`. -/
def DevWriter.finish (env : Env) : DevWriter → Step Event Unit
  | .file dev => ioContext "syncing the device after the write" (endWrite env dev fun _ => ())
  | .sudo dev => do
      let success ← ioContext "waiting for sudo dd" (endWrite env dev fun r => r.output.success)
      if success then pure ()
      else fail "sudo dd (device write) failed — is the sudo timestamp still valid?"

/-- Dropping a writer that was not finished: what it has accepted may still land. -/
def DevWriter.drop (env : Env) (writer : DevWriter) : Step Event Unit :=
  call env fun reply w => (.ok (), w.deliver writer.dev reply [])

/-! ## What reading changes -/

theorem call_preserves {Error Part : Type} {part : World Event → Part} {env : Env}
    {operation : Reply → World Event → Except Error α × World Event}
    (ticks : ∀ w : World Event, part { w with clock := w.clock + 1 } = part w)
    (keeps : ∀ reply w, part (operation reply w).2 = part w) :
    Preserves part (call env operation) :=
  Preserves.perform fun w => (keeps _ _).trans (ticks w)

theorem still_ticks (w : World Event) : { w with clock := w.clock + 1 }.still = w.still := rfl

theorem ask_still (env : Env) (answer : Reply → α) :
    Preserves World.still (ask env answer : Io (World Event) α) := by
  apply call_preserves still_ticks
  intro reply w
  cases reply.error <;> rfl

theorem runCaptured_still (env : Env) (argv : List String)
    {command : Reply → World Event → Output × World Event}
    (reads : ∀ reply w, (command reply w).2 = w) :
    Preserves World.still (runCaptured env argv command : Step Event Output) := by
  apply Preserves.bind (Preserves.mapError (ask_still env _))
  intro _
  apply Preserves.mapError
  apply call_preserves still_ticks
  intro reply w
  have same := reads reply w
  cases reply.error <;> exact congrArg World.still same

theorem deviceSize_still (env : Env) (node : Node) :
    Preserves World.still (deviceSize env node : Step Event Nat) := by
  apply Preserves.bind (runCaptured_still env _ fun _ _ => rfl)
  intro out
  apply Preserves.ite (Preserves.fail _)
  cases parseUnsigned u64Bound (trim out.stdout) with
  | ok size => exact Preserves.pure _
  | error e => exact Preserves.fail _

theorem openReader_still (env : Env) (elev : Elevation) (node : Node) :
    Preserves World.still (openReader env elev node : Step Event DevReader) := by
  cases elev with
  | root => exact Preserves.bind (Preserves.mapError (ask_still env _)) fun _ => Preserves.pure _
  | «sudo» _ => exact Preserves.bind (deviceSize_still env _) fun _ => Preserves.pure _

theorem ddRange_still (env : Env) (node : Node) (off len : Nat) :
    Preserves World.still (ddRange env node off len : Io (World Event) Bytes) := by
  apply Preserves.bind (ask_still env _)
  intro _
  apply call_preserves still_ticks
  intro reply w
  cases reply.error with
  | some e => rfl
  | none =>
      dsimp only
      split <;> rfl

theorem SudoReader.refill_still (env : Env) (s : SudoReader) :
    Preserves World.still (s.refill env : Io (World Event) SudoReader) := by
  apply Preserves.ite (Preserves.pure _)
  exact Preserves.bind (ddRange_still env _ _ _) fun _ => Preserves.pure _

theorem SudoReader.read_still (env : Env) (s : SudoReader) (size : Nat) :
    Preserves World.still (s.read env size : Io (World Event) (Bytes × SudoReader)) := by
  apply Preserves.ite (Preserves.pure _)
  apply Preserves.ite (Preserves.pure _)
  apply Preserves.ite
  · exact Preserves.bind (ddRange_still env _ _ _) fun _ => Preserves.pure _
  · exact Preserves.bind (s.refill_still env) fun _ => Preserves.pure _

theorem DevReader.read_still (env : Env) (reader : DevReader) (size : Nat) :
    Preserves World.still (reader.read env size : Io (World Event) (Bytes × DevReader)) := by
  cases reader with
  | file node pos =>
      apply Preserves.bind _ fun _ => Preserves.pure _
      apply call_preserves still_ticks
      intro reply w
      cases reply.error <;> rfl
  | «sudo» s => exact Preserves.bind (s.read_still env size) fun _ => Preserves.pure _

/-! ## What reading delivers -/

/-- What an operation that was not stopped leads to. -/
def Answers {Error : Type} (post : Post (World Event) Error α) :
    Except Error α × World Event → Prop
  | (.ok value, w) => post.ok value w
  | (.error e, w) => post.error e w

theorem call_spec {Error : Type} {before : World Event → Prop} {post : Post (World Event) Error α}
    {env : Env} {operation : Reply → World Event → Except Error α × World Event}
    (stopped : ∀ w, before w → post.stopped w)
    (answers : ∀ w, before w →
      Answers post (operation (env.reply w.clock) { w with clock := w.clock + 1 })) :
    Spec before (call env operation) post := by
  apply Spec.perform stopped
  · intro w value next holds result
    have met := answers w holds
    rw [result] at met
    exact met
  · intro w e next holds result
    have met := answers w holds
    rw [result] at met
    exact met

section Reading

variable {env : Env} {content : Bytes}

theorem ddRange_spec (node : Node) (off len : Nat) :
    Spec (fun w : World Event => w.content env node = content) (ddRange env node off len)
      (.onReturn
        (fun data _ => data <+: (content.drop off).take len ∧
          (env.Honest → data = (content.drop off).take len))
        fun _ _ => True) := by
  have asked : Preserves (fun w : World Event => w.content env node) (ask env fun _ => ()) :=
    (ask_still env _).comp fun w => w.content env node
  apply Spec.bind _ (asked.returns content)
  intro _
  apply call_spec fun _ _ => trivial
  intro w (holds : w.content env node = content)
  dsimp only
  cases (env.reply w.clock).error with
  | some e => exact trivial
  | none =>
      dsimp only
      by_cases success : (env.reply w.clock).output.success = true
      · rw [if_pos success]
        change _ ∧ _
        rw [show World.content env { w with clock := w.clock + 1 } node = content from holds]
        refine ⟨List.take_prefix _ _, fun honest => ?_⟩
        rw [honest.range]
        exact List.take_length
      · rw [if_neg success]
        exact trivial

/-- The cache holds bytes of the device. -/
def SudoReader.Sound (content : Bytes) (s : SudoReader) : Prop :=
  s.cache <+: content.drop s.cacheStart

def DevReader.Sound (content : Bytes) : DevReader → Prop
  | .file _ _ => True
  | .sudo s => s.Sound content

/-- The reader comes to its end at the end of the device only. -/
def DevReader.Exact (env : Env) (content : Bytes) : DevReader → Prop
  | .file _ _ => True
  | .sudo s => env.Honest ∧ s.len = content.length

/-- What one read delivers, and the reader after it. -/
structure DevReader.Delivers (env : Env) (content : Bytes) (size : Nat)
    (reader : DevReader) (chunk : Bytes) (next : DevReader) : Prop where
  node : next.node = reader.node
  sound : next.Sound content
  exact : reader.Exact env content → next.Exact env content
  pos : next.pos = reader.pos + chunk.length
  bytes : chunk <+: content.drop reader.pos
  short : chunk.length ≤ size
  ended : reader.Exact env content → 0 < size → chunk = [] → content.drop reader.pos = []

/-- A position in the cache, or a cache that was fetched for it. -/
theorem SudoReader.refill_spec {s : SudoReader} (sound : s.Sound content) (inside : s.pos < s.len) :
    Spec (fun w : World Event => w.content env s.node = content) (s.refill env)
      (.onReturn
        (fun next _ => next.node = s.node ∧ next.len = s.len ∧ next.pos = s.pos ∧
          next.cacheStart ≤ next.pos ∧ next.Sound content ∧
          (env.Honest → s.len = content.length →
            next.pos - next.cacheStart < next.cache.length))
        fun _ _ => True) := by
  unfold SudoReader.refill
  by_cases hit : s.cacheStart ≤ s.pos ∧ s.pos < s.cacheStart + s.cache.length
  · rw [if_pos hit]
    apply Spec.pure
    intro w _
    exact ⟨rfl, rfl, rfl, hit.1, sound, fun _ _ => by omega⟩
  · rw [if_neg hit]
    dsimp only
    have aligned : s.pos % blockSize < blockSize := Nat.mod_lt _ (by decide)
    have below : s.pos % blockSize ≤ s.pos := Nat.mod_le _ _
    apply Spec.bind _ (ddRange_spec s.node _ _)
    intro cache
    apply Spec.pure
    intro w fetched
    obtain ⟨isPrefix, whole⟩ := fetched
    refine ⟨rfl, rfl, rfl, Nat.sub_le _ _, isPrefix.trans (List.take_prefix _ _), ?_⟩
    intro honest sized
    have length : cache.length =
        min (min blockSize (s.len - (s.pos - s.pos % blockSize)))
          (content.length - (s.pos - s.pos % blockSize)) := by
      rw [whole honest, List.length_take, List.length_drop]
    dsimp only
    omega

theorem SudoReader.fromCache_delivers {s : SudoReader} {want size : Nat} (sound : s.Sound content)
    (start : s.cacheStart ≤ s.pos) (some : 0 < want)
    (fits : want ≤ size)
    (filled : env.Honest → s.len = content.length → s.pos - s.cacheStart < s.cache.length) :
    (DevReader.sudo s).Delivers env content size (s.fromCache want).1
      (.sudo (s.fromCache want).2) := by
  unfold SudoReader.fromCache
  by_cases past : s.cache.length ≤ s.pos - s.cacheStart
  · simp only [if_pos past]
    refine ⟨rfl, sound, fun same => same, rfl, List.nil_prefix, Nat.zero_le _, ?_⟩
    intro exact _ _
    have within := filled exact.1 exact.2
    omega
  · simp only [if_neg past]
    have length : ((s.cache.drop (s.pos - s.cacheStart)).take
        (min (s.cache.length - (s.pos - s.cacheStart)) want)).length =
        min (s.cache.length - (s.pos - s.cacheStart)) want := by
      rw [List.length_take, List.length_drop]
      omega
    refine ⟨rfl, sound, fun same => same, ?_, ?_, ?_, ?_⟩
    · change s.pos + _ = s.pos + _
      rw [length]
    · have cached : s.cache.drop (s.pos - s.cacheStart) <+:
          (content.drop s.cacheStart).drop (s.pos - s.cacheStart) := by
        obtain ⟨tail, held⟩ := sound
        rw [← held, List.drop_append_of_le_length (by omega)]
        exact List.prefix_append _ _
      rw [List.drop_drop, show s.cacheStart + (s.pos - s.cacheStart) = s.pos by omega] at cached
      exact (List.take_prefix _ _).trans cached
    · rw [length]
      omega
    · intro _ _ empty
      rw [empty] at length
      simp only [List.length_nil] at length
      omega

theorem SudoReader.read_spec {s : SudoReader} (sound : s.Sound content) (size : Nat) :
    Spec (fun w : World Event => w.content env s.node = content) (s.read env size)
      (.onReturn (fun result _ =>
        (DevReader.sudo s).Delivers env content size result.1 (.sudo result.2))
        fun _ _ => True) := by
  unfold SudoReader.read
  by_cases past : s.len ≤ s.pos
  · rw [if_pos past]
    apply Spec.pure
    intro w _
    refine ⟨rfl, sound, fun same => same, rfl, List.nil_prefix, Nat.zero_le _, ?_⟩
    intro exact _ _
    have sized : s.len = content.length := exact.2
    exact List.drop_eq_nil_of_le (by change content.length ≤ s.pos; omega)
  · rw [if_neg past]
    dsimp only
    by_cases none : min size (s.len - s.pos) = 0
    · rw [if_pos none]
      apply Spec.pure
      intro w _
      refine ⟨rfl, sound, fun same => same, rfl, List.nil_prefix, Nat.zero_le _, ?_⟩
      intro _ some _
      omega
    · rw [if_neg none]
      by_cases large : blockSize ≤ min size (s.len - s.pos)
      · rw [if_pos large]
        apply Spec.bind _ (ddRange_spec s.node _ _)
        intro data
        apply Spec.pure
        intro w fetched
        obtain ⟨isPrefix, whole⟩ := fetched
        have short : data.length ≤ min size (s.len - s.pos) := by
          have le := isPrefix.length_le
          rw [List.length_take] at le
          omega
        rw [Nat.min_eq_left short, List.take_length]
        refine ⟨rfl, sound, fun same => same, rfl, isPrefix.trans (List.take_prefix _ _),
          Nat.le_trans short (Nat.min_le_left _ _), ?_⟩
        intro exact _ (empty : data = [])
        have nothing := whole exact.1
        rw [empty] at nothing
        rcases List.take_eq_nil_iff.mp nothing.symm with zero | ended
        · omega
        · exact ended
      · rw [if_neg large]
        apply Spec.bind _ (SudoReader.refill_spec sound (by omega))
        intro next
        apply Spec.pure
        intro w fetched
        obtain ⟨node, len, pos, start, sound, filled⟩ := fetched
        have delivered : (DevReader.sudo next).Delivers env content size
            (next.fromCache (min size (s.len - s.pos))).1
            (.sudo (next.fromCache (min size (s.len - s.pos))).2) :=
          fromCache_delivers sound start (by omega) (Nat.min_le_left _ _) fun honest sized => filled honest (len ▸ sized)
        have moved : (DevReader.sudo next).pos = (DevReader.sudo s).pos := pos
        refine ⟨delivered.node.trans node, delivered.sound, ?_, ?_, ?_, delivered.short, ?_⟩
        · exact fun exact => delivered.exact ⟨exact.1, len.trans exact.2⟩
        · rw [← moved]
          exact delivered.pos
        · rw [← moved]
          exact delivered.bytes
        · intro exact some empty
          rw [← moved]
          exact delivered.ended ⟨exact.1, len.trans exact.2⟩ some empty

theorem deviceSize_spec (node : Node) :
    Spec (fun w : World Event => w.content env node = content) (deviceSize env node)
      (.onReturn
        (fun size w => (env.Honest → size = content.length) ∧ w.content env node = content)
        fun _ _ => True) := by
  have printed : Spec (fun w : World Event => w.content env node = content)
      (runCaptured env ["blockdev", "--getsize64", node.path] (sizing env node))
      (.onReturn (fun out w => (∃ n, out = (env.reply n).blockdev content.length) ∧
        w.content env node = content) fun _ _ => True) := by
    have asked : Preserves (fun w : World Event => w.content env node) (ask env fun _ => ()) :=
      (ask_still env _).comp fun w => w.content env node
    refine Spec.bind _ (Spec.mapError (asked.returns content)) ?_
    intro _
    apply Spec.mapError
    refine call_spec (fun _ _ => trivial) ?_
    intro w (holds : w.content env node = content)
    have same : World.content env { w with clock := w.clock + 1 } node = content := holds
    simp only [sizing, same]
    cases (env.reply w.clock).error with
    | some e => exact trivial
    | none => exact ⟨⟨w.clock, rfl⟩, same⟩
  refine Spec.bind _ printed ?_
  intro out
  by_cases failed : (!out.success) = true
  · rw [if_pos failed]
    exact Spec.fail fun _ _ => trivial
  · rw [if_neg failed]
    have success : out.success = true := by simpa using failed
    cases parsed : parseUnsigned u64Bound (trim out.stdout) with
    | error e => exact Spec.fail fun _ _ => trivial
    | ok size =>
        apply Spec.pure
        intro w holds
        obtain ⟨⟨n, rfl⟩, held⟩ := holds
        exact ⟨fun honest => honest.size n _ size success parsed, held⟩

/-- A reader starts at the start of the node. -/
theorem openReader_spec (elev : Elevation) (node : Node) :
    Spec (fun w : World Event => w.content env node = content) (openReader env elev node)
      (.onReturn
        (fun reader w => (reader.node = node ∧ reader.Sound content ∧ reader.pos = 0 ∧
          (env.Honest → reader.Exact env content)) ∧ w.content env node = content)
        fun _ _ => True) := by
  cases elev with
  | root =>
      have asked : Preserves (fun w : World Event => w.content env node)
          (openDeviceRead env node.path) :=
        Preserves.mapError ((ask_still env _).comp fun w => w.content env node)
      refine Spec.bind _ (asked.returns content) ?_
      exact fun _ => Spec.pure fun _ held => ⟨⟨rfl, trivial, rfl, fun _ => trivial⟩, held⟩
  | «sudo» _ =>
      refine Spec.bind _ (deviceSize_spec node) ?_
      intro size
      apply Spec.pure
      intro w holds
      obtain ⟨sized, held⟩ := holds
      exact ⟨⟨rfl, List.nil_prefix, rfl, fun honest => ⟨honest, sized honest⟩⟩, held⟩

/-- Whatever handle it is, a read delivers the next bytes of the device. -/
theorem DevReader.read_spec {reader : DevReader} (sound : reader.Sound content) (size : Nat) :
    Spec (fun w : World Event => w.content env reader.node = content) (reader.read env size)
      (.onReturn (fun result _ => reader.Delivers env content size result.1 result.2)
        fun _ _ => True) := by
  cases reader with
  | file node pos =>
      apply Spec.bind fun chunk _ => (DevReader.file node pos).Delivers env content size chunk
        (.file node (pos + chunk.length))
      · apply call_spec fun _ _ => trivial
        intro w (holds : w.content env node = content)
        cases (env.reply w.clock).error with
        | some e => exact trivial
        | none =>
            change DevReader.Delivers _ _ _ _ (readSome _ _ _) _
            rw [show World.content env { w with clock := w.clock + 1 } node = content from holds]
            exact ⟨rfl, trivial, fun _ => trivial, rfl, readSome_prefix _ _ _,
              readSome_length_le _ _ _, fun _ some empty => readSome_eq_nil some empty⟩
      · exact fun chunk => Spec.pure fun _ holds => holds
  | «sudo» s =>
      apply Spec.bind _ (SudoReader.read_spec sound size)
      exact fun _ => Spec.pure fun _ holds => holds

variable (env) in
/-- The same, for a program that goes on with what it knows of the world. -/
theorem DevReader.read_keeping {reader : DevReader} (sound : reader.Sound content) (size : Nat)
    (fact : World Event → Prop) :
    Spec (fun w => w.content env reader.node = content ∧ fact w.still) (reader.read env size)
      (.onReturn
        (fun result w => reader.Delivers env content size result.1 result.2 ∧
          w.content env reader.node = content ∧ fact w.still)
        fun _ _ => True) := by
  have kept := (reader.read_still env size).always fun w : World Event =>
    w.content env reader.node = content ∧ fact w
  refine ((DevReader.read_spec sound size).and kept).weaken (fun w holds => ⟨holds.1, holds⟩)
    (fun _ _ holds => holds) (fun _ _ _ => trivial) fun _ _ => trivial

end Reading

end Nixnas.Tui.Sudo
