import Nixnas.Tui.Grow

/-!
# A flash run

`run_flash` of `src/tui/src/flash.rs`: the backup of the device, the overwrite,
the check that the device starts with the image, and the grow.
-/

set_option autoImplicit false

namespace Nixnas.Tui.Flash

open Nixnas.Logic Nixnas.Logic.Action
open Nixnas.Rust
open Nixnas.Tui.Sudo

/-- `CHUNK`. -/
def chunkSize : Nat := 4 * 1024 * 1024

def verifyPrefixLen : Nat := 4 * 1024 * 1024

/-! ## The copy loop -/

/-- One turn of the copy: the source, and the bytes copied so far. -/
def copyTurn (read : DevReader → Nat → Io (World FlashEvent) (Bytes × DevReader))
    (write : Bytes → Io (World FlashEvent) Nat) (total : Nat) :
    DevReader × Nat → Step FlashEvent ((DevReader × Nat) ⊕ Unit)
  | (src, done) => do
      let (chunk, src) ← ioContext "reading source" (read src chunkSize)
      if chunk.isEmpty then pure (.inr ())
      else do
        ioContext "writing destination" (writeAll write chunk)
        send (.progress (done + chunk.length) total)
        pure (.inl (src, done + chunk.length))

def copyWithProgress (read : DevReader → Nat → Io (World FlashEvent) (Bytes × DevReader))
    (write : Bytes → Io (World FlashEvent) Nat) (src : DevReader) (total : Nat) :
    Step FlashEvent Unit :=
  loop (copyTurn read write total) (src, 0)

/-! ## The backup -/

/-- The device reader, with what it delivers on record. -/
def readRecorded (env : Env) (src : DevReader) (size : Nat) :
    Io (World FlashEvent) (Bytes × DevReader) := do
  let (chunk, src) ← src.read env size
  modify fun w => { w with delivered := w.delivered ++ chunk, ended := chunk.isEmpty }
  pure (chunk, src)

/-- `File::create`: what the file held is gone. -/
def createFile (env : Env) (path : String) : Io (World FlashEvent) Unit :=
  call env fun reply w =>
    match reply.error with
    | some e => (.error e, w)
    | none => (.ok (), w.setFile path [] false)

/-- `Write::write` at the end of the file. -/
def writeFile (env : Env) (path : String) (buf : Bytes) : Io (World FlashEvent) Nat :=
  call env fun reply w =>
    match reply.error with
    | some e => (.error e, w)
    | none =>
        let n := min reply.count buf.length
        (.ok n, w.setFile path ((w.files path).getD [] ++ buf.take n) false)

/-- `File::sync_all`. -/
def syncFile (env : Env) (path : String) : Io (World FlashEvent) Unit :=
  call env fun reply w =>
    match reply.error with
    | some e => (.error e, w)
    | none => (.ok (), { w with synced := fun other => if other = path then true else w.synced other })

/-- The device is open for reading, and the backup file is created. -/
def openBackup (env : Env) (job : FlashJob) (dest : String) : Step FlashEvent DevReader := do
  send (.phase "Backing up current device contents")
  let src ← context ("opening " ++ job.dev ++ " for backup") (openReader env job.elev (.device job.dev))
  ioContext ("creating backup image " ++ dest) (createFile env dest)
  pure src

def backup (env : Env) (job : FlashJob) (dest : String) : Step FlashEvent Unit := do
  let src ← openBackup env job dest
  context "backup failed — aborting before any write"
    (copyWithProgress (readRecorded env) (writeFile env dest) src (job.devSize.getD 0))
  ioContext "syncing the backup image" (syncFile env dest)

def backupPhase (env : Env) (job : FlashJob) : Step FlashEvent Unit :=
  match job.backupTo with
  | some dest => backup env job dest
  | none => pure ()

/-! ## The overwrite -/

/-- The copy into the device, finished or dropped. -/
def overwrite (env : Env) (sink : DevWriter) (src : DevReader) (total : Nat) :
    Step FlashEvent Unit := do
  match ← attempt (copyWithProgress (DevReader.read env) (sink.write env) src total) with
  | .ok () => context "finishing the device write" (sink.finish env)
  | .error e => do
      sink.drop env
      fail ("writing the image: " ++ e)

def writePhase (env : Env) (job : FlashJob) : Step FlashEvent Unit := do
  send (.phase "Writing image to device")
  let imageSize ← ioContext ("stat " ++ job.image) (ask env fun _ => (env.image job.image).length)
  ioContext ("opening " ++ job.image) (ask env fun _ => ())
  let sink ← context ("opening " ++ job.dev ++ " for writing") (openWriter env job.elev job.dev)
  overwrite env sink (.file (.image job.image) 0) imageSize

/-! ## The check -/

def prefixTurn (env : Env) (len : Nat) :
    DevReader × Bytes → Step FlashEvent ((DevReader × Bytes) ⊕ Bytes)
  | (reader, got) =>
      if len ≤ got.length then pure (.inr got)
      else do
        let (chunk, reader) ← ioContext "reading prefix" (reader.read env (len - got.length))
        if chunk.isEmpty then pure (.inr got) else pure (.inl (reader, got ++ chunk))

def readPrefix (env : Env) (reader : DevReader) (len : Nat) : Step FlashEvent Bytes :=
  loop (prefixTurn env len) (reader, [])

def samePrefix (env : Env) (job : FlashJob) (len : Nat) : Step FlashEvent Bool := do
  ioContext ("opening " ++ job.image) (ask env fun _ => ())
  let pa ← readPrefix env (.file (.image job.image) 0) len
  let device ← context ("opening " ++ job.dev ++ " for verification")
    (openReader env job.elev (.device job.dev))
  let pb ← readPrefix env device len
  pure (!pa.isEmpty && pa.length = min pb.length pa.length && pb.take pa.length = pa)

def verifyPhase (env : Env) (job : FlashJob) : Step FlashEvent Unit := do
  send (.phase "Verifying device header")
  let same ← context "verifying the written device" (samePrefix env job verifyPrefixLen)
  if same then pure ()
  else fail (job.dev ++ " does not carry the image header — the write failed")

/-! ## The run -/

/-- Everything before the grow. -/
def flashVerified (env : Env) (job : FlashJob) : Step FlashEvent Unit := do
  backupPhase env job
  writePhase env job
  verifyPhase env job

def runFlash (env : Env) (job : FlashJob) : Step FlashEvent String := do
  flashVerified env job
  let summary := job.dev ++ " is now a nixnas stick (header verified)"
  if job.grow then do
    let note ← growPhase env job
    pure (summary ++ note)
  else pure summary

/-- The worker thread: the run, then its result as the last event. -/
def spawnFlash (env : Env) (job : FlashJob) : Step FlashEvent Unit := do
  let result ← attempt (runFlash env job)
  send (.done result)

end Nixnas.Tui.Flash
