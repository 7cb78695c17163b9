import Nixnas.Tui.Build
import Nixnas.Tui.Handle

/-!
# The verification of an image or a device

`run_verify` of `src/tui/src/verify.rs`: the partition table, the boot files on
the ESP, the LUKS2 header of the store, and the digest of an image or the
comparison of a device with the image it was flashed from.

The crates that parse the GPT and the FAT and that hash are parameters, as
functions of the bytes they read.
-/

set_option autoImplicit false

namespace Nixnas.Tui.Verify

open Nixnas.Logic Nixnas.Logic.Action
open Nixnas.Rust
open Nixnas.Tui.Build (StepState)
open Nixnas.Tui.Sudo

/-! ## Data -/

def stepNamesImage : List String :=
  ["GPT partition table (ESP + store)", "systemd-boot on the ESP", "UKIs in EFI/Linux",
    "LUKS2 header on the store partition", "SHA-256 digest of the whole image"]

def stepNamesInstall : List String :=
  ["GPT partition table (ESP + store)", "systemd-boot on the ESP", "UKIs in EFI/Linux",
    "LUKS2 header on the store partition", "Flash fidelity vs built image"]

/-- `CHUNK`. -/
def chunkSize : Nat := 64 * 1024 * 1024

inductive VerifyEvent where
  | step (i : Nat) (state : StepState)
  | detail (line : String)
  | phase (title : String)
  | progress (done total : Nat)
  | done (result : Except String String)

abbrev VerifyWorld := World VerifyEvent

/-- A partition as the `gpt` crate presents it; its byte range is computed with
overflow checks. -/
structure Partition where
  id : Nat
  used : Bool
  /-- `part_type_guid == partition_types::EFI`. -/
  efi : Bool
  typeGuid : String
  name : String
  bytesStart : Except String Nat
  bytesLen : Except String Nat

structure FatEntry where
  isDir : Bool
  fileName : String
  len : Nat

/-- A mounted FAT volume: the entries of each directory that exists, up to the
ones that cannot be read. -/
structure FatVolume where
  openDir : String → Option (List (Option FatEntry))

/-- The crates `gpt`, `fatfs` and `sha2`, and `human_size`, which renders by
floating point. -/
structure Crates where
  /-- The table that a valid primary header names. -/
  primaryGpt : Bytes → Option (Except String (List Partition))
  /-- The same by the header at the end of the medium. -/
  backupGpt : Bytes → Except String (List Partition)
  fat : Bytes → Except String FatVolume
  sha256 : Bytes → Bytes
  humanSize : Nat → String

/-- `GptConfig::open_from_device`: one valid header suffices, and the primary
one comes first. -/
def Crates.gpt (lib : Crates) (medium : Bytes) : Except String (List Partition) :=
  (lib.primaryGpt medium).getD (lib.backupGpt medium)

def step (i : Nat) (state : StepState) : Step VerifyEvent Unit := send (.step i state)

def detail (line : String) : Step VerifyEvent Unit := send (.detail line)

/-- How a step ends that has found these issues. -/
def ending (issues : List String) : StepState := if issues.isEmpty then .ok else .fail

/-- `?` on a result that was computed already. -/
def ofExcept {α : Type} : Except String α → Step VerifyEvent α
  | .ok value => pure value
  | .error e => fail e

/-! ## The partition table -/

/-- The byte ranges of the ESP and of the store. -/
structure Located where
  esp : Option (Nat × Nat)
  store : Option (Nat × Nat)

/-- The first of each kind wins. -/
def Located.note (found : Located) (efi : Bool) (range : Nat × Nat) : Located :=
  if efi && found.esp.isNone then { found with esp := some range }
  else if !efi && found.store.isNone then { found with store := some range }
  else found

def partitionRow (lib : Crates) (p : Partition) (len : Nat) : String :=
  "p" ++ toString p.id ++ "  " ++ padEnd 12 ("\"" ++ p.name ++ "\"") ++ " " ++
    padStart 10 (lib.humanSize len) ++ "  type " ++ (if p.efi then "EFI System" else p.typeGuid)

def noteRows (lib : Crates) : List Partition → Located → Step VerifyEvent Located
  | [], found => pure found
  | p :: rest, found => do
      let start ← ofExcept p.bytesStart
      let len ← ofExcept p.bytesLen
      detail (partitionRow lib p len)
      noteRows lib rest (found.note p.efi (start, len))

def tableIssues (used : List Partition) (found : Located) : List String :=
  (if used.length = 2 then []
    else ["expected 2 partitions (ESP + store), found " ++ toString used.length]) ++
  (if found.esp.isNone then ["no EFI System partition"] else []) ++
  (if found.store.isNone then ["no store (non-ESP) partition"] else [])

def checkTable (env : Env) (lib : Crates) (file : DevReader) :
    Step VerifyEvent ((Located × List String) × DevReader) := do
  step 0 .running
  let (disk, file) ← file.lend env lib.gpt
  match disk with
  | .ok partitions => do
      let used := partitions.filter Partition.used
      let found ← noteRows lib used ⟨none, none⟩
      step 0 (ending (tableIssues used found))
      pure ((found, tableIssues used found), file)
  | .error e => do
      detail ("✗ GPT: " ++ e)
      step 0 .fail
      pure ((⟨none, none⟩, ["GPT unreadable: " ++ e]), file)

/-! ## The boot files -/

/-- `fat_file_len`. -/
def fatFileLen (fs : FatVolume) (dir name : String) : Option Nat :=
  (fs.openDir dir).bind fun entries =>
    ((entries.filterMap fun e => e).find? fun e =>
      !e.isDir && toAsciiLowercase e.fileName = toAsciiLowercase name).map FatEntry.len

def bootx64 (fs : FatVolume) : Option Nat := fatFileLen fs "EFI/BOOT" "BOOTX64.EFI"

def systemdBoot (fs : FatVolume) : Bool := (fs.openDir "EFI/systemd").isSome

def loaderIssues (fs : FatVolume) : List String :=
  if (bootx64 fs).isSome || systemdBoot fs then [] else ["no systemd-boot on the ESP"]

def checkLoader (lib : Crates) (fs : FatVolume) : Step VerifyEvent (List String) := do
  detail (match bootx64 fs with
    | some n => "EFI/BOOT/BOOTX64.EFI  " ++ lib.humanSize n
    | none => "EFI/BOOT/BOOTX64.EFI  missing")
  detail ("EFI/systemd/          " ++ (if systemdBoot fs then "present" else "missing"))
  step 1 (ending (loaderIssues fs))
  pure (loaderIssues fs)

def isUki (e : FatEntry) : Bool := !e.isDir && endsWith (toAsciiLowercase e.fileName) ".efi"

/-- The names and sizes of the UKIs, sorted. -/
def ukisOf (dir : List (Option FatEntry)) : List (String × Nat) :=
  (((dir.filterMap fun e => e).filter isUki).map fun e => (e.fileName, e.len)).mergeSort
    fun a b => a.1 < b.1 || (a.1 = b.1 && a.2 ≤ b.2)

def ukiIssues (fs : FatVolume) : List String :=
  match fs.openDir "EFI/Linux" with
  | some dir => if (ukisOf dir).isEmpty then ["no UKIs (*.efi) under EFI/Linux"] else []
  | none => ["EFI/Linux does not exist on the ESP"]

def checkUkis (lib : Crates) (fs : FatVolume) : Step VerifyEvent (List String) := do
  step 2 .running
  ((fs.openDir "EFI/Linux").elim [] ukisOf).forM fun (name, size) =>
    detail ("EFI/Linux/" ++ name ++ "  " ++ lib.humanSize size)
  step 2 (ending (ukiIssues fs))
  pure (ukiIssues fs)

/-- What a `SliceCursor` presents. -/
def window (range : Nat × Nat) (medium : Bytes) : Bytes := (medium.drop range.1).take range.2

def checkBoot (env : Env) (lib : Crates) (file : DevReader) (esp : Option (Nat × Nat)) :
    Step VerifyEvent (List String × DevReader) := do
  match esp with
  | some range => do
      step 1 .running
      let (mounted, file) ← file.lend env fun medium => lib.fat (window range medium)
      match mounted with
      | .ok fs => do
          let loader ← checkLoader lib fs
          let ukis ← checkUkis lib fs
          pure (loader ++ ukis, file)
      | .error e => do
          step 1 .fail
          step 2 .skipped
          pure (["ESP not mountable as FAT: " ++ e], file)
  | none => do
      step 1 .skipped
      step 2 .skipped
      pure ([], file)

/-! ## The LUKS2 header -/

/-- `b"LUKS\xba\xbe"`. -/
def luksMagic : Bytes := [0x4c, 0x55, 0x4b, 0x53, 0xba, 0xbe]

def magicOk (hdr : Bytes) : Bool := hdr.take 6 = luksMagic

/-- `u16::from_be_bytes([hdr[6], hdr[7]])`. -/
def luksVersion (hdr : Bytes) : Nat := 256 * (hdr.getD 6 0).toNat + (hdr.getD 7 0).toNat

def headerIssues (hdr : Bytes) : List String :=
  if magicOk hdr && luksVersion hdr = 2 then [] else ["store partition carries no LUKS2 header"]

def checkHeader (env : Env) (file : DevReader) (store : Option (Nat × Nat)) :
    Step VerifyEvent (List String × DevReader) := do
  match store with
  | some range => do
      step 3 .running
      let file ← ioContext "seeking to the store partition" (file.seekStart env range.1)
      let (hdr, file) ← ioContext "reading the LUKS header" (file.readExact env 8)
      detail ("magic    " ++ (if magicOk hdr then "LUKS\\xba\\xbe ✓" else "not LUKS ✗"))
      detail ("version  " ++ toString (luksVersion hdr) ++
        (if luksVersion hdr = 2 then " ✓" else " (expected 2) ✗"))
      step 3 (ending (headerIssues hdr))
      pure (headerIssues hdr, file)
  | none => do
      step 3 .skipped
      pure ([], file)

/-! ## The whole target -/

/-- A look at the skip flag.  When it is set is up to the operator: `skip` says
what the worker finds there once `done` bytes are hashed. -/
def skipped (env : Env) (skip : Option (Nat → Bool)) (done : Nat) : Step VerifyEvent Bool :=
  call env fun _ w => (.ok (skip.any fun flag => flag done), w)

/-- One turn of `sha256_range`: the handle, what was hashed, and its length. -/
def hashTurn (env : Env) (lib : Crates) (skip : Option (Nat → Bool)) (len : Nat) :
    DevReader × Bytes × Nat → Step VerifyEvent ((DevReader × Bytes × Nat) ⊕ Option String)
  | (file, hasher, done) =>
      if len ≤ done then pure (.inr (some (hex (lib.sha256 hasher))))
      else do
        if ← skipped env skip done then pure (.inr none)
        else do
          let want := min chunkSize (len - done)
          let (buf, file) ← ioContext "reading for hashing" (file.readExact env want)
          send (.progress (done + want) len)
          pure (.inl (file, hasher ++ buf, done + want))

def sha256Range (env : Env) (lib : Crates) (file : DevReader) (len : Nat)
    (skip : Option (Nat → Bool)) : Step VerifyEvent (Option String) := do
  let file ← ioContext "rewinding for hashing" (file.seekStart env 0)
  loop (hashTurn env lib skip len) (file, [], 0)

def checkDigest (env : Env) (lib : Crates) (file : DevReader) (targetLen : Nat) :
    Step VerifyEvent (List String) := do
  step 4 .running
  send (.phase "SHA-256 over the whole image")
  match ← sha256Range env lib file targetLen none with
  | some digest => do
      detail ("sha256  " ++ digest)
      step 4 .ok
      pure []
  -- A panic of the worker, which the missing flag rules out.
  | none => fail "unskippable hash was skipped"

/-- The two handles and what each hasher was fed. -/
structure Comparing where
  file : DevReader
  imgFile : DevReader
  devHasher : Bytes
  imgHasher : Bytes
  done : Nat

/-- One turn of the comparison; it ends with what was hashed, unless skipped. -/
def compareTurn (env : Env) (skip : Option (Nat → Bool)) (common : Nat) (st : Comparing) :
    Step VerifyEvent (Comparing ⊕ Option (Bytes × Bytes)) :=
  if common ≤ st.done then pure (.inr (some (st.devHasher, st.imgHasher)))
  else do
    if ← skipped env skip st.done then pure (.inr none)
    else do
      let want := min chunkSize (common - st.done)
      let (bufDev, file) ← ioContext "reading the device" (st.file.readExact env want)
      let (bufImg, imgFile) ← ioContext "reading the image" (st.imgFile.readExact env want)
      send (.progress (st.done + want) common)
      pure (.inl ⟨file, imgFile, st.devHasher ++ bufDev, st.imgHasher ++ bufImg, st.done + want⟩)

def sizeIssues (lib : Crates) (targetLen imgLen : Nat) : List String :=
  if targetLen < imgLen then
    ["device (" ++ lib.humanSize targetLen ++ ") is SMALLER than the image (" ++
      lib.humanSize imgLen ++ ") — the flash cannot be complete"]
  else []

def digestIssues (devDigest imgDigest : String) : List String :=
  if devDigest = imgDigest then [] else ["device bytes DIFFER from the built image"]

def checkFidelity (env : Env) (lib : Crates) (file : DevReader) (targetLen : Nat) (img : String)
    (skip : Option (Nat → Bool)) : Step VerifyEvent (List String) := do
  step 4 .running
  let imgLen ← ioContext ("stat " ++ img) (ask env fun _ => (env.image img).length)
  send (.phase "Flash fidelity — hashing device vs image")
  ioContext ("opening " ++ img) (ask env fun _ => ())
  let file ← ioContext "rewinding the device" (file.seekStart env 0)
  match ← loop (compareTurn env skip (min imgLen targetLen)) ⟨file, .file (.image img) 0, [], [], 0⟩ with
  | none => do
      detail "(fidelity compare skipped by operator)"
      step 4 .skipped
      pure (sizeIssues lib targetLen imgLen)
  | some (dev, image) => do
      let devDigest := hex (lib.sha256 dev)
      let imgDigest := hex (lib.sha256 image)
      detail ("device  sha256 " ++ devDigest)
      detail ("image   sha256 " ++ imgDigest)
      step 4 (if devDigest = imgDigest ∧ imgLen ≤ targetLen then .ok else .fail)
      pure (sizeIssues lib targetLen imgLen ++ digestIssues devDigest imgDigest)

def checkWhole (env : Env) (lib : Crates) (file : DevReader) (targetLen : Nat) (isDevice : Bool)
    (fidelityImage : Option String) (skip : Option (Nat → Bool)) :
    Step VerifyEvent (List String) := do
  if !isDevice then checkDigest env lib file targetLen
  else
    match fidelityImage with
    | some img => checkFidelity env lib file targetLen img skip
    | none => do
        detail "(no built image — nothing to compare against)"
        step 4 .skipped
        pure []

/-! ## The run -/

/-- The summary of a verification without an issue. -/
def passSummary (isDevice : Bool) : String :=
  "PASS — " ++ (if isDevice then "the device" else "the image") ++
    " carries the expected nixnas layout"

def runVerify (env : Env) (lib : Crates) (target : Node) (isDevice : Bool)
    (fidelityImage : Option String) (skip : Option (Nat → Bool)) (elev : Elevation) :
    Step VerifyEvent String := do
  let file ← context ("opening " ++ target.path) (openReader env elev target)
  let (targetLen, file) ← ioContext ("sizing " ++ target.path) (file.seekEnd env)
  let ((found, table), file) ← checkTable env lib file
  let (boot, file) ← checkBoot env lib file found.esp
  let (header, file) ← checkHeader env file found.store
  let whole ← checkWhole env lib file targetLen isDevice fidelityImage skip
  let issues := table ++ boot ++ header ++ whole
  if issues.isEmpty then pure (passSummary isDevice)
  else fail (String.intercalate " · " issues)

/-- `spawn_verify_image`: a user file, read directly. -/
def spawnVerifyImage (env : Env) (lib : Crates) (image : String) : Step VerifyEvent Unit := do
  let result ← attempt (runVerify env lib (.image image) false none none .root)
  send (.done result)

/-- `spawn_verify_install`: `image`, when built, is what the device is compared
with. -/
def spawnVerifyInstall (env : Env) (lib : Crates) (dev : String) (image : Option String)
    (skip : Nat → Bool) (elev : Elevation) : Step VerifyEvent Unit := do
  let result ← attempt (runVerify env lib (.device dev) true image (some skip) elev)
  send (.done result)

end Nixnas.Tui.Verify
