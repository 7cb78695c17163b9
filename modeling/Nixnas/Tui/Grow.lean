import Nixnas.Tui.Device
import Nixnas.Tui.Flash

/-!
# The workbench grow

`grow_last_partition` and `grow_f2fs_in_luks` of `src/tui/src/flash.rs`: the
last partition is recreated up to the end of the device, then the f2fs in the
store is grown on the unmounted mapper.
-/

set_option autoImplicit false

namespace Nixnas.Tui.Flash

open Nixnas.Logic Nixnas.Logic.Action
open Nixnas.Rust
open Nixnas.Tui.Sudo

/-- What has to survive the recreation of a partition. -/
structure PartInfo where
  firstSector : Nat
  typeGuid : String
  uniqueGuid : String
  name : String

/-! ## `sgdisk` -/

def runSgdisk (env : Env) (dev : String) (args : List String) : Step FlashEvent Unit := do
  let out ← context "running sgdisk (is gptfdisk installed?)"
    (runCaptured env ("sgdisk" :: args ++ [dev]) (touching dev))
  if out.success then pure ()
  else fail ("sgdisk " ++ unwords args ++ " failed: " ++ trim out.stderr)

/-- The rows of `sgdisk -p` are the lines whose first word is a number. -/
def partitionNumbers (text : String) : List Nat :=
  (lines text).filterMap fun line =>
    (splitWhitespace line).head?.bind fun word => (parseUnsigned u32Bound word).toOption

def lastPartitionNumber (env : Env) (dev : String) : Step FlashEvent Nat := do
  let out ← context "running sgdisk -p (is gptfdisk installed?)"
    (runCaptured env ["sgdisk", "-p", dev] readOnly)
  if !out.success then fail ("sgdisk -p failed: " ++ out.stderr)
  else
    match (partitionNumbers out.stdout).max? with
    | some n => pure n
    | none => fail "sgdisk -p listed no partitions"

/-- What follows a label, on the first line that starts with it. -/
def after (text label : String) : Option String :=
  (lines text).findSome? fun line => (stripPrefix (trim line) label).map trim

def parseInfo (text : String) : Except String PartInfo :=
  match (after text "Partition GUID code:").bind fun s => (splitWhitespace s).head? with
  | none => .error "sgdisk -i: no partition type GUID"
  | some typeGuid =>
      match after text "Partition unique GUID:" with
      | none => .error "sgdisk -i: no partition unique GUID"
      | some uniqueGuid =>
          match (after text "First sector:").bind fun s => (splitWhitespace s).head?.bind parseU64 with
          | none => .error "sgdisk -i: no first sector"
          | some firstSector =>
              .ok
                { firstSector := firstSector
                  typeGuid := typeGuid
                  uniqueGuid := uniqueGuid
                  name := ((after text "Partition name:").map fun s => trimMatches s '\'').getD "" }

def partitionInfo (env : Env) (dev : String) (n : Nat) : Step FlashEvent PartInfo := do
  let out ← context "running sgdisk --info (is gptfdisk installed?)"
    (runCaptured env ["sgdisk", "--info=" ++ toString n, dev] readOnly)
  if !out.success then fail ("sgdisk --info=" ++ toString n ++ " failed: " ++ out.stderr)
  else
    match parseInfo out.stdout with
    | .ok info => pure info
    | .error e => fail e

/-- Recreate partition `n` at its start, up to the largest possible end. -/
def recreate (n : Nat) (info : PartInfo) : List String :=
  let number := toString n
  ["--delete=" ++ number, "--new=" ++ number ++ ":" ++ toString info.firstSector ++ ":0",
    "--typecode=" ++ number ++ ":" ++ info.typeGuid,
    "--partition-guid=" ++ number ++ ":" ++ info.uniqueGuid,
    "--change-name=" ++ number ++ ":" ++ info.name]

def growLastPartition (env : Env) (dev : String) : Step FlashEvent Nat := do
  let n ← lastPartitionNumber env dev
  let info ← partitionInfo env dev n
  runSgdisk env dev ["--move-second-header"]
  runSgdisk env dev (recreate n info)
  pure n

/-! ## The store -/

/-- `/dev/sda2`, but `/dev/nvme0n1p2`. -/
def partitionPath (dev : String) (n : Nat) : String :=
  if dev.toList.getLast?.any Char.isDigit then dev ++ "p" ++ toString n else dev ++ toString n

def growMapper : String := "nixnas-flash-grow"

def pathExists (env : Env) : Step FlashEvent Bool := call env fun reply w => (.ok reply.present, w)

/-- Up to `tries` looks for the node of the partition. -/
def awaitNode (env : Env) : Nat → Step FlashEvent Unit
  | 0 => pure ()
  | tries + 1 => do
      let present ← pathExists env
      if present then pure () else awaitNode env tries

/-- The size the kernel reports, 0 if it reports none. -/
def partSize (env : Env) (part : String) : Step FlashEvent Nat := do
  match ← attempt (runCaptured env ["blockdev", "--getsize64", part] readOnly) with
  | .ok out => pure (if out.success then (parseU64 (trim out.stdout)).getD 0 else 0)
  | .error _ => pure 0

/-- Up to `tries` samples, until two in a row agree. -/
def awaitSize (env : Env) (part : String) (last : Nat) : Nat → Step FlashEvent Unit
  | 0 => pure ()
  | tries + 1 => do
      let size ← partSize env part
      if 0 < size ∧ size = last then pure () else awaitSize env part size tries

def growF2fsInLuks (env : Env) (dev : String) (partNum : Nat) (secret : String) :
    Step FlashEvent Unit := do
  let part := partitionPath dev partNum
  let mapperPath := "/dev/mapper/" ++ growMapper
  let _ ← attempt (runCaptured env ["blockdev", "--rereadpt", dev] readOnly)
  awaitNode env 50
  let present ← pathExists env
  if !present then
    fail ("partition node " ++ part ++ " did not appear after the partition grow")
  else do
    awaitSize env part 0 50
    let out ← context "running cryptsetup (is it installed?)"
      (runWithInput env ["cryptsetup", "open", "--key-file=-", part, growMapper] (asBytes secret)
        (touching dev))
    if !out.success then
      fail ("cryptsetup open " ++ part ++ " failed (wrong passphrase?): " ++ trim out.stderr)
    else do
      let resize ← attempt (context "running resize.f2fs (are the f2fs-tools installed?)"
        (runCaptured env ["resize.f2fs", mapperPath] (touching dev)))
      -- Closed even after a failed resize, whose error comes first below.
      let close ← attempt (runCaptured env ["cryptsetup", "close", growMapper] (touching dev))
      let _ ← attempt (runCaptured env ["sync"] (touching dev))
      match resize, close with
      | .error e, _ => fail e
      | .ok resizeOut, close =>
          if !resizeOut.success then
            fail ("resize.f2fs " ++ mapperPath ++ " failed: " ++ trim resizeOut.stderr)
          else
            match close with
            | .error e => fail e
            | .ok closeOut =>
                if closeOut.success then pure ()
                else fail ("cryptsetup close " ++ growMapper ++ " failed: " ++ trim closeOut.stderr)

/-- The grow of a verified stick, and the note it adds to the summary: a failure
is a warning. -/
def growPhase (env : Env) (job : FlashJob) : Step FlashEvent String := do
  send (.phase "Growing the last partition to fill the device")
  match ← attempt (growLastPartition env job.dev) with
  | .error e =>
      pure (" · WARNING: could not grow the partition (" ++ e ++ ") — the stick is valid but " ++
        "won't fill the whole device")
  | .ok partNum =>
      match job.storePass with
      | none =>
          pure (" · partition grown to fill the device; f2fs grow skipped (no store passphrase) — " ++
            "the stick boots, the extra space stays unused")
      | some secret => do
          send (.phase "Growing the f2fs store inside the LUKS partition")
          match ← attempt (growF2fsInLuks env job.dev partNum secret) with
          | .ok () =>
              pure " · partition + f2fs store grown to fill the device (offline, at the workbench)"
          | .error e =>
              pure (" · WARNING: partition grown, but the f2fs grow failed (" ++ e ++ ") — the " ++
                "stick is valid; the store just doesn't use the extra space yet")

end Nixnas.Tui.Flash
