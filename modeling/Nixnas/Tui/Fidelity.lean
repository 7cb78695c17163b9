import Nixnas.Rust.Parsing
import Nixnas.Tui.FlashLive
import Nixnas.Tui.GrowWrites
import Nixnas.Tui.VerifyRun

/-!
# Verifying a stick that was just flashed

A verified image is flashed, and the device is verified against it.  The flash
checks the device before the grow and the verification compares it after: the
two agree exactly when there is nothing to grow, or the grow fails before `sgdisk`
has written.
-/

set_option autoImplicit false

namespace Nixnas.Tui.Verify

open Nixnas.Logic Nixnas.Logic.Action
open Nixnas.Rust
open Nixnas.Tui.Flash (FlashJob FlashWorld flashVerified runFlash InOrder Moves Succeeds Lasts)
open Nixnas.Tui.Sudo

/-! ## Bytes behind an image -/

/-- What a valid primary header names does not depend on what stands behind it. -/
def Crates.ReadsFront (lib : Crates) : Prop :=
  ∀ medium more partitions, lib.primaryGpt medium = some (.ok partitions) →
    lib.primaryGpt (medium ++ more) = some (.ok partitions)

/-- The image carries all that its verification looks at: a valid primary
header, and its ESP as a whole. -/
structure Whole (lib : Crates) (image : Bytes) : Prop where
  primary : ∃ partitions, lib.primaryGpt image = some (.ok partitions)
  esp : ∀ esp store, Tabled lib image esp store → esp.1 + esp.2 ≤ image.length

theorem window_append {range : Nat × Nat} {medium : Bytes} (more : Bytes)
    (inside : range.1 + range.2 ≤ medium.length) :
    window range (medium ++ more) = window range medium := by
  have start : range.1 ≤ medium.length := by omega
  have long : range.2 ≤ (medium.drop range.1).length := by
    rw [List.length_drop]
    omega
  rw [window, window, List.drop_append_of_le_length start, List.take_append_of_le_length long]

/-- A whole image keeps its layout, whatever stands behind it. -/
theorem LaidOut.append {lib : Crates} {image : Bytes} (laidOut : LaidOut lib image)
    (front : lib.ReadsFront) (whole : Whole lib image) (more : Bytes) :
    LaidOut lib (image ++ more) := by
  obtain ⟨esp, store, layout⟩ := laidOut
  refine ⟨esp, store, ?_, ?_, ?_⟩
  · obtain ⟨partitions, read, two⟩ := layout.table
    obtain ⟨others, valid⟩ := whole.primary
    have same : lib.gpt image = .ok others := by simp [Crates.gpt, valid]
    rw [read] at same
    cases same
    exact ⟨partitions, by simp [Crates.gpt, front image more partitions valid], two⟩
  · obtain ⟨fs, mounts, bootable⟩ := layout.boot
    refine ⟨fs, ?_, bootable⟩
    rw [window_append more (whole.esp esp store layout.table)]
    exact mounts
  · have inside : store.1 + 8 ≤ image.length := by
      have length := congrArg List.length layout.header
      have eight : luksHeader.length = 8 := rfl
      simp only [window, List.length_take, List.length_drop] at length
      omega
    rw [window_append more inside]
    exact layout.header

/-! ## Flash, then verify -/

/-- The primary header, in the second sector. -/
def primaryHeader (medium : Bytes) : Bytes := window (512, 92) medium

/-- A device of `size` bytes whose primary header is not the one of the image. -/
def Renewed (size : Nat) (image medium : Bytes) : Prop :=
  medium.length = size ∧ primaryHeader medium ≠ primaryHeader image

/-- What the tools do to a device that holds `written`, in a grow from operation `n`
on: `sgdisk` rewrites the primary header, as a whole or, where it fails, perhaps not
at all, and no later tool brings back the header of the image. -/
structure Rewrites (env : Env) (n : Nat) (image written : Bytes) : Prop where
  saves : Succeeds env (n + 4) →
    Renewed written.length image ((env.reply (n + 5)).tool written)
  atOnce : (env.reply (n + 5)).tool written = written ∨
    Renewed written.length image ((env.reply (n + 5)).tool written)
  lasts : Lasts env (n + 6) (Renewed written.length image)

/-- An image that passed, its flash to a device at least as large, and a
verification of the device from the world the flash left. -/
structure Reflash where
  lib : Crates
  job : FlashJob
  image : Bytes
  /-- The image holds its primary header. -/
  reaches : 604 ≤ image.length
  /-- The image passes in image mode. -/
  imageEnv : Env
  imageRead : imageEnv.image job.image = image
  imagePasses : ∃ w fuel after left, runVerify imageEnv lib (.image job.image) false none none .root
    w fuel = .ok (passSummary false) after left
  /-- The flash returns. -/
  flashEnv : Env
  flashRead : flashEnv.image job.image = image
  inOrder : InOrder flashEnv job.elev
  before : FlashWorld
  fits : image.length ≤ (before.devices job.dev).length
  grows : job.grow = decide (image.length < (before.devices job.dev).length)
  fuel : Nat
  summary : String
  after : FlashWorld
  left : Nat
  flashed : runFlash flashEnv job before fuel = .ok summary after left
  /-- How many operations come before the grow. -/
  checkedAt : Nat
  checks : ∀ checked left, flashVerified flashEnv job before fuel = .ok () checked left →
    checked.clock = checkedAt
  rewrites : job.grow = true → Rewrites flashEnv checkedAt image
    (image ++ (before.devices job.dev).drop image.length)
  /-- The device is verified, where nothing fails and nobody skips. -/
  installEnv : Env
  installRead : installEnv.image job.image = image
  start : VerifyWorld
  unwritten : start.devices = after.devices
  elev : Elevation
  skip : Nat → Bool
  noSkip : ∀ done, skip done = false
  reliable : installEnv.Reliable
  trusted : elev ≠ .root → installEnv.Honest ∧ installEnv.Sizes (after.devices job.dev).length
  /-- The digests tell the device and the image apart. -/
  injective : lib.sha256 ((after.devices job.dev).take image.length) = lib.sha256 image →
    (after.devices job.dev).take image.length = image

namespace Reflash

/-- The verification of the device passes. -/
def Passes (s : Reflash) : Prop :=
  Verify.Passes s.elev s.installEnv s.lib (.device s.job.dev) true (some s.job.image) (some s.skip)
    s.start

/-- The device with the image on it. -/
def written (s : Reflash) : Bytes :=
  s.image ++ (s.before.devices s.job.dev).drop s.image.length

/-- Nothing is grown, or the grow ends before `sgdisk` writes: the listing or the
information on the partition fails, `sgdisk --move-second-header` is not started, or
it writes nothing. -/
def Untouched (s : Reflash) : Prop :=
  s.job.grow = false ∨ ¬ Moves s.flashEnv s.checkedAt ∨
    (s.flashEnv.reply (s.checkedAt + 5)).tool s.written = s.written

variable (s : Reflash)

/-- When its header was checked, the device held the image, and the next operation
was the first one of the grow. -/
theorem checked_image : ∃ checked left,
    flashVerified s.flashEnv s.job s.before s.fuel = .ok () checked left ∧
      Flash.Poised s.job.dev s.checkedAt s.written checked := by
  obtain ⟨_, checked, left, verified, -⟩ := bind_ok s.flashed
  obtain ⟨-, -, content⟩ := Flash.flashVerified_ok s.flashEnv s.job verified
  refine ⟨checked, left, verified, s.checks checked left verified, ?_⟩
  rw [content s.inOrder, s.flashRead]
  rfl

theorem written_header : primaryHeader s.written = primaryHeader s.image :=
  window_append _ s.reaches

theorem renewed_apart {size : Nat} {medium : Bytes} (renewed : Renewed size s.image medium) :
    medium ≠ s.written := by
  rintro rfl
  exact renewed.2 s.written_header

/-- A device that starts with the image has its header. -/
theorem renewed_differs {size : Nat} {medium : Bytes} (renewed : Renewed size s.image medium) :
    medium.take s.image.length ≠ s.image := by
  intro same
  apply renewed.2
  rw [← List.take_append_drop s.image.length medium, same]
  exact window_append _ s.reaches

/-- The flash leaves the device as it was written, or with another primary header. -/
theorem left_written_or_renewed :
    (s.Untouched ∧ s.after.devices s.job.dev = s.written) ∨
      (¬ s.Untouched ∧ Renewed s.written.length s.image (s.after.devices s.job.dev)) := by
  obtain ⟨checked, left, verified, poised⟩ := s.checked_image
  obtain ⟨_, _, _, verified', rest⟩ := bind_ok s.flashed
  rw [verified] at verified'
  cases verified'
  cases grow : s.job.grow with
  | false =>
      simp only [grow] at rest
      have same : checked = s.after := congrArg Outcome.world rest
      exact .inl ⟨.inl grow, same ▸ poised.2⟩
  | true =>
      simp only [grow] at rest
      obtain ⟨note, middle, left', phase, noted⟩ := bind_ok rest
      have same : middle = s.after := congrArg Outcome.world noted
      have grew := (Flash.growPhase_writes s.job).at_ok poised phase
      rw [same] at grew
      have rewrites := s.rewrites grow
      have touched : Moves s.flashEnv s.checkedAt →
          Renewed s.written.length s.image
            ((s.flashEnv.reply (s.checkedAt + 5)).tool s.written) → ¬ s.Untouched := by
        rintro moves renewed (impossible | unmoved | still)
        · rw [grow] at impossible
          cases impossible
        · exact unmoved moves
        · exact s.renewed_apart renewed still
      by_cases moves : Moves s.flashEnv s.checkedAt
      · by_cases succeeds : Succeeds s.flashEnv (s.checkedAt + 4)
        · have renewed := rewrites.saves succeeds
          exact .inr ⟨touched moves renewed, grew.moved moves succeeds _ rewrites.lasts renewed⟩
        · have left := grew.failed moves succeeds
          rcases rewrites.atOnce with still | renewed
          · exact .inl ⟨.inr (.inr still), left.trans still⟩
          · exact .inr ⟨touched moves renewed, left ▸ renewed⟩
      · exact .inl ⟨.inr (.inl moves), grew.unmoved moves⟩

/-- The device starts with the image exactly when nothing was written behind the
check. -/
theorem carries_image_iff :
    (s.after.devices s.job.dev).take s.image.length = s.image ↔ s.Untouched := by
  rcases s.left_written_or_renewed with ⟨untouched, same⟩ | ⟨touched, renewed⟩
  · refine iff_of_true ?_ untouched
    rw [same]
    exact List.take_left
  · exact iff_of_false (s.renewed_differs renewed) touched

theorem image_laidOut : LaidOut s.lib s.image := by
  obtain ⟨w, fuel, after, left, returned⟩ := s.imagePasses
  have met := (runVerify_spec (.image s.job.image) false none none
    fun other => absurd rfl other).at_ok (s.imageRead : w.content s.imageEnv (.image s.job.image) = _)
    returned
  exact met.2.1

theorem start_content :
    s.start.content s.installEnv (.device s.job.dev) = s.after.devices s.job.dev :=
  congrFun s.unwritten s.job.dev

theorem unseen : ¬ Seen (some s.skip) s.image.length := by
  intro seen
  obtain ⟨flag, k, same, -, set⟩ := seen
  cases same
  rw [s.noSkip] at set
  cases set

/-- The comparison, with the image in hand. -/
theorem faithful_iff :
    Faithful s.installEnv s.lib (s.after.devices s.job.dev) true (some s.job.image) (some s.skip) ↔
      (s.after.devices s.job.dev).take s.image.length = s.image := by
  have carries := carries_iff s.injective
  constructor
  · intro faithful
    obtain ⟨-, seen | carried⟩ := faithful rfl s.job.image rfl
    · rw [s.installRead] at seen
      exact absurd seen s.unseen
    · rw [s.installRead] at carried
      exact (carries.mp carried).2
  · intro same _ path isPath
    cases isPath
    rw [s.installRead]
    have fits : s.image.length ≤ (s.after.devices s.job.dev).length := by
      have length := congrArg List.length same
      rw [List.length_take] at length
      omega
    exact ⟨fits, Or.inr (carries.mpr ⟨fits, same⟩)⟩

/-- The device passes exactly when its layout stands and it starts with the
image. -/
theorem passes_laidOut :
    s.Passes ↔ LaidOut s.lib (s.after.devices s.job.dev) ∧
      (s.after.devices s.job.dev).take s.image.length = s.image := by
  constructor
  · intro passes
    obtain ⟨after, cost, run⟩ := passes
    obtain ⟨left, _, returned⟩ := run cost (Nat.le_refl _)
    have met := (runVerify_spec (.device s.job.dev) true (some s.job.image) (some s.skip)
      fun other => (s.trusted other).1).at_ok s.start_content returned
    exact ⟨met.2.1, s.faithful_iff.mp met.2.2⟩
  · intro met
    obtain ⟨summary, after, cost, run, isPass⟩ := runVerify_ends (.device s.job.dev) true
      (some s.job.image) (some s.skip) s.reliable (fun other => (s.trusted other).1)
      (fun other => (s.trusted other).2) met.1 (s.faithful_iff.mpr met.2) s.start s.start_content
    subst isPass
    exact ⟨after, cost, run⟩

/-- A verified image that was flashed passes on its device exactly when the flash
grew nothing or its grow failed before `sgdisk` wrote, and the layout of the image
stands before what the device held behind it. -/
theorem passes_iff : s.Passes ↔ s.Untouched ∧ LaidOut s.lib s.written := by
  rw [s.passes_laidOut, s.carries_image_iff]
  constructor
  · rintro ⟨laidOut, untouched⟩
    rcases s.left_written_or_renewed with ⟨-, same⟩ | ⟨touched, -⟩
    · exact ⟨untouched, same ▸ laidOut⟩
    · exact absurd untouched touched
  · rintro ⟨untouched, laidOut⟩
    rcases s.left_written_or_renewed with ⟨-, same⟩ | ⟨touched, -⟩
    · exact ⟨same ▸ laidOut, untouched⟩
    · exact absurd untouched touched

/-- An image that holds its whole layout itself keeps it on every device. -/
theorem written_laidOut (front : s.lib.ReadsFront) (whole : Whole s.lib s.image) :
    LaidOut s.lib s.written := s.image_laidOut.append front whole _

end Reflash

/-! ## The small stick, flashed -/

namespace Small

open Nixnas.Tui.Flash

/-- What `sgdisk -p` prints of the image, and then `sgdisk --info=2`. -/
def sgdiskLines : List String :=
  ["Number  Start (sector)    End (sector)  Size       Code  Name",
    "   1               3               8   3.0 KiB     EF00  esp",
    "   2               9               9   512 bytes   8300  store",
    "Partition GUID code: 0FC63DAF-8483-4772-8E79-3D69D8477DE4 (Linux filesystem)",
    "Partition unique GUID: 33323130-3534-3736-3839-3A3B3C3D3E3F",
    "First sector: 9 (at 4.5 KiB)",
    "Last sector: 9 (at 4.5 KiB)",
    "Partition name: 'store'"]

def sgdiskOutput : String := String.ofList (sgdiskLines.flatMap fun line => line.toList ++ ['\n'])

/-- What `sgdisk` writes to a device of sixteen sectors. -/
def sgdiskWrites (medium : Bytes) : Bytes :=
  grownPrimary ++ (medium.take 7168).drop 1536 ++ grownBackup

/-- `sgdisk` prints `output`. -/
def flashing (output : String) : Env := replying (fun _ => output) fun _ => sgdiskWrites

/-- A flash to a device of some size, as root. -/
def job (size : Nat) : FlashJob :=
  ⟨"image.raw", "/dev/sda", some size, none, decide (image.length < size), none, .root⟩

/-- A machine whose device holds zeros. -/
def machine (Event : Type) (size : Nat) : World Event :=
  ⟨0, fun _ => zeros size, fun _ => none, fun _ => false, [], [], false, [], false, []⟩

theorem flashing_smooth (output : String) : Smooth (flashing output) :=
  ⟨⟨fun _ => rfl, fun _ => rfl⟩, fun _ => Nat.zero_lt_succ _⟩

theorem flashing_inOrder (output : String) : InOrder (flashing output) .root :=
  fun _ _ _ _ _ => rfl

theorem crates_readsFront : crates.ReadsFront := by
  intro medium more found read
  have long : 1536 ≤ medium.length := by
    have sectors : ∀ first : Bytes, first.length = 1536 → medium.take 1536 = first →
        1536 ≤ medium.length := by
      intro first length same
      rw [← same, List.length_take] at length
      omega
    simp only [crates] at read
    split at read
    · rename_i front
      rcases front with front | front
      · exact sectors _ primary_length front
      · exact sectors _ (by decide +kernel) front
    · split at read
      · rename_i front
        exact sectors _ (by decide +kernel) front
      · cases read
  have front : (medium ++ more).take 1536 = medium.take 1536 :=
    List.take_append_of_le_length long
  simp only [crates] at read ⊢
  rw [front]
  exact read

theorem image_nonempty : image ≠ [] := by
  intro empty
  have length := congrArg List.length empty
  rw [image, List.append_assoc, List.append_assoc, List.length_append, primary_length] at length
  simp at length

theorem image_gpt : crates.primaryGpt image = some (.ok (partitions 9)) := by
  have front : image.take 1536 = primary := by
    rw [image, List.append_assoc, List.append_assoc]
    exact List.take_left' primary_length
  simp [crates, front]

theorem image_length : image.length = 6144 := by
  have rest : (sector luksHeader ++ backup).length = 1536 := by decide +kernel
  rw [image, List.append_assoc, List.length_append, List.length_append, primary_length,
    espVolume_length, rest]

theorem image_whole : Whole crates image where
  primary := ⟨partitions 9, image_gpt⟩
  esp := by
    intro esp store tabled
    obtain ⟨found, read, e, s, order, isEfi, -, espAt, -⟩ := tabled
    have same : crates.gpt image = .ok (partitions 9) := by simp [Crates.gpt, image_gpt]
    rw [same] at read
    cases read
    rw [image_length]
    rcases order with order | order
    · cases order
      cases espAt
      decide
    · cases order
      cases isEfi

theorem image_passes : ∃ w fuel after left,
    runVerify still crates (.image "image.raw") false none none .root w fuel =
      .ok (passSummary false) after left := by
  have layout := image_layout []
  rw [List.append_nil] at layout
  obtain ⟨summary, after, cost, run, isPass⟩ := runVerify_ends (.image "image.raw") false none none
    still_reliable (fun other => absurd rfl other) (fun other => absurd rfl other)
    ⟨_, _, layout⟩ (fun impossible => by cases impossible) (machine VerifyEvent 0) rfl
  obtain ⟨left, -, returned⟩ := run cost (Nat.le_refl _)
  rw [isPass] at returned
  exact ⟨_, cost, after, left, returned⟩

/-! ### The grow -/

-- The lines are taken apart before anything is computed: characters are cheap, texts are not.
theorem sgdisk_lines : lines sgdiskOutput = sgdiskLines := by
  have plain : ∀ chars ∈ sgdiskLines.map String.toList,
      '\n' ∉ chars ∧ chars.getLast? ≠ some '\r' := by
    simp only [sgdiskLines, List.map_cons, List.map_nil]
    repeat rw [String.toList_ofList]
    decide
  rw [List.forall_mem_map] at plain
  exact lines_flatMap (fun line member => (plain line member).1) fun line member =>
    (plain line member).2

theorem sgdisk_lists {output : String} (read : lines output = sgdiskLines) :
    (partitionNumbers output).max? = some 2 := by
  rw [partitionNumbers, read]
  change (sgdiskLines.filterMap ((fun line : List Char =>
    (((line.splitOnP isWhitespace).filter fun word => !word.isEmpty).map String.ofList).head?.bind
      fun word => (parseUnsigned u32Bound word).toOption) ∘ String.toList)).max? = _
  rw [← List.filterMap_map]
  simp only [sgdiskLines, List.map_cons, List.map_nil]
  repeat rw [String.toList_ofList]
  decide

theorem sgdisk_after {output : String} (read : lines output = sgdiskLines) (label : String) :
    Flash.after output label =
      ((sgdiskLines.map String.toList).findSome? (labelled label.toList)).map String.ofList := by
  rw [Flash.after, read, List.findSome?_map, List.map_findSome?]
  exact findSome?_congr fun line _ => stripPrefix_trim line label

theorem sgdisk_typeGuid {output : String} (read : lines output = sgdiskLines) :
    ((Flash.after output "Partition GUID code:").bind fun s =>
      (splitWhitespace s).head?).isSome = true := by
  rw [sgdisk_after read, Option.bind_map]
  simp only [sgdiskLines, List.map_cons, List.map_nil, Function.comp_def, splitWhitespace,
    String.toList_ofList]
  repeat rw [String.toList_ofList]
  decide

theorem sgdisk_uniqueGuid {output : String} (read : lines output = sgdiskLines) :
    (Flash.after output "Partition unique GUID:").isSome = true := by
  rw [sgdisk_after read]
  simp only [sgdiskLines, List.map_cons, List.map_nil]
  repeat rw [String.toList_ofList]
  decide

theorem sgdisk_firstSector {output : String} (read : lines output = sgdiskLines) :
    ((Flash.after output "First sector:").bind fun s =>
      (splitWhitespace s).head?.bind parseU64).isSome = true := by
  rw [sgdisk_after read, Option.bind_map]
  simp only [sgdiskLines, List.map_cons, List.map_nil, Function.comp_def, splitWhitespace,
    String.toList_ofList]
  repeat rw [String.toList_ofList]
  decide

theorem sgdisk_info {output : String} (read : lines output = sgdiskLines) :
    (parseInfo output).toBool = true := by
  obtain ⟨typeGuid, isType⟩ := Option.isSome_iff_exists.mp (sgdisk_typeGuid read)
  obtain ⟨uniqueGuid, isUnique⟩ := Option.isSome_iff_exists.mp (sgdisk_uniqueGuid read)
  obtain ⟨firstSector, isFirst⟩ := Option.isSome_iff_exists.mp (sgdisk_firstSector read)
  rw [parseInfo, isType]
  simp only [isUnique, isFirst]
  rfl

/-- The whole grow goes through. -/
theorem flashing_moves {output : String} (read : lines output = sgdiskLines) (n : Nat) :
    Moves (flashing output) n := by
  refine ⟨?_, ?_, rfl⟩
  · change (partitionNumbers output).max?.isSome = true
    rw [sgdisk_lists read]
    rfl
  · change (parseInfo output).toOption.isSome = true
    have parses := sgdisk_info read
    cases parsed : parseInfo output with
    | error e =>
        rw [parsed] at parses
        cases parses
    | ok info => rfl

/-- `sgdisk -p` prints nothing, and no partition is grown. -/
theorem flashing_stays (n : Nat) : ¬ Moves (flashing "") n := by
  rintro ⟨listed, -⟩
  have none : listedLast (flashing "") n = none := by
    change (partitionNumbers "").max? = none
    decide +kernel
  rw [none] at listed
  cases listed

theorem grown_header : primaryHeader grownPrimary ≠ primaryHeader primary := by decide +kernel

theorem image_header : primaryHeader image = primaryHeader primary := by
  rw [image, List.append_assoc, List.append_assoc]
  exact window_append _ (by rw [primary_length]; decide)

/-- What `sgdisk` leaves on a device of sixteen sectors. -/
theorem sgdiskWrites_renewed {medium : Bytes} (size : medium.length = 8192) :
    Renewed 8192 image (sgdiskWrites medium) := by
  have first : grownPrimary.length = 1536 := by decide +kernel
  have last : grownBackup.length = 1024 := by decide +kernel
  constructor
  · simp only [sgdiskWrites, List.length_append, List.length_drop, List.length_take, first, last,
      size]
    decide
  · rw [image_header, sgdiskWrites, List.append_assoc]
    have front : primaryHeader (grownPrimary ++ ((medium.take 7168).drop 1536 ++ grownBackup)) =
        primaryHeader grownPrimary := window_append _ (by rw [first]; decide)
    rw [front]
    exact grown_header

theorem flashing_rewrites (output : String) (n : Nat) {written : Bytes}
    (size : written.length = 8192) : Rewrites (flashing output) n image written where
  saves _ := size ▸ sgdiskWrites_renewed size
  atOnce := .inr (size ▸ sgdiskWrites_renewed size)
  lasts k medium _ renewed := by
    rw [size] at renewed ⊢
    exact sgdiskWrites_renewed renewed.1

/-- A flash of the image returns, whatever `sgdisk` prints. -/
theorem runFlash_small (output : String) (size : Nat) :
    ∃ summary after fuel left,
      runFlash (flashing output) (job size) (machine FlashEvent size) fuel =
        .ok summary after left := by
  have ends : Ends (fun w => w.devices "/dev/sda" = zeros size)
      (runFlash (flashing output) (job size)) fun _ _ => True := by
    apply Ends.bind fun _ _ => True
    · exact (flashVerified_ends (flashing_smooth _) (job size) rfl rfl (flashing_inOrder _)
        image_nonempty (zeros size)).weaken (fun _ held => held) fun _ _ _ => trivial
    intro _
    cases grow : (job size).grow with
    | true =>
        apply Ends.bind _ (growPhase_ends (flashing output) rfl)
        exact fun _ => Ends.pure fun _ _ => trivial
    | false => exact Ends.pure fun _ _ => trivial
  obtain ⟨summary, after, cost, run, -⟩ := ends (machine FlashEvent size) rfl
  obtain ⟨left, -, returned⟩ := run cost (Nat.le_refl _)
  exact ⟨summary, after, cost, left, returned⟩

/-- Every flash of the image to a device as large or of sixteen sectors, with the
verification of the device. -/
theorem reflash_small (output : String) (size : Nat)
    (device : size = image.length ∨ size = 8192) :
    ∃ s : Reflash, s.image = image ∧ s.lib = crates ∧ s.flashEnv = flashing output ∧
      s.job = job size := by
  obtain ⟨summary, after, fuel, left, flashed⟩ := runFlash_small output size
  obtain ⟨_, checked, _, verified, -⟩ := bind_ok flashed
  have length : (zeros size).length = size := List.length_replicate
  have fits : image.length ≤ size := by
    rw [image_length] at device ⊢
    omega
  refine ⟨{
    lib := crates
    job := job size
    image := image
    reaches := by
      rw [image_length]
      decide
    imageEnv := still
    imageRead := rfl
    imagePasses := image_passes
    flashEnv := flashing output
    flashRead := rfl
    inOrder := flashing_inOrder _
    before := machine FlashEvent size
    fits := by
      change image.length ≤ (zeros size).length
      rw [length]
      exact fits
    grows := by
      change decide (image.length < size) = decide (image.length < (zeros size).length)
      rw [length]
    fuel := fuel
    summary := summary
    after := after
    left := left
    flashed := flashed
    checkedAt := checked.clock
    checks := by
      intro other _ verified'
      rw [verified] at verified'
      cases verified'
      rfl
    rewrites := by
      intro grow
      have larger : image.length < size := of_decide_eq_true grow
      have sixteen : size = 8192 := device.resolve_left (Nat.ne_of_gt larger)
      apply flashing_rewrites
      change (image ++ (zeros size).drop image.length).length = 8192
      rw [List.length_append, List.length_drop, length]
      omega
    installEnv := still
    installRead := rfl
    start := { machine VerifyEvent 0 with devices := after.devices }
    unwritten := rfl
    elev := .root
    skip := fun _ => false
    noSkip := fun _ => rfl
    reliable := still_reliable
    trusted := fun other => absurd rfl other
    injective := by
      intro same
      by_cases isImage : (after.devices "/dev/sda").take image.length = image
      · exact isImage
      · have digests : grownDigest = imageDigest := by
          change (if (after.devices "/dev/sda").take image.length = image then imageDigest
            else grownDigest) = (if image = image then imageDigest else grownDigest) at same
          rw [if_neg isImage, if_pos rfl] at same
          exact same
        exact absurd digests (by decide) }, rfl, rfl, rfl, rfl⟩

end Small

/-- A flash to a larger device, grown: the device does not verify. -/
theorem grown_stick_fails : ¬ ∀ s : Reflash, s.Passes := by
  intro all
  obtain ⟨s, isImage, -, isEnv, isJob⟩ := Small.reflash_small Small.sgdiskOutput 8192 (.inr rfl)
  have grow : s.job.grow = true := by
    rw [isJob]
    change decide (Small.image.length < 8192) = true
    rw [Small.image_length]
    decide
  have moves : Moves s.flashEnv s.checkedAt := by
    rw [isEnv]
    exact Small.flashing_moves Small.sgdisk_lines s.checkedAt
  have succeeds : Succeeds s.flashEnv (s.checkedAt + 4) := by
    rw [isEnv]
    exact ⟨_, rfl, rfl⟩
  have untouched := s.carries_image_iff.mp (s.passes_laidOut.mp (all s)).2
  rcases untouched with small | unmoved | still
  · rw [grow] at small
    cases small
  · exact unmoved moves
  · exact s.renewed_apart ((s.rewrites grow).saves succeeds) still

/-- A flash to a device exactly as large, and one to a larger device whose grow lists
no partition. -/
theorem Reflash.untouched_passes :
    (∃ s : Reflash, s.image = Small.image ∧ s.job.grow = false ∧ s.Passes) ∧
      ∃ s : Reflash, s.image = Small.image ∧ s.job.grow = true ∧ s.Passes := by
  have laidOut : ∀ s : Reflash, s.image = Small.image → s.lib = Small.crates →
      LaidOut s.lib s.written := by
    intro s isImage isLib
    apply s.written_laidOut
    · rw [isLib]
      exact Small.crates_readsFront
    · rw [isImage, isLib]
      exact Small.image_whole
  constructor
  · obtain ⟨s, isImage, isLib, -, isJob⟩ :=
      Small.reflash_small "" Small.image.length (.inl rfl)
    have grow : s.job.grow = false := by
      rw [isJob]
      exact decide_eq_false (Nat.lt_irrefl _)
    exact ⟨s, isImage, grow, (Reflash.passes_iff s).mpr ⟨.inl grow, laidOut s isImage isLib⟩⟩
  · obtain ⟨s, isImage, isLib, isEnv, isJob⟩ := Small.reflash_small "" 8192 (.inr rfl)
    have grow : s.job.grow = true := by
      rw [isJob]
      change decide (Small.image.length < 8192) = true
      rw [Small.image_length]
      decide
    have stays : ¬ Moves s.flashEnv s.checkedAt := by
      rw [isEnv]
      exact Small.flashing_stays s.checkedAt
    exact ⟨s, isImage, grow,
      (Reflash.passes_iff s).mpr ⟨.inr (.inl stays), laidOut s isImage isLib⟩⟩

end Nixnas.Tui.Verify
