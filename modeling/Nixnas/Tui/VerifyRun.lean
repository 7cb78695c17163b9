import Nixnas.Tui.Verdict

/-!
# When a verification passes

The five checks in sequence: a run that returns has found the layout and, on a
device with a reference image, the image; when nothing fails, a target that has
both passes.
-/

set_option autoImplicit false

namespace Nixnas.Tui.Verify

open Nixnas.Logic Nixnas.Logic.Action
open Nixnas.Rust
open Nixnas.Tui.Sudo

section Run

variable {env : Env} {lib : Crates} {content : Bytes}

/-- A handle that was opened directly, or by honest tools, sees the target to
its end. -/
theorem openReader_exact {elev : Elevation} (trusted : elev ≠ .root → env.Honest) (node : Node) :
    Spec (fun w : VerifyWorld => w.content env node = content) (openReader env elev node)
      (.onReturn
        (fun file w => (file.node = node ∧ file.Sound content ∧ file.Exact env content) ∧
          w.content env node = content)
        fun _ _ => True) := by
  have opened : Spec (fun w : VerifyWorld => w.content env node = content)
      (openReader env elev node)
      (.onReturn
        (fun file _ => file.node = node ∧ file.Sound content ∧ file.Exact env content)
        fun _ _ => True) := by
    cases elev with
    | root =>
        apply Spec.bind fun _ _ => True
        · apply Spec.mapError
          apply call_spec fun _ _ => trivial
          intro w _
          cases (env.reply w.clock).error <;> exact trivial
        · exact fun _ => Spec.pure fun _ _ => ⟨rfl, trivial, trivial⟩
    | «sudo» secret =>
        refine (openReader_spec (.sudo secret) node).imp ?_
        intro file w met
        obtain ⟨⟨isNode, sound, -, exact⟩, -⟩ := met
        exact ⟨isNode, sound, exact (trusted (by simp))⟩
  exact Spec.holding opened ((openReader_still env elev node).comp World.devices)

theorem seekEnd_held {file : DevReader} (sound : file.Sound content)
    (exact : file.Exact env content) :
    Spec (fun w : VerifyWorld => w.content env file.node = content) (file.seekEnd env)
      (.onReturn
        (fun result w => (content.length = result.1 ∧ file.Follows env content result.2) ∧
          w.content env file.node = content)
        fun _ _ => True) := by
  refine (Spec.holding (DevReader.seekEnd_spec sound)
    ((file.seekEnd_still env).comp World.devices)).imp ?_
  intro result w met
  obtain ⟨⟨follows, sized⟩, held⟩ := met
  exact ⟨⟨(sized exact).symm, follows⟩, held⟩

variable (target : Node) (isDevice : Bool) (fidelityImage : Option String)
  (skip : Option (Nat → Bool)) {elev : Elevation}

/-- A run that returns has found everything. -/
theorem runVerify_spec (trusted : elev ≠ .root → env.Honest) :
    Spec (fun w => w.content env target = content)
      (runVerify env lib target isDevice fidelityImage skip elev)
      (.onReturn
        (fun summary _ => summary = passSummary isDevice ∧ LaidOut lib content ∧
          Faithful env lib content isDevice fidelityImage skip)
        fun _ _ => True) := by
  refine Spec.bind _ (Spec.mapError (openReader_exact trusted target)) ?_
  intro file
  refine Spec.assume fun opened => ?_
  obtain ⟨atFile, sound, exact⟩ := opened
  rw [← atFile]
  refine Spec.bind _ (Spec.mapError (seekEnd_held sound exact)) ?_
  intro result
  obtain ⟨targetLen, first⟩ := result
  refine Spec.assume fun sized => ?_
  obtain ⟨rfl, one⟩ := sized
  rw [← one.node]
  refine Spec.bind _ (checkTable_spec one.sound) ?_
  intro result
  obtain ⟨⟨found, table⟩, second⟩ := result
  refine Spec.assume fun tabled => ?_
  obtain ⟨two, tabled⟩ := tabled
  rw [← two.node]
  refine Spec.bind _ (checkBoot_spec two.sound found.esp) ?_
  intro result
  obtain ⟨boot, third⟩ := result
  refine Spec.assume fun booted => ?_
  obtain ⟨three, booted⟩ := booted
  rw [← three.node]
  refine Spec.bind _ (checkHeader_spec three.sound found.store) ?_
  intro result
  obtain ⟨header, last⟩ := result
  refine Spec.assume fun headed => ?_
  obtain ⟨four, headed⟩ := headed
  rw [← four.node]
  refine Spec.bind _ (checkWhole_spec four.sound isDevice fidelityImage) ?_
  intro whole
  refine (Spec.ite (fun clean => Spec.pure fun _ faithful => ?_)
    fun _ => Spec.fail fun _ _ => trivial)
  simp only [List.isEmpty_iff, List.append_eq_nil_iff] at clean
  obtain ⟨⟨⟨noTable, noBoot⟩, noHeader⟩, noWhole⟩ := clean
  have exactFirst := one.exact exact
  have exactSecond := two.exact exactFirst
  obtain ⟨esp, store, isTabled, same⟩ := (tabled exactFirst).right noTable
  change found = ⟨some esp, some store⟩ at same
  subst same
  refine ⟨rfl, ⟨esp, store, isTabled, ?_, ?_⟩, faithful.mp noWhole⟩
  · exact (booted exactSecond esp rfl).right noBoot
  · exact (headed store rfl).mp noHeader

/-- When nothing fails, a target with the layout, and with the image if it is to
be compared, passes. -/
theorem runVerify_ends (reliable : env.Reliable) (trusted : elev ≠ .root → env.Honest)
    (sizes : elev ≠ .root → env.Sizes content.length) (laidOut : LaidOut lib content)
    (faithful : Faithful env lib content isDevice fidelityImage skip) :
    Ends (fun w => w.content env target = content)
      (runVerify env lib target isDevice fidelityImage skip elev)
      fun summary _ => summary = passSummary isDevice := by
  obtain ⟨esp, store, layout⟩ := laidOut
  refine Ends.bind _ (Ends.mapError ((openReader_ends reliable elev target sizes).with_spec
    (openReader_exact trusted target))) ?_
  intro file
  refine Ends.assume fun _ => Ends.assume fun opened => ?_
  obtain ⟨atFile, sound, exact⟩ := opened
  rw [← atFile]
  refine Ends.bind _ (Ends.mapError ((DevReader.seekEnd_ends reliable file).with_spec
    (seekEnd_held sound exact))) ?_
  intro result
  obtain ⟨targetLen, first⟩ := result
  refine Ends.assume fun _ => Ends.assume fun sized => ?_
  obtain ⟨rfl, one⟩ := sized
  have exactFirst := one.exact exact
  rw [← one.node]
  refine Ends.bind _ ((checkTable_ends reliable one.sound exactFirst layout.table).with_spec
    (checkTable_spec one.sound)) ?_
  intro result
  obtain ⟨⟨found, table⟩, second⟩ := result
  refine Ends.assume fun _ => Ends.assume fun tabled => ?_
  obtain ⟨two, tabled⟩ := tabled
  have exactSecond := two.exact exactFirst
  obtain ⟨same, noTable⟩ := (tabled exactFirst).calm reliable esp store layout.table
  change found = ⟨some esp, some store⟩ at same
  change table = [] at noTable
  subst same
  subst noTable
  rw [← two.node]
  refine Ends.bind _ ((checkBoot_ends reliable two.sound (some esp)).with_spec
    (checkBoot_spec two.sound (some esp))) ?_
  intro result
  obtain ⟨boot, third⟩ := result
  refine Ends.assume fun _ => Ends.assume fun booted => ?_
  obtain ⟨three, booted⟩ := booted
  have exactThird := three.exact exactSecond
  have noBoot : boot = [] := (booted exactSecond esp rfl).calm reliable layout.boot
  subst noBoot
  rw [← three.node]
  refine Ends.bind _ ((checkHeader_ends reliable three.sound exactThird layout.inside).with_spec
    (checkHeader_spec three.sound (some store))) ?_
  intro result
  obtain ⟨header, last⟩ := result
  refine Ends.assume fun _ => Ends.assume fun headed => ?_
  obtain ⟨four, headed⟩ := headed
  have noHeader : header = [] := (headed store rfl).mpr layout.header
  subst noHeader
  rw [← four.node]
  refine Ends.bind _ ((checkWhole_ends reliable four.sound (four.exact exactThird) isDevice
    fidelityImage).with_spec (checkWhole_spec four.sound isDevice fidelityImage)) ?_
  intro whole w met
  have noWhole : whole = [] := met.2.mpr faithful
  subst noWhole
  exact ⟨_, w, 0, Runs.pure _ w, rfl⟩

variable (elev) in
/-- The run returns the summary of a pass, given enough operations. -/
def Passes (env : Env) (lib : Crates) (target : Node) (isDevice : Bool)
    (fidelityImage : Option String) (skip : Option (Nat → Bool)) (w : VerifyWorld) : Prop :=
  ∃ after cost, Runs (runVerify env lib target isDevice fidelityImage skip elev) w
    (passSummary isDevice) after cost

/-- Digests that tell two byte strings apart are equal for equal strings only. -/
theorem carries_iff {image : Bytes}
    (injective : lib.sha256 (content.take image.length) = lib.sha256 image →
      content.take image.length = image) :
    Carries lib content image ↔ image.length ≤ content.length ∧
      content.take image.length = image := by
  refine and_congr_right fun _ => ⟨fun same => injective (hex_inj same), fun same => ?_⟩
  rw [same]

theorem runVerify_passes_iff (w : VerifyWorld) (reliable : env.Reliable)
    (trusted : elev ≠ .root → env.Honest ∧ env.Sizes (w.content env target).length)
    (injective : ∀ path, fidelityImage = some path →
      lib.sha256 ((w.content env target).take (env.image path).length) =
        lib.sha256 (env.image path) →
      (w.content env target).take (env.image path).length = env.image path) :
    Passes elev env lib target isDevice fidelityImage skip w ↔
      LaidOut lib (w.content env target) ∧
      (isDevice = true → ∀ path, fidelityImage = some path →
        (env.image path).length ≤ (w.content env target).length ∧
          (Seen skip (env.image path).length ∨
            (w.content env target).take (env.image path).length = env.image path)) := by
  have carries : ∀ path, fidelityImage = some path →
      (Carries lib (w.content env target) (env.image path) ↔
        (env.image path).length ≤ (w.content env target).length ∧
          (w.content env target).take (env.image path).length = env.image path) :=
    fun path isPath => carries_iff (injective path isPath)
  constructor
  · intro passes
    obtain ⟨after, cost, run⟩ := passes
    obtain ⟨left, _, returned⟩ := run cost (Nat.le_refl _)
    have met := (runVerify_spec target isDevice fidelityImage skip fun other =>
      (trusted other).1).at_ok (rfl : w.content env target = _) returned
    obtain ⟨-, laidOut, faithful⟩ := met
    refine ⟨laidOut, fun device path isPath => ?_⟩
    obtain ⟨fits, seen | carried⟩ := faithful device path isPath
    · exact ⟨fits, Or.inl seen⟩
    · exact ⟨fits, Or.inr ((carries path isPath).mp carried).2⟩
  · intro met
    obtain ⟨laidOut, same⟩ := met
    have faithful : Faithful env lib (w.content env target) isDevice fidelityImage skip := by
      intro device path isPath
      obtain ⟨fits, seen | carried⟩ := same device path isPath
      · exact ⟨fits, Or.inl seen⟩
      · exact ⟨fits, Or.inr ((carries path isPath).mpr ⟨fits, carried⟩)⟩
    obtain ⟨summary, after, cost, run, isPass⟩ := runVerify_ends target isDevice fidelityImage skip
      reliable (fun other => (trusted other).1) (fun other => (trusted other).2) laidOut faithful w rfl
    subst isPass
    exact ⟨after, cost, run⟩

end Run

/-! ## A small stick

An image of twelve sectors: a GPT of four entries, an ESP of six sectors with a
loader and a UKI, and the first sector of a LUKS2 store. -/

namespace Small

def zeros (n : Nat) : Bytes := List.replicate n 0

/-- `n` in `width` bytes, the lowest first. -/
def little : Nat → Nat → Bytes
  | 0, _ => []
  | width + 1, n => UInt8.ofNat n :: little width (n / 256)

def utf16 (s : String) : Bytes := s.toList.flatMap fun c => little 2 c.toNat

def sector (bytes : Bytes) : Bytes := bytes ++ zeros (512 - bytes.length)

/-- The sixteen bytes of a GUID that counts up from `n`. -/
def guid (n : Nat) : Bytes := (List.range 16).map fun i => UInt8.ofNat (n + i)

def efiType : Bytes :=
  [0x28, 0x73, 0x2a, 0xc1, 0x1f, 0xf8, 0xd2, 0x11, 0xba, 0x4b, 0x00, 0xa0, 0xc9, 0x3e, 0xc9, 0x3b]

def linuxType : Bytes :=
  [0xaf, 0x3d, 0xc6, 0x0f, 0x83, 0x84, 0x72, 0x47, 0x8e, 0x79, 0x3d, 0x69, 0xd8, 0x47, 0x7d, 0xe4]

def gptEntry (typeGuid partGuid : Bytes) (first last : Nat) (name : String) : Bytes :=
  typeGuid ++ partGuid ++ little 8 first ++ little 8 last ++ zeros 8 ++ utf16 name ++
    zeros (72 - 2 * name.toList.length)

/-- The table whose store ends at the sector `last`. -/
def gptTable (last : Nat) : Bytes :=
  gptEntry efiType (guid 0x20) 3 8 "esp" ++ gptEntry linuxType (guid 0x30) 9 last "store" ++ zeros 256

def gptHeader (self alternate lastUsable tableAt crc tableCrc : Nat) : Bytes :=
  sector (asBytes "EFI PART" ++ little 4 0x10000 ++ little 4 92 ++ little 4 crc ++ zeros 4 ++
    little 8 self ++ little 8 alternate ++ little 8 3 ++ little 8 lastUsable ++ guid 0x10 ++
    little 8 tableAt ++ little 4 4 ++ little 4 128 ++ little 4 tableCrc)

def protectiveMbr : Bytes :=
  zeros 446 ++ [0, 0, 2, 0, 0xee, 0xff, 0xff, 0xff] ++ little 4 1 ++ little 4 11 ++ zeros 48 ++
    [0x55, 0xaa]

/-- The first three sectors of the image. -/
@[irreducible] def primary : Bytes := protectiveMbr ++ gptHeader 1 11 9 2 0x745bd229 0x373b1a25 ++ gptTable 9

def dirEntry (name : String) (attributes : UInt8) (cluster : Nat) : Bytes :=
  asBytes name ++ [attributes] ++ zeros 14 ++ little 2 cluster ++ zeros 4

def bootSector : Bytes :=
  [0xeb, 0x3c, 0x90] ++ asBytes "MSDOS5.0" ++ little 2 512 ++ [1] ++ little 2 1 ++ [1] ++
    little 2 16 ++ little 2 6 ++ [0xf8] ++ little 2 1 ++ little 2 1 ++ little 2 1 ++ little 4 3 ++
    zeros 4 ++ [0x80, 0, 0x29] ++ little 4 1 ++ asBytes "NO NAME    FAT12   " ++ zeros 448 ++
    [0x55, 0xaa]

/-- A FAT12 volume with two empty files. -/
@[irreducible] def espVolume : Bytes :=
  bootSector ++ sector [0xf8, 0xff, 0xff, 0xff, 0xff, 0xff, 0xff, 0x0f] ++
    sector (dirEntry "EFI        " 0x10 2) ++
    sector (dirEntry ".          " 0x10 2 ++ dirEntry "..         " 0x10 0 ++
      dirEntry "BOOT       " 0x10 3 ++ dirEntry "LINUX      " 0x10 4) ++
    sector (dirEntry ".          " 0x10 3 ++ dirEntry "..         " 0x10 2 ++
      dirEntry "BOOTX64 EFI" 0x20 0) ++
    sector (dirEntry ".          " 0x10 4 ++ dirEntry "..         " 0x10 2 ++
      dirEntry "NIXNAS  EFI" 0x20 0)

def backup : Bytes := gptTable 9 ++ gptHeader 11 1 9 10 0x120a892f 0x373b1a25

@[irreducible] def image : Bytes := primary ++ espVolume ++ sector luksHeader ++ backup

/-! The same header and table on a device of sixteen sectors: after the backup
was moved to its end, and after the store was grown. -/

def movedPrimary : Bytes :=
  protectiveMbr ++ gptHeader 1 15 13 2 0x4157051f 0x373b1a25 ++ gptTable 9

def grownPrimary : Bytes :=
  protectiveMbr ++ gptHeader 1 15 13 2 0xd0046cf9 0x47d60acb ++ gptTable 13

def grownBackup : Bytes := gptTable 13 ++ gptHeader 15 1 13 14 0x2a938cd1 0x47d60acb

/-- What the crates read there. -/
def partitions (last : Nat) : List Partition :=
  [⟨1, true, true, "C12A7328-F81F-11D2-BA4B-00A0C93EC93B", "esp", .ok 1536, .ok 3072⟩,
    ⟨2, true, false, "0FC63DAF-8483-4772-8E79-3D69D8477DE4", "store", .ok 4608, .ok (512 * (last - 8))⟩]

def dots : List (Option FatEntry) := [some ⟨true, ".", 0⟩, some ⟨true, "..", 0⟩]

def volume : FatVolume where
  openDir
    | "EFI/BOOT" => some (dots ++ [some ⟨false, "BOOTX64.EFI", 0⟩])
    | "EFI/Linux" => some (dots ++ [some ⟨false, "NIXNAS.EFI", 0⟩])
    | _ => none

/-- The digests of the image and of a device that starts with it after the grow. -/
def imageDigest : Bytes :=
  [0xa4, 0x6d, 0xfe, 0x64, 0xb1, 0xeb, 0x6b, 0xbe, 0xfe, 0xcf, 0x5c, 0xc0, 0x53, 0x94, 0x90, 0x6e,
    0x72, 0xaa, 0x8b, 0x90, 0xf6, 0x06, 0xfa, 0x3a, 0x4c, 0x0e, 0x0c, 0x12, 0x64, 0xd8, 0x7a, 0x70]

def grownDigest : Bytes :=
  [0xba, 0xd4, 0xb5, 0x0a, 0x55, 0x40, 0xcd, 0x49, 0x28, 0x1f, 0xda, 0xa3, 0x6f, 0x45, 0xd8, 0x42,
    0xb4, 0x5b, 0xcd, 0x0f, 0xec, 0xf9, 0x2d, 0x6d, 0xa7, 0xb2, 0xb6, 0xab, 0x24, 0xa6, 0xd7, 0x0a]

/-- The crates, on the image and on the devices it is flashed to. -/
def crates : Crates where
  primaryGpt medium :=
    if medium.take 1536 = primary ∨ medium.take 1536 = movedPrimary then some (.ok (partitions 9))
    else if medium.take 1536 = grownPrimary then some (.ok (partitions 13))
    else none
  backupGpt _ := .error "invalid GPT signature"
  fat esp := if esp = espVolume then .ok volume else .error "not a FAT volume"
  sha256 bytes := if bytes = image then imageDigest else grownDigest
  humanSize n :=
    if n < 1024 then toString n ++ " B"
    else toString (n / 1024) ++ "." ++ toString (10 * (n % 1024) / 1024) ++ " KiB"

/-- An environment in which every operation succeeds, whatever a command does to
a device. -/
def replying (output : Nat → String) (tool : Nat → Bytes → Bytes) : Env where
  image _ := image
  reply n :=
    { error := none
      count := 1000000
      short := 0
      output := ⟨true, output n, ""⟩
      blockdev := fun size => ⟨true, toString size, ""⟩
      present := true
      deliver := fun original accepted _ => accepted ++ original.drop accepted.length
      settle := fun original accepted _ => accepted ++ original.drop accepted.length
      tool := tool n }

def still : Env := replying (fun _ => "") fun _ medium => medium

theorem still_reliable : still.Reliable := ⟨fun _ => rfl, fun _ => rfl⟩

theorem primary_length : primary.length = 1536 := by decide +kernel

theorem espVolume_length : espVolume.length = 3072 := by decide +kernel

/-- Whatever stands behind the image. -/
theorem image_table (more : Bytes) : Tabled crates (image ++ more) (1536, 3072) (4608, 512) := by
  refine ⟨partitions 9, ?_, ⟨1, true, true, _, _, _, _⟩, ⟨2, true, false, _, _, _, _⟩, Or.inl rfl,
    rfl, rfl, rfl, rfl⟩
  have front : (image ++ more).take 1536 = primary := by
    rw [image, List.append_assoc, List.append_assoc, List.append_assoc]
    exact List.take_left' primary_length
  simp [Crates.gpt, crates, front]

theorem image_layout (more : Bytes) : Layout crates (image ++ more) (1536, 3072) (4608, 512) where
  table := image_table more
  boot := by
    have esp : window (1536, 3072) (image ++ more) = espVolume := by
      rw [window, image, List.append_assoc, List.append_assoc, List.append_assoc,
        List.drop_left' primary_length]
      exact List.take_left' espVolume_length
    refine ⟨volume, ?_, Or.inl rfl, _, ⟨false, "NIXNAS.EFI", 0⟩, rfl, ?_, ?_⟩
    · simp only [crates, esp, if_true]
    · simp [dots]
    · decide
  header := by
    have before : (primary ++ espVolume).length = 4608 := by
      rw [List.length_append, primary_length, espVolume_length]
    rw [window, image, List.append_assoc, List.append_assoc, List.drop_left' before]
    rfl

end Small

theorem runVerify_passes_small :
    Passes .root Small.still Small.crates (.device "/dev/sda") true (some "image.raw")
      (some fun _ => false)
      ⟨0, fun _ => Small.image ++ Small.zeros 2048, fun _ => none, fun _ => false, [], [], false, [],
        false, []⟩ := by
  apply (runVerify_passes_iff (.device "/dev/sda") true (some "image.raw") (some fun _ => false) _
    Small.still_reliable (fun other => absurd rfl other) fun path _ _ => List.take_left).mpr
  refine ⟨⟨(1536, 3072), (4608, 512), Small.image_layout _⟩, fun _ path _ => ⟨?_, Or.inr ?_⟩⟩
  · change Small.image.length ≤ (Small.image ++ Small.zeros 2048).length
    rw [List.length_append]
    exact Nat.le_add_right _ _
  · exact List.take_left

end Nixnas.Tui.Verify
