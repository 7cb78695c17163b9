import Nixnas.Logic.Total
import Nixnas.Tui.BuildSteps
import Mathlib.Data.Finset.Insert
import Mathlib.Data.Finset.Dedup
import Mathlib.Data.Finset.Erase

/-!
# The image directory

`.nixnas-image` is used by every build.  The script of a run writes its `.raw`
there, beside what earlier builds and the operator left, and the pipeline returns
the first `.raw` of the directory's listing, whatever order that comes in.
-/

set_option autoImplicit false

namespace Nixnas.Tui.Build

open Nixnas.Logic Nixnas.Logic.Action
open Nixnas.Rust

/-! ## Every run comes to its end -/

theorem send_halts (event : BuildEvent) : Halts (send event) := Halts.modify _

theorem check_halts (i : Nat) (success : Bool) (message : String) :
    Halts (check i success message) := by
  cases success with
  | true => exact Halts.pure ()
  | false => exact Halts.bind (send_halts _) fun _ => Halts.fail _

theorem runStreamed_halts (what : String) (child : Child) : Halts (runStreamed what child) := by
  cases child with
  | spawnError e =>
      unfold runStreamed
      exact Halts.perform _
  | waitError lines e | exited lines success =>
      exact Halts.bind (Halts.perform _) fun _ =>
        Halts.bind (Halts.forM fun line => send_halts _) fun _ => Halts.perform _

theorem shredOnDrop_halts (file : SecretFile) (answer : Shred) : Halts (shredOnDrop file answer) := by
  refine Halts.bind Halts.get fun w => ?_
  split
  · exact Halts.pure ()
  · refine Halts.bind ?_ fun _ => Halts.perform _
    unfold overwrite
    split
    · exact Halts.perform _
    · exact Halts.pure ()

section Stages

variable (s : Setting) (a : Answers) (cfg : Config)

theorem buildScript_halts (size : SizeOverride) : Halts (buildScript a cfg size) :=
  Halts.bind (send_halts _) fun _ => Halts.bind (send_halts _) fun _ =>
    Halts.bind (runStreamed_halts _ _) fun _ => Halts.bind (check_halts _ _ _) fun _ => send_halts _

theorem runMkpasswd_halts : Halts (runMkpasswd a) := by
  refine Halts.bind ?_ fun _ => Halts.bind (Halts.perform _) fun _ =>
    Halts.bind (Halts.perform _) fun _ => Halts.bind (check_halts _ _ _) fun _ => Halts.pure _
  refine Halts.bind (Halts.perform _) fun answer => ?_
  rcases answer with (_ | e) | _
  · exact Halts.bind (send_halts _) fun _ => Halts.fail _
  · exact Halts.bind (send_halts _) fun _ => Halts.fail _
  · exact Halts.pure ()

theorem writeHashFile_halts : Halts (writeHashFile s a) :=
  Halts.bind (runMkpasswd_halts a) fun _ => Halts.bind (Halts.perform _) fun _ =>
    Halts.bind (Halts.perform _) fun _ => Halts.perform _

theorem extractPki_halts (sopsPath : String) : Halts (extractPki a sopsPath) :=
  Halts.bind (Halts.perform _) fun _ => Halts.bind (check_halts _ _ _) fun _ =>
    Halts.bind (Halts.perform _) fun _ => Halts.bind (Halts.perform _) fun _ =>
      Halts.bind (Halts.perform _) fun _ => check_halts _ _ _

theorem bundleRoot_halts (dir : String) : Halts (bundleRoot a dir) := by
  unfold bundleRoot
  split
  · exact Halts.pure dir
  · refine Halts.bind (Halts.perform _) fun names => ?_
    split
    · split
      · exact Halts.bind (send_halts _) fun _ => Halts.pure _
      · exact Halts.pure dir
    · exact Halts.pure dir

theorem checkBundle_halts (sopsPath bundle : String) : Halts (checkBundle a sopsPath bundle) := by
  unfold checkBundle
  split
  · exact Halts.pure ()
  · exact Halts.bind (send_halts _) fun _ => Halts.fail _

theorem buildImage_halts : Halts (buildImage s a) := by
  refine Halts.bind (send_halts _) fun _ => Halts.bind (Halts.perform _) fun _ =>
    Halts.bind (Halts.perform _) fun _ => Halts.bind (runStreamed_halts _ _) fun _ =>
      Halts.bind (check_halts _ _ _) fun _ => Halts.bind (send_halts _) fun _ =>
        Halts.bind (send_halts _) fun _ => Halts.bind (Halts.perform _) fun names => ?_
  split
  · exact Halts.bind (send_halts _) fun _ => Halts.fail _
  · exact Halts.bind (send_halts _) fun _ => Halts.bind (send_halts _) fun _ => Halts.pure _

theorem injectPki_halts : Halts (injectPki s a cfg) := by
  unfold injectPki
  split
  · refine Halts.bind (send_halts _) fun _ => Halts.bind ?_ fun _ =>
      Halts.guarded (Halts.perform _) ?_
    · exact Halts.bind (Halts.perform _) fun _ => Halts.perform _
    · exact Halts.bind (extractPki_halts a _) fun _ => Halts.bind (bundleRoot_halts a _) fun _ =>
        Halts.bind (checkBundle_halts a _ _) fun _ => Halts.bind (send_halts _) fun _ =>
          buildImage_halts s a
  · exact Halts.bind (send_halts _) fun _ => Halts.bind (send_halts _) fun _ => buildImage_halts s a

theorem deriveHash_halts : Halts (deriveHash s a cfg) :=
  Halts.bind (send_halts _) fun _ => Halts.bind (writeHashFile_halts s a) fun _ =>
    Halts.guarded (shredOnDrop_halts _ _)
      (Halts.bind (send_halts _) fun _ => injectPki_halts s a cfg)

theorem runPipeline_halts (passphrase : String) (size : SizeOverride) :
    Halts (runPipeline s a cfg passphrase size) := by
  refine Halts.bind (buildScript_halts a cfg size) fun _ => Halts.bind (send_halts _) fun _ =>
    Halts.bind ?_ fun _ => Halts.guarded (shredOnDrop_halts _ _)
      (Halts.bind (send_halts _) fun _ => deriveHash_halts s a cfg)
  exact Halts.bind (Halts.perform _) fun _ => Halts.perform _

end Stages

/-- A run none of whose calls fails returns an image. -/
theorem runPipeline_builds {s : Setting} {a : Answers} {cfg : Config} {w : World}
    (completes : failedStep 0 (stages s a cfg w) = none) (passphrase : String) (size : SizeOverride) :
    ∃ image after fuel left, runPipeline s a cfg passphrase size w fuel = .ok image after left := by
  obtain ⟨result, after, cost, run⟩ := runPipeline_halts s a cfg passphrase size w
  cases result with
  | ok image =>
      obtain ⟨left, _, returned⟩ := run.of_attempt cost (Nat.le_refl _)
      exact ⟨image, after, cost, left, returned⟩
  | error e =>
      obtain ⟨left, _, failed⟩ := run.error_of_attempt cost (Nat.le_refl _)
      have met := runPipeline_trace s a cfg passphrase size w w cost rfl
      rw [failed] at met
      exact absurd completes met.1

/-! ## The directory -/

/-- The directory when the script of a run has written its image there; a file of
the same name was replaced. -/
structure ImageDir where
  prior : Finset String
  written : String
  rawName : isRaw written = true
  fileNames : ∀ name ∈ insert written prior, '/' ∉ name.toList

def ImageDir.names (dir : ImageDir) : Finset String := insert dir.written dir.prior

/-- A listing, in any order; an entry that cannot be read is left out. -/
def ImageDir.Lists (dir : ImageDir) (listing : List String) : Prop :=
  listing.Nodup ∧ ∀ name ∈ listing, name ∈ dir.names

/-- Whatever the environment answers, an image that a run returns is the one that its
script wrote. -/
def ReturnsOwn (s : Setting) (cfg : Config) (dir : ImageDir) : Prop :=
  ∀ (a : Answers) (passphrase : String) (size : SizeOverride) (w after : World) (fuel left : Nat)
    (image : String), (∀ listing, a.readOutDir = .ok listing → dir.Lists listing) →
      runPipeline s a cfg passphrase size w fuel = .ok image after left →
        image = join s.outDir dir.written

/-- No other `.raw` was there before. -/
def ImageDir.Clean (dir : ImageDir) : Prop :=
  ∀ name ∈ dir.prior, isRaw name = true → name = dir.written

theorem outDir_eq (s : Setting) : ∃ front, s.outDir = front ++ ".nixnas-image" := by
  unfold Setting.outDir join
  rw [if_congr (show _ ↔ s.base = "" by simp [startsWith]) rfl rfl]
  split
  · exact ⟨"", rfl⟩
  · split
    · exact ⟨s.base, rfl⟩
    · exact ⟨s.base ++ "/", rfl⟩

theorem join_outDir (s : Setting) {name : String} (plain : '/' ∉ name.toList) :
    join s.outDir name = s.outDir ++ "/" ++ name := by
  obtain ⟨front, same⟩ := outDir_eq s
  have relative : startsWith name "/" = false := by
    unfold startsWith
    cases chars : name.toList with
    | nil => rfl
    | cons c rest =>
        rw [chars] at plain
        have different : ¬ '/' = c := fun equal => plain (List.mem_cons.mpr (.inl equal))
        simpa [List.isPrefixOf] using different
  have present : s.outDir ≠ "" := by
    rw [same]
    intro empty
    have chars := congrArg String.toList empty
    rw [String.toList_append] at chars
    simp at chars
  have ends : s.outDir.toList.getLast? = some 'e' := by
    rw [same, String.toList_append, List.getLast?_append]
    rfl
  unfold join
  rw [if_neg (by simp [relative, present]), if_neg (by rw [ends]; decide)]

/-- File names are told apart by their paths. -/
theorem join_outDir_inj (s : Setting) {x y : String} (plain : '/' ∉ x.toList) (plain' : '/' ∉ y.toList)
    (same : join s.outDir x = join s.outDir y) : x = y := by
  rw [join_outDir s plain, join_outDir s plain'] at same
  have chars := congrArg String.toList same
  simp only [String.toList_append] at chars
  exact String.toList_inj.mp (List.append_cancel_left chars)

/-! ## Which image a run returns -/

/-- Every call succeeds, with Secure Boot keys or without; the listing is given. -/
def Answers.listing (names : List String) : Answers :=
  { Answers.good with
    sops := .ok ⟨true, "", ""⟩
    isDir := fun _ => true
    isFile := fun _ => true
    readOutDir := .ok names }

theorem listing_completes (s : Setting) (cfg : Config) {names : List String}
    (present : names.any isRaw = true) :
    failedStep 0 (stages s (.listing names) cfg World.clear) = none := by
  have raws : rawCalls (.listing names) = [unmarked true, marked true] := by
    change [unmarked true, marked (names.any isRaw)] = _
    rw [present]
  unfold stages pkiStage
  rw [raws]
  cases cfg.sbKeysSops <;> rfl

theorem returnsOwn_of_clean {s : Setting} {cfg : Config} {dir : ImageDir} (clean : dir.Clean) :
    ReturnsOwn s cfg dir := by
  intro a passphrase size w after fuel left image listed returned
  have met := runPipeline_trace s a cfg passphrase size w w fuel rfl
  rw [returned] at met
  obtain ⟨_, _, names, name, read, found, isImage⟩ := met
  have member := (listed names read).2 name (List.mem_of_find?_eq_some found)
  have raw := List.find?_some found
  have own : name = dir.written := by
    rcases Finset.mem_insert.mp member with same | prior
    · exact same
    · exact clean name prior raw
  rw [isImage, own]

/-- Some listing has a file that is there first. -/
theorem lists_first {dir : ImageDir} {name : String} (present : name ∈ dir.names) :
    dir.Lists (name :: (dir.names.erase name).toList) := by
  constructor
  · refine List.nodup_cons.mpr ⟨?_, Finset.nodup_toList _⟩
    simp
  · intro other member
    rcases List.mem_cons.mp member with rfl | later
    · exact present
    · exact Finset.mem_of_mem_erase (Finset.mem_toList.mp later)

theorem clean_of_returnsOwn {s : Setting} {cfg : Config} {dir : ImageDir}
    (own : ReturnsOwn s cfg dir) : dir.Clean := by
  intro name prior raw
  have present : name ∈ dir.names := Finset.mem_insert_of_mem prior
  have some_raw : (name :: (dir.names.erase name).toList).any isRaw = true := by
    simp [raw]
  have builds := listing_completes s cfg some_raw
  obtain ⟨image, after, fuel, left, returned⟩ := runPipeline_builds builds "secret" .fixed
  have isOwn := own _ "secret" .fixed World.clear after fuel left image
    (fun listing read => by cases read; exact lists_first present) returned
  have met := runPipeline_trace s (.listing (name :: (dir.names.erase name).toList)) cfg "secret"
    .fixed World.clear World.clear fuel rfl
  rw [returned] at met
  obtain ⟨_, _, names, first, read, found, isImage⟩ := met
  cases read
  rw [List.find?_cons_of_pos raw] at found
  cases found
  refine join_outDir_inj s (dir.fileNames name present)
    (dir.fileNames dir.written (Finset.mem_insert_self _ _)) ?_
  rw [← isImage, isOwn]

/-- For every prior content of the directory and every order of its listing: a run can
only return the image that its own script wrote exactly when no other `.raw` was
there before. -/
theorem returnsOwn_iff_clean (s : Setting) (cfg : Config) (dir : ImageDir) :
    ReturnsOwn s cfg dir ↔ dir.Clean :=
  ⟨clean_of_returnsOwn, returnsOwn_of_clean⟩

/-- The image of an earlier build, under another name. -/
def ImageDir.reused : ImageDir where
  prior := {"backup.raw"}
  written := "nixnas.raw"
  rawName := by decide
  fileNames := by decide

theorem reused_dir_not_returnsOwn :
    ¬ ∀ (s : Setting) (cfg : Config) (dir : ImageDir), ReturnsOwn s cfg dir := by
  intro own
  have clean := clean_of_returnsOwn (own .shm .plain .reused)
  have same := clean "backup.raw" (by decide) (by decide)
  exact absurd same (by decide)

end Nixnas.Tui.Build
