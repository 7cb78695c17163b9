import Nixnas.Rust.Parsing
import Nixnas.Tui.FlashRun

/-!
# The grow against the kernel's time

`grow_last_partition`, `grow_f2fs_in_luks` and the grow of `run_flash` over any
way of running commands.  One of these is the world of a whole flash run; in the
other one the kernel takes up the new size of the partition in its own time, and
`cryptsetup open` makes a mapping as large as the partition is to the kernel at
that moment.
-/

set_option autoImplicit false

namespace Nixnas.Tui.Flash

open Nixnas.Logic Nixnas.Logic.Action
open Nixnas.Rust
open Nixnas.Tui.Sudo

/-! ## Any way of running commands -/

structure Shell (World : Type) where
  /-- `run_captured` of a command that only reads. -/
  query : List String → Action World String Output
  /-- `run_captured` of any other. -/
  command : List String → Action World String Output
  /-- `run_with_input`. -/
  withInput : List String → Bytes → Action World String Output
  pathExists : String → Action World String Bool
  send : FlashEvent → Action World String Unit

namespace Shell

variable {World : Type} (sh : Shell World)

def runSgdisk (dev : String) (args : List String) : Action World String Unit := do
  let out ← context "running sgdisk (is gptfdisk installed?)"
    (sh.command ("sgdisk" :: args ++ [dev]))
  if out.success then pure ()
  else fail ("sgdisk " ++ unwords args ++ " failed: " ++ trim out.stderr)

def lastPartitionNumber (dev : String) : Action World String Nat := do
  let out ← context "running sgdisk -p (is gptfdisk installed?)" (sh.query ["sgdisk", "-p", dev])
  if !out.success then fail ("sgdisk -p failed: " ++ out.stderr)
  else
    match (partitionNumbers out.stdout).max? with
    | some n => pure n
    | none => fail "sgdisk -p listed no partitions"

def partitionInfo (dev : String) (n : Nat) : Action World String PartInfo := do
  let out ← context "running sgdisk --info (is gptfdisk installed?)"
    (sh.query ["sgdisk", "--info=" ++ toString n, dev])
  if !out.success then fail ("sgdisk --info=" ++ toString n ++ " failed: " ++ out.stderr)
  else
    match parseInfo out.stdout with
    | .ok info => pure info
    | .error e => fail e

def growLastPartition (dev : String) : Action World String Nat := do
  let n ← sh.lastPartitionNumber dev
  let info ← sh.partitionInfo dev n
  sh.runSgdisk dev ["--move-second-header"]
  sh.runSgdisk dev (recreate n info)
  pure n

def awaitNode (part : String) : Nat → Action World String Unit
  | 0 => pure ()
  | tries + 1 => do
      let present ← sh.pathExists part
      if present then pure () else awaitNode part tries

def partSize (part : String) : Action World String Nat := do
  match ← attempt (sh.query ["blockdev", "--getsize64", part]) with
  | .ok out => pure (if out.success then (parseU64 (trim out.stdout)).getD 0 else 0)
  | .error _ => pure 0

def awaitSize (part : String) (last : Nat) : Nat → Action World String Unit
  | 0 => pure ()
  | tries + 1 => do
      let size ← sh.partSize part
      if 0 < size ∧ size = last then pure () else awaitSize part size tries

/-- What the grow answers when the store was opened and released. -/
def conclude (mapperPath : String) (resize close : Except String Output) : Action World String Unit :=
  match resize, close with
  | .error e, _ => fail e
  | .ok resizeOut, close =>
      if !resizeOut.success then
        fail ("resize.f2fs " ++ mapperPath ++ " failed: " ++ trim resizeOut.stderr)
      else
        match close with
        | .error e => fail e
        | .ok closeOut =>
            if closeOut.success then pure ()
            else fail ("cryptsetup close " ++ growMapper ++ " failed: " ++ trim closeOut.stderr)

/-- From the open of the store on. -/
def growMapped (part : String) (secret : String) : Action World String Unit := do
  let mapperPath := "/dev/mapper/" ++ growMapper
  let out ← context "running cryptsetup (is it installed?)"
    (sh.withInput ["cryptsetup", "open", "--key-file=-", part, growMapper] (asBytes secret))
  if !out.success then
    fail ("cryptsetup open " ++ part ++ " failed (wrong passphrase?): " ++ trim out.stderr)
  else do
    let resize ← attempt (context "running resize.f2fs (are the f2fs-tools installed?)"
      (sh.command ["resize.f2fs", mapperPath]))
    let close ← attempt (sh.command ["cryptsetup", "close", growMapper])
    let _ ← attempt (sh.command ["sync"])
    conclude mapperPath resize close

def growF2fsInLuks (dev : String) (partNum : Nat) (secret : String) : Action World String Unit := do
  let part := partitionPath dev partNum
  let _ ← attempt (sh.query ["blockdev", "--rereadpt", dev])
  sh.awaitNode part 50
  let present ← sh.pathExists part
  if !present then
    fail ("partition node " ++ part ++ " did not appear after the partition grow")
  else do
    sh.awaitSize part 0 50
    sh.growMapped part secret

/-- What the summary says of a store that was grown. -/
def grown : String :=
  " · partition + f2fs store grown to fill the device (offline, at the workbench)"

/-- The grow of `run_flash`. -/
def growPhase (job : FlashJob) : Action World String String := do
  sh.send (.phase "Growing the last partition to fill the device")
  match ← attempt (sh.growLastPartition job.dev) with
  | .error e =>
      pure (" · WARNING: could not grow the partition (" ++ e ++ ") — the stick is valid but " ++
        "won't fill the whole device")
  | .ok partNum =>
      match job.storePass with
      | none =>
          pure (" · partition grown to fill the device; f2fs grow skipped (no store passphrase) — " ++
            "the stick boots, the extra space stays unused")
      | some secret => do
          sh.send (.phase "Growing the f2fs store inside the LUKS partition")
          match ← attempt (sh.growF2fsInLuks job.dev partNum secret) with
          | .ok () => pure grown
          | .error e =>
              pure (" · WARNING: partition grown, but the f2fs grow failed (" ++ e ++ ") — the " ++
                "stick is valid; the store just doesn't use the extra space yet")

end Shell

/-! ## Every grow comes to its end -/

/-- Each operation comes to its end. -/
structure Shell.Halting {World : Type} (sh : Shell World) : Prop where
  query : ∀ argv, Halts (sh.query argv)
  command : ∀ argv, Halts (sh.command argv)
  withInput : ∀ argv input, Halts (sh.withInput argv input)
  pathExists : ∀ path, Halts (sh.pathExists path)
  send : ∀ event, Halts (sh.send event)

namespace Shell.Halting

variable {World : Type} {sh : Shell World} (halting : sh.Halting)

include halting

theorem runSgdisk (dev : String) (args : List String) : Halts (sh.runSgdisk dev args) := by
  apply Halts.bind (halting.command _).mapError
  intro out
  exact Halts.ite (Halts.pure _) (Halts.fail _)

theorem growLastPartition (dev : String) : Halts (sh.growLastPartition dev) := by
  apply Halts.bind
  · apply Halts.bind (halting.query _).mapError
    intro out
    apply Halts.ite (Halts.fail _)
    cases (partitionNumbers out.stdout).max? with
    | some n => exact Halts.pure _
    | none => exact Halts.fail _
  intro n
  apply Halts.bind
  · apply Halts.bind (halting.query _).mapError
    intro out
    apply Halts.ite (Halts.fail _)
    cases parseInfo out.stdout with
    | ok info => exact Halts.pure _
    | error e => exact Halts.fail _
  intro info
  apply Halts.bind (halting.runSgdisk _ _)
  intro _
  apply Halts.bind (halting.runSgdisk _ _)
  intro _
  exact Halts.pure _

theorem awaitNode (part : String) (tries : Nat) : Halts (sh.awaitNode part tries) := by
  induction tries with
  | zero => exact Halts.pure _
  | succ tries ih =>
      apply Halts.bind (halting.pathExists _)
      intro present
      exact Halts.ite (Halts.pure _) ih

theorem partSize (part : String) : Halts (sh.partSize part) := by
  apply Halts.bind (halting.query _).attempt
  intro result
  cases result with
  | ok out => exact Halts.pure _
  | error e => exact Halts.pure _

theorem awaitSize (part : String) (tries : Nat) : ∀ last, Halts (sh.awaitSize part last tries) := by
  induction tries with
  | zero => exact fun _ => Halts.pure _
  | succ tries ih =>
      intro last
      apply Halts.bind (halting.partSize part)
      intro size
      exact Halts.ite (Halts.pure _) (ih size)

theorem growMapped (part secret : String) : Halts (sh.growMapped part secret) := by
  apply Halts.bind (halting.withInput _ _).mapError
  intro out
  apply Halts.ite (Halts.fail _)
  apply Halts.bind (halting.command _).mapError.attempt
  intro resize
  apply Halts.bind (halting.command _).attempt
  intro close
  apply Halts.bind (halting.command _).attempt
  intro _
  cases resize with
  | error e => exact Halts.fail _
  | ok out =>
      apply Halts.ite (Halts.fail _)
      cases close with
      | error e => exact Halts.fail _
      | ok last => exact Halts.ite (Halts.pure _) (Halts.fail _)

theorem growF2fsInLuks (dev : String) (partNum : Nat) (secret : String) :
    Halts (sh.growF2fsInLuks dev partNum secret) := by
  apply Halts.bind (halting.query _).attempt
  intro _
  apply Halts.bind (halting.awaitNode _ _)
  intro _
  apply Halts.bind (halting.pathExists _)
  intro present
  apply Halts.ite (Halts.fail _)
  apply Halts.bind (halting.awaitSize _ _ _)
  intro _
  exact halting.growMapped _ _

theorem growPhase (job : FlashJob) : Halts (sh.growPhase job) := by
  apply Halts.bind (halting.send _)
  intro _
  apply Halts.bind (halting.growLastPartition _).attempt
  intro result
  cases result with
  | error e => exact Halts.pure _
  | ok partNum =>
      dsimp only
      cases job.storePass with
      | none => exact Halts.pure _
      | some secret =>
          apply Halts.bind (halting.send _)
          intro _
          apply Halts.bind (halting.growF2fsInLuks _ _ _).attempt
          intro result
          cases result with
          | ok _ => exact Halts.pure _
          | error e => exact Halts.pure _

end Shell.Halting

/-! ## A whole flash run is one of them -/

def Shell.ofEnv (env : Env) (dev : String) : Shell (World FlashEvent) where
  query argv := runCaptured env argv readOnly
  command argv := runCaptured env argv (touching dev)
  withInput argv input := runWithInput env argv input (touching dev)
  pathExists _ := Flash.pathExists env
  send := Sudo.send

theorem Shell.awaitNode_ofEnv (env : Env) (dev part : String) (tries : Nat) :
    (Shell.ofEnv env dev).awaitNode part tries = Flash.awaitNode env tries := by
  induction tries with
  | zero => rfl
  | succ tries ih =>
      unfold Shell.awaitNode Flash.awaitNode
      rw [ih]
      rfl

theorem Shell.awaitSize_ofEnv (env : Env) (dev part : String) (tries : Nat) :
    ∀ last, (Shell.ofEnv env dev).awaitSize part last tries = Flash.awaitSize env part last tries := by
  induction tries with
  | zero =>
      intro last
      rfl
  | succ tries ih =>
      intro last
      unfold Shell.awaitSize Flash.awaitSize
      simp only [ih]
      rfl

theorem Shell.growF2fsInLuks_ofEnv (env : Env) (dev : String) (partNum : Nat) (secret : String) :
    (Shell.ofEnv env dev).growF2fsInLuks dev partNum secret =
      Flash.growF2fsInLuks env dev partNum secret := by
  unfold Shell.growF2fsInLuks Flash.growF2fsInLuks
  simp only [Shell.awaitNode_ofEnv, Shell.awaitSize_ofEnv]
  rfl

/-- The grow of a flash run is this one, run by the commands of that world. -/
theorem Shell.growPhase_ofEnv (env : Env) (job : FlashJob) :
    (Shell.ofEnv env job.dev).growPhase job = Flash.growPhase env job := by
  unfold Shell.growPhase Flash.growPhase
  simp only [Shell.growF2fsInLuks_ofEnv]
  rfl

/-! ## The kernel's time -/

/-- How the run of one command goes. -/
structure Course where
  spawn : Option IoError
  /-- The command has closed its input before it had all of it. -/
  feed : Option IoError
  out : Output
  wait : Option IoError

/-- The command ends with a success, and its end is seen. -/
def Course.Succeeds (course : Course) : Prop :=
  course.spawn = none ∧ course.out.success = true ∧ course.wait = none

instance (course : Course) : Decidable course.Succeeds := by
  unfold Course.Succeeds
  infer_instance

/-- What happens at each time. -/
structure Timeline where
  /-- Whether the partition has a node. -/
  node : Nat → Bool
  /-- How large the partition is to the kernel. -/
  size : Nat → Nat
  size_lt : ∀ n, size n < u64Bound
  course : Nat → Course

/-- What is done to the store. -/
inductive Deed where
  /-- `resize.f2fs` has run on the mapping, and may have been a success. -/
  | resized (mapping : Option Nat) (success : Bool)
  | closeFailed
  deriving DecidableEq, Repr

structure Bench where
  clock : Nat
  /-- The size of the temporary mapping, while it is there. -/
  mapping : Option Nat
  deeds : List Deed
  events : List FlashEvent

/-- What a command that has run leads to. -/
def Bench.ran (size : Nat) (argv : List String) (success : Bool) (w : Bench) : Bench :=
  if argv.take 2 = ["cryptsetup", "open"] then
    if success then { w with mapping := some size } else w
  else if argv.take 1 = ["resize.f2fs"] then { w with deeds := w.deeds ++ [.resized w.mapping success] }
  else if argv.take 2 = ["cryptsetup", "close"] then
    if success then { w with mapping := none } else { w with deeds := w.deeds ++ [.closeFailed] }
  else w

/-- A `cryptsetup close` that could not be run. -/
def Bench.notRun (argv : List String) (w : Bench) : Bench :=
  if argv.take 2 = ["cryptsetup", "close"] then { w with deeds := w.deeds ++ [.closeFailed] } else w

def Bench.tick (w : Bench) : Bench := { w with clock := w.clock + 1 }

/-- What a command prints: the size of the partition, if it is asked for that. -/
def Timeline.prints (t : Timeline) (argv : List String) (time : Nat) : Output :=
  let out := (t.course time).out
  if argv.take 2 = ["blockdev", "--getsize64"] then { out with stdout := toString (t.size time) }
  else out

def Timeline.run (t : Timeline) (argv : List String) (feeds : Bool) : Action Bench String Output :=
  perform fun w =>
    let course := t.course w.clock
    match course.spawn with
    | some e => (.error ("running " ++ unwords argv ++ ": " ++ e.text), (w.notRun argv).tick)
    | none =>
        match if feeds then course.feed else none with
        | some e => (.error ("feeding stdin of " ++ unwords argv ++ ": " ++ e.text), w.tick)
        | none =>
            let next := (w.ran (t.size w.clock) argv course.out.success).tick
            match course.wait with
            | some e => (.error ("waiting for " ++ unwords argv ++ ": " ++ e.text), next)
            | none => (.ok (t.prints argv w.clock), next)

/-- `Path::exists` of the node. -/
def Timeline.look (t : Timeline) : Action Bench String Bool :=
  perform fun w => (.ok (t.node w.clock), w.tick)

def Timeline.shell (t : Timeline) : Shell Bench where
  query argv := t.run argv false
  command argv := t.run argv false
  withInput argv _ := t.run argv true
  pathExists _ := t.look
  send event := modify fun w => { w with events := w.events ++ [event] }

/-! ## What is asked of the grow -/

/-- The grow is not reported unless the f2fs was resized on a mapping of the new size, and no
mapping is left unless its close has failed. -/
structure Bench.Careful (target : Nat) (reported : Bool) (w : Bench) : Prop where
  resized : reported = true → Deed.resized (some target) true ∈ w.deeds
  closed : w.mapping = none ∨ Deed.closeFailed ∈ w.deeds

/-! ## When it is given -/

/-- What the poll at a time answers. -/
def Timeline.answer (t : Timeline) (time : Nat) : Nat :=
  if (t.course time).Succeeds then t.size time else 0

/-- A poll that repeats the answer of the one before, where the first is at `first`. -/
def Timeline.Repeats (t : Timeline) (first time : Nat) : Prop :=
  first < time ∧ 0 < t.answer time ∧ t.answer time = t.answer (time - 1)

/-- Looking for something at each time from `first` on, up to `tries` times, is over
at `time`: it has just been found, or never was. -/
structure OverAt (found : Nat → Prop) (tries first time : Nat) : Prop where
  start : first ≤ time
  bound : time ≤ first + tries
  missed : ∀ n, first ≤ n → n + 1 < time → ¬ found n
  ends : time = first + tries ∨ first < time ∧ found (time - 1)

/-- The open at a time makes a mapping. -/
def Timeline.Maps (t : Timeline) (time : Nat) : Prop :=
  (t.course time).spawn = none ∧ (t.course time).feed = none ∧ (t.course time).out.success = true

/-- When the node is there, and the polls of its size are over, an open that makes
a mapping is seen to do so; and if the resize and the close are successes too, the
kernel had the new size at that moment. -/
def Timeline.Reread (t : Timeline) (target start : Nat) : Prop :=
  ∀ seen opened, OverAt (fun n => t.node n = true) 50 start seen → t.node seen = true →
    OverAt (t.Repeats (seen + 1)) 50 (seen + 1) opened → t.Maps opened →
      (t.course opened).wait = none ∧
        ((t.course (opened + 1)).Succeeds → (t.course (opened + 2)).Succeeds → t.size opened = target)

/-! ## What each command leads to -/

section Commands

variable {t : Timeline} {target c : Nat}

/-- The bench after a command that is fed nothing. -/
def Timeline.left (t : Timeline) (argv : List String) (w : Bench) : Bench :=
  match (t.course w.clock).spawn with
  | some _ => (w.notRun argv).tick
  | none => (w.ran (t.size w.clock) argv (t.course w.clock).out.success).tick

/-- A command that is fed nothing answers a success when it is one. -/
theorem run_spec (argv : List String) (w : Bench) :
    Spec (· = w) (t.run argv false)
      (.onReturn
        (fun out after => after = t.left argv w ∧ out = t.prints argv w.clock ∧
          (out.success = true ↔ (t.course w.clock).Succeeds))
        fun _ after => after = t.left argv w ∧ ¬ (t.course w.clock).Succeeds) := by
  unfold Timeline.run
  apply Spec.answered fun _ _ => trivial
  intro world isWorld
  subst isWorld
  dsimp only
  cases spawned : (t.course world.clock).spawn with
  | some e =>
      refine ⟨?_, fun succeeds => ?_⟩
      · simp only [Timeline.left, spawned]
      · rw [Course.Succeeds, spawned] at succeeds
        cases succeeds.1
  | none =>
      cases waited : (t.course world.clock).wait with
      | some e =>
          refine ⟨?_, fun succeeds => ?_⟩
          · simp only [Timeline.left, spawned]
          · rw [Course.Succeeds, waited] at succeeds
            cases succeeds.2.2
      | none =>
          refine ⟨?_, rfl, ?_⟩
          · simp only [Timeline.left, spawned]
          · unfold Course.Succeeds Timeline.prints
            rw [spawned, waited]
            split <;> simp

/-- A command that does nothing to the store. -/
def Plain (argv : List String) : Prop :=
  argv.take 2 ≠ ["cryptsetup", "open"] ∧ argv.take 1 ≠ ["resize.f2fs"] ∧
    argv.take 2 ≠ ["cryptsetup", "close"]

theorem left_plain {argv : List String} (plain : Plain argv) (w : Bench) :
    t.left argv w = w.tick := by
  obtain ⟨notOpen, notResize, notClose⟩ := plain
  unfold Timeline.left
  cases (t.course w.clock).spawn with
  | some e =>
      dsimp only
      rw [Bench.notRun, if_neg notClose]
  | none =>
      dsimp only
      rw [Bench.ran, if_neg notOpen, if_neg notResize, if_neg notClose]

theorem plain_of_head {first : String} (notCryptsetup : first ≠ "cryptsetup")
    (notResize : first ≠ "resize.f2fs") (rest : List String) : Plain (first :: rest) :=
  ⟨fun same => notCryptsetup (List.cons.inj same).1, fun same => notResize (List.cons.inj same).1,
    fun same => notCryptsetup (List.cons.inj same).1⟩

theorem plain_blockdev (first part : String) : Plain ["blockdev", first, part] :=
  plain_of_head (by decide) (by decide) _

/-- Nothing has been done to the store yet. -/
structure Bench.At (c : Nat) (w : Bench) : Prop where
  clock : w.clock = c
  mapping : w.mapping = none
  deeds : w.deeds = []

theorem Bench.At.tick {w : Bench} (idle : w.At c) : w.tick.At (c + 1) :=
  ⟨congrArg (· + 1) idle.clock, idle.mapping, idle.deeds⟩

/-! ## The two waits -/

theorem partSize_spec (part : String) :
    Spec (Bench.At c) (t.shell.partSize part)
      (.onReturn (fun size w => size = t.answer c ∧ w.At (c + 1)) fun _ _ => False) := by
  apply Spec.pointwise
  intro w idle
  have plain : Plain ["blockdev", "--getsize64", part] := plain_blockdev _ _
  have ran := run_spec (t := t) ["blockdev", "--getsize64", part] w
  apply Spec.bind fun
    | .ok out => fun after => after.At (c + 1) ∧ (out.success = true ↔ (t.course c).Succeeds) ∧
        out.stdout = toString (t.size c)
    | .error _ => fun after => after.At (c + 1) ∧ ¬ (t.course c).Succeeds
  · apply Spec.attempt
    refine ran.weaken (fun _ holds => holds) ?_ ?_ fun _ _ => trivial
    · intro out after done
      obtain ⟨isAfter, isOut, success⟩ := done
      rw [idle.clock] at isOut success
      refine ⟨?_, success, ?_⟩
      · rw [isAfter, left_plain plain]
        exact idle.tick
      · rw [isOut]
        rfl
    · intro e after done
      obtain ⟨isAfter, failed⟩ := done
      rw [idle.clock] at failed
      refine ⟨?_, failed⟩
      rw [isAfter, left_plain plain]
      exact idle.tick
  · intro result
    cases result with
    | error e =>
        apply Spec.pure
        intro after done
        exact ⟨(if_neg done.2).symm, done.1⟩
    | ok out =>
        apply Spec.pure
        intro after done
        obtain ⟨still, success, printed⟩ := done
        refine ⟨?_, still⟩
        unfold Timeline.answer
        by_cases succeeds : (t.course c).Succeeds
        · rw [if_pos (success.mpr succeeds), if_pos succeeds, printed]
          have spaceless : trim (toString (t.size c)) = toString (t.size c) :=
            trim_of_ends (fun ch mem => toString_noSpace _ ch (List.mem_of_mem_head? mem))
              fun ch mem => toString_noSpace _ ch (List.mem_of_mem_getLast? mem)
          rw [spaceless, parseU64_toString (t.size_lt c)]
          rfl
        · rw [if_neg fun isSuccess => succeeds (success.mp isSuccess), if_neg succeeds]

/-- Nothing left to look for. -/
theorem OverAt.none (found : Nat → Prop) (first : Nat) : OverAt found 0 first first :=
  ⟨Nat.le_refl _, Nat.le_refl _, fun _ _ _ => by omega, .inl rfl⟩

theorem OverAt.found {found : Nat → Prop} {tries first : Nat} (now : found first) :
    OverAt found (tries + 1) first (first + 1) :=
  ⟨by omega, by omega, fun _ _ _ => by omega, .inr ⟨by omega, now⟩⟩

theorem OverAt.later {found : Nat → Prop} {tries first time : Nat} (notNow : ¬ found first)
    (ending : OverAt found tries (first + 1) time) : OverAt found (tries + 1) first time := by
  obtain ⟨start, bound, missed, ends⟩ := ending
  refine ⟨by omega, by omega, ?_, ?_⟩
  · intro n after before
    by_cases isFirst : n = first
    · rw [isFirst]
      exact notNow
    · exact missed n (by omega) before
  · rcases ends with last | ⟨more, now⟩
    · exact .inl (by omega)
    · exact .inr ⟨by omega, now⟩

/-- The wait is over at one time only. -/
theorem OverAt.unique {found : Nat → Prop} {tries first time time' : Nat}
    (one : OverAt found tries first time) (other : OverAt found tries first time') :
    time = time' := by
  have bound := one.bound
  have bound' := other.bound
  rcases Nat.lt_trichotomy time time' with less | same | more
  · rcases one.ends with last | ⟨some, now⟩
    · omega
    · exact absurd now (other.missed (time - 1) (by omega) (by omega))
  · exact same
  · rcases other.ends with last | ⟨some, now⟩
    · omega
    · exact absurd now (one.missed (time' - 1) (by omega) (by omega))

theorem look_spec :
    Spec (Bench.At c) t.look
      (.onReturn (fun present w => present = t.node c ∧ w.At (c + 1)) fun _ _ => False) := by
  unfold Timeline.look
  apply Spec.answered fun _ _ => trivial
  intro w idle
  exact ⟨congrArg t.node idle.clock, idle.tick⟩

theorem awaitNode_spec (part : String) (tries : Nat) : ∀ c,
    Spec (Bench.At c) (t.shell.awaitNode part tries)
      (.onReturn (fun _ w => ∃ seen, OverAt (fun n => t.node n = true) tries c seen ∧ w.At seen)
        fun _ _ => False) := by
  induction tries with
  | zero =>
      intro c
      exact Spec.pure fun w idle => ⟨c, OverAt.none _ c, idle⟩
  | succ tries ih =>
      intro c
      apply Spec.bind _ look_spec
      intro present
      apply Spec.assume
      intro isPresent
      subst isPresent
      by_cases now : t.node c = true
      · rw [if_pos now]
        exact Spec.pure fun w idle => ⟨c + 1, OverAt.found now, idle⟩
      · rw [if_neg now]
        refine (ih (c + 1)).weaken (fun _ holds => holds) ?_ (fun _ _ never => never) fun _ _ => trivial
        intro _ w ended
        obtain ⟨seen, ending, idle⟩ := ended
        exact ⟨seen, ending.later now, idle⟩

/-- What the polls from `first` on compare the answer at `c` with. -/
def Timeline.before (t : Timeline) (first c : Nat) : Nat := if first < c then t.answer (c - 1) else 0

theorem repeats_iff (first c : Nat) :
    (0 < t.answer c ∧ t.answer c = t.before first c) ↔ t.Repeats first c := by
  unfold Timeline.before Timeline.Repeats
  by_cases later : first < c
  · rw [if_pos later]
    exact ⟨fun same => ⟨later, same⟩, fun same => same.2⟩
  · rw [if_neg later]
    exact ⟨fun same => by omega, fun same => absurd same.1 later⟩

theorem awaitSize_spec (part : String) (first tries : Nat) : ∀ c, first ≤ c →
    Spec (Bench.At c) (t.shell.awaitSize part (t.before first c) tries)
      (.onReturn (fun _ w => ∃ opened, OverAt (t.Repeats first) tries c opened ∧ w.At opened)
        fun _ _ => False) := by
  induction tries with
  | zero =>
      intro c _
      exact Spec.pure fun w idle => ⟨c, OverAt.none _ c, idle⟩
  | succ tries ih =>
      intro c later
      apply Spec.bind _ (partSize_spec part)
      intro size
      apply Spec.assume
      intro isSize
      subst isSize
      by_cases now : t.Repeats first c
      · rw [if_pos ((repeats_iff first c).mpr now)]
        exact Spec.pure fun w idle => ⟨c + 1, OverAt.found now, idle⟩
      · rw [if_neg fun same => now ((repeats_iff first c).mp same)]
        have next : t.before first (c + 1) = t.answer c := if_pos (by omega)
        rw [← next]
        refine (ih (c + 1) (by omega)).weaken (fun _ holds => holds) ?_ (fun _ _ never => never)
          fun _ _ => trivial
        intro _ w ended
        obtain ⟨opened, ending, idle⟩ := ended
        exact ⟨opened, ending.later now, idle⟩

/-! ## From the open on -/

/-- What `Reread` asks of the time of the open. -/
def Timeline.OpensWell (t : Timeline) (target opened : Nat) : Prop :=
  t.Maps opened → (t.course opened).wait = none ∧
    ((t.course (opened + 1)).Succeeds → (t.course (opened + 2)).Succeeds → t.size opened = target)

/-- What the grow comes to when it was careful just when `good` holds. -/
def carefulIff (target : Nat) (good : Prop) : Post Bench String Unit :=
  .onReturn (fun _ w => w.Careful target true ↔ good) fun _ w => w.Careful target false ↔ good

/-- A failure that leaves nothing open. -/
theorem careful_idle {w : Bench} {good : Prop} (idle : w.At c) (holds : good) :
    w.Careful target false ↔ good :=
  ⟨fun _ => holds, fun _ => ⟨Bool.noConfusion, .inl idle.mapping⟩⟩

/-- The mapping has just been made. -/
structure Bench.Mapped (size c : Nat) (w : Bench) : Prop where
  clock : w.clock = c
  mapping : w.mapping = some size
  deeds : w.deeds = []

/-- The resize is over. -/
structure Bench.Resized (t : Timeline) (size c : Nat) (w : Bench) : Prop where
  clock : w.clock = c + 1
  mapping : w.mapping = some size
  deeds : (t.course c).Succeeds → w.deeds = [.resized (some size) true]

/-- The close is over too. -/
structure Bench.Released (t : Timeline) (size c : Nat) (w : Bench) : Prop where
  released : w.mapping = none ∨ .closeFailed ∈ w.deeds
  deeds : (t.course c).Succeeds → (t.course (c + 1)).Succeeds → w.deeds = [.resized (some size) true]

theorem Bench.Released.tick {size : Nat} {w : Bench} (ending : w.Released t size c) :
    w.tick.Released t size c :=
  ⟨ending.released, ending.deeds⟩

theorem Bench.Mapped.resize {size : Nat} {w : Bench} (mapped : w.Mapped size c) (path : String) :
    (t.left ["resize.f2fs", path] w).Resized t size c := by
  obtain ⟨clock, mapping, deeds⟩ := mapped
  unfold Timeline.left
  rw [clock]
  cases spawned : (t.course c).spawn with
  | some e =>
      refine ⟨congrArg (· + 1) clock, mapping, ?_⟩
      intro succeeds
      rw [Course.Succeeds, spawned] at succeeds
      cases succeeds.1
  | none =>
      refine ⟨congrArg (· + 1) clock, mapping, ?_⟩
      intro succeeds
      change w.deeds ++ [.resized w.mapping (t.course c).out.success] = _
      rw [deeds, mapping, succeeds.2.1]
      rfl

theorem Bench.Resized.close {size : Nat} {w : Bench} (resized : w.Resized t size c) :
    (t.left ["cryptsetup", "close", growMapper] w).Released t size c := by
  obtain ⟨clock, mapping, deeds⟩ := resized
  unfold Timeline.left
  rw [clock]
  have added (w' : Bench) : Deed.closeFailed ∈ w'.deeds ++ [.closeFailed] :=
    List.mem_append_right _ List.mem_cons_self
  cases spawned : (t.course (c + 1)).spawn with
  | some e =>
      refine ⟨.inr (added w), ?_⟩
      intro _ succeeds
      rw [Course.Succeeds, spawned] at succeeds
      cases succeeds.1
  | none =>
      cases success : (t.course (c + 1)).out.success with
      | true => exact ⟨.inl rfl, fun resized _ => deeds resized⟩
      | false =>
          refine ⟨.inr (added w), ?_⟩
          intro _ succeeds
          rw [Course.Succeeds, success] at succeeds
          cases succeeds.2.1

theorem ran_open (size : Nat) (part : String) (success : Bool) (w : Bench) :
    w.ran size ["cryptsetup", "open", "--key-file=-", part, growMapper] success =
      if success then { w with mapping := some size } else w :=
  if_pos rfl

/-- The open of the store: it makes a mapping, or leaves everything as it is. -/
theorem open_spec (part secret : String) :
    Spec (Bench.At c)
      (t.shell.withInput ["cryptsetup", "open", "--key-file=-", part, growMapper] (asBytes secret))
      (.onReturn
        (fun out w => (t.course c).wait = none ∧
          if out.success = true then t.Maps c ∧ w.Mapped (t.size c) (c + 1)
          else ¬ t.Maps c ∧ w.At (c + 1))
        fun _ w => w.Careful target false ↔ t.OpensWell target c) := by
  unfold Timeline.shell Timeline.run
  apply Spec.answered fun _ _ => trivial
  intro w idle
  dsimp only
  rw [idle.clock]
  cases spawned : (t.course c).spawn with
  | some e =>
      refine careful_idle (c := c + 1) idle.tick fun maps => ?_
      rw [Timeline.Maps, spawned] at maps
      cases maps.1
  | none =>
      rw [if_pos rfl]
      cases fed : (t.course c).feed with
      | some e =>
          refine careful_idle (c := c + 1) idle.tick fun maps => ?_
          rw [Timeline.Maps, fed] at maps
          cases maps.2.1
      | none =>
          dsimp only
          rw [ran_open]
          cases success : (t.course c).out.success with
          | false =>
              have unmapped : ¬ t.Maps c := fun maps => by
                rw [Timeline.Maps, success] at maps
                cases maps.2.2
              cases waited : (t.course c).wait with
              | some e => exact careful_idle (c := c + 1) idle.tick fun maps => absurd maps unmapped
              | none =>
                  refine ⟨rfl, ?_⟩
                  change if (t.course c).out.success = true then _ else _
                  rw [success]
                  exact ⟨unmapped, idle.tick⟩
          | true =>
              have maps : t.Maps c := ⟨spawned, fed, success⟩
              cases waited : (t.course c).wait with
              | some e =>
                  constructor
                  · intro careful
                    rcases careful.closed with gone | failed
                    · cases gone
                    · change Deed.closeFailed ∈ w.deeds at failed
                      rw [idle.deeds] at failed
                      cases failed
                  · intro well
                    have seen := (well maps).1
                    rw [waited] at seen
                    cases seen
              | none =>
                  refine ⟨rfl, ?_⟩
                  change if (t.course c).out.success = true then _ else _
                  rw [success]
                  exact ⟨maps, congrArg (· + 1) idle.clock, rfl, idle.deeds⟩

/-- The grow has failed after the store was opened and released. -/
theorem careful_failed {size : Nat} {w : Bench} (released : w.Released t size (c + 1))
    (waited : (t.course c).wait = none)
    (failed : ¬ ((t.course (c + 1)).Succeeds ∧ (t.course (c + 2)).Succeeds)) :
    w.Careful target false ↔ t.OpensWell target c :=
  ⟨fun _ _ => ⟨waited, fun resized closed => absurd ⟨resized, closed⟩ failed⟩,
    fun _ => ⟨Bool.noConfusion, released.released⟩⟩

/-- It has come through: it was careful when the mapping had the new size. -/
theorem careful_grown {w : Bench} (released : w.Released t (t.size c) (c + 1))
    (waited : (t.course c).wait = none) (maps : t.Maps c)
    (resized : (t.course (c + 1)).Succeeds) (closed : (t.course (c + 2)).Succeeds) :
    w.Careful target true ↔ t.OpensWell target c := by
  constructor
  · intro careful _
    refine ⟨waited, fun _ _ => ?_⟩
    have done := careful.resized rfl
    rw [released.deeds resized closed] at done
    cases List.mem_singleton.mp done
    rfl
  · intro well
    refine ⟨fun _ => ?_, released.released⟩
    rw [released.deeds resized closed, ← (well maps).2 resized closed]
    exact List.mem_singleton_self _

/-- The answer to a command was a success. -/
def answered : Except String Output → Bool
  | .ok out => out.success
  | .error _ => false

/-- The bench after a command, and whether it was a success. -/
def afterCommand (t : Timeline) (c : Nat) (after : Bench → Prop) : Post Bench String Output :=
  .onReturn (fun out w => after w ∧ (out.success = true ↔ (t.course c).Succeeds))
    fun _ w => after w ∧ ¬ (t.course c).Succeeds

/-- A command at a known time. -/
theorem command_spec {before after : Bench → Prop} (argv : List String)
    (leads : ∀ w, before w → w.clock = c ∧ after (t.left argv w)) :
    Spec before (t.run argv false) (afterCommand t c after) := by
  apply Spec.pointwise
  intro w holds
  obtain ⟨clock, met⟩ := leads w holds
  refine (run_spec argv w).weaken (fun _ isWorld => isWorld) ?_ ?_ fun _ _ => trivial
  · intro out next done
    rw [clock] at done
    rw [done.1]
    exact ⟨met, done.2.2⟩
  · intro e next done
    rw [clock] at done
    rw [done.1]
    exact ⟨met, done.2⟩

theorem attempt_command {before after : Bench → Prop} {action : Action Bench String Output}
    (spec : Spec before action (afterCommand t c after)) :
    Spec before (attempt action)
      (.onReturn (fun result w => after w ∧ (answered result = true ↔ (t.course c).Succeeds))
        fun _ _ => False) := by
  apply Spec.attempt
  refine spec.weaken (fun _ holds => holds) (fun _ _ holds => holds) ?_ fun _ _ => trivial
  intro e w failed
  exact ⟨failed.1, fun impossible => Bool.noConfusion impossible, fun succeeds => absurd succeeds failed.2⟩

/-- A command that only takes its time, and whose failure is passed over. -/
theorem attempt_plain {argv : List String} {before after : Bench → Prop} (plain : Plain argv)
    (ticks : ∀ w, before w → after w.tick) :
    Spec before (attempt (t.run argv false)) (.onReturn (fun _ => after) fun _ _ => False) := by
  apply Spec.attempt
  apply Spec.pointwise
  intro w holds
  refine (run_spec argv w).weaken (fun _ isWorld => isWorld) ?_ ?_ fun _ _ => trivial
  · intro out next done
    rw [done.1, left_plain plain]
    exact ticks w holds
  · intro e next done
    rw [done.1, left_plain plain]
    exact ticks w holds

theorem conclude_ok {resize close : Except String Output} (path : String)
    (resized : answered resize = true) (closed : answered close = true) :
    (Shell.conclude path resize close : Action Bench String Unit) = pure () := by
  cases resize with
  | error e => cases resized
  | ok out =>
      cases close with
      | error e => cases closed
      | ok last =>
          change out.success = true at resized
          change last.success = true at closed
          unfold Shell.conclude
          dsimp only
          rw [resized, if_neg (by decide), if_pos closed]

theorem conclude_fails {resize close : Except String Output} (path : String)
    (failed : ¬ (answered resize = true ∧ answered close = true)) :
    ∃ e, (Shell.conclude path resize close : Action Bench String Unit) = fail e := by
  cases resize with
  | error e => exact ⟨e, rfl⟩
  | ok out =>
      unfold Shell.conclude
      dsimp only
      by_cases resized : out.success = true
      · rw [resized, if_neg (by decide)]
        cases close with
        | error e => exact ⟨e, rfl⟩
        | ok last =>
            dsimp only
            have unclosed : ¬ last.success = true := fun closed => failed ⟨resized, closed⟩
            rw [if_neg unclosed]
            exact ⟨_, rfl⟩
      · rw [if_pos (by simpa using resized)]
        exact ⟨_, rfl⟩

theorem growMapped_spec (part secret : String) :
    Spec (Bench.At c) (t.shell.growMapped part secret) (carefulIff target (t.OpensWell target c)) := by
  unfold Shell.growMapped
  dsimp only
  apply Spec.bind _ (Spec.mapError (open_spec part secret))
  intro out
  by_cases success : out.success = true
  · simp only [success, Bool.not_true, Bool.false_eq_true, if_false, if_true]
    apply Spec.assume
    intro waited
    apply Spec.assume
    intro maps
    apply Spec.bind fun resize w => w.Resized t (t.size c) (c + 1) ∧
      (answered resize = true ↔ (t.course (c + 1)).Succeeds)
    · exact (attempt_command (Spec.mapError (command_spec _ fun w (mapped : w.Mapped _ _) =>
        ⟨mapped.clock, mapped.resize _⟩))).unfailing
    intro resize
    apply Spec.bind fun close w => (w.Released t (t.size c) (c + 1) ∧
        (answered resize = true ↔ (t.course (c + 1)).Succeeds)) ∧
      (answered close = true ↔ (t.course (c + 2)).Succeeds)
    · exact (attempt_command (command_spec _ fun w (resized : w.Resized _ _ _ ∧ _) =>
        ⟨resized.1.clock, resized.1.close, resized.2⟩)).unfailing
    intro close
    apply Spec.bind fun _ w => (w.Released t (t.size c) (c + 1) ∧
        (answered resize = true ↔ (t.course (c + 1)).Succeeds)) ∧
      (answered close = true ↔ (t.course (c + 2)).Succeeds)
    · exact (attempt_plain (plain_of_head (by decide) (by decide) []) fun w done =>
        ⟨⟨done.1.1.tick, done.1.2⟩, done.2⟩).unfailing
    intro _
    by_cases both : answered resize = true ∧ answered close = true
    · rw [conclude_ok _ both.1 both.2]
      apply Spec.pure
      intro w done
      obtain ⟨⟨released, resized⟩, closed⟩ := done
      exact careful_grown released waited maps (resized.mp both.1) (closed.mp both.2)
    · obtain ⟨e, fails⟩ := conclude_fails ("/dev/mapper/" ++ growMapper) both
      rw [fails]
      apply Spec.fail
      intro w done
      obtain ⟨⟨released, resized⟩, closed⟩ := done
      exact careful_failed released waited fun succeeds =>
        both ⟨resized.mpr succeeds.1, closed.mpr succeeds.2⟩
  · simp only [success, Bool.not_false, if_true]
    apply Spec.fail
    intro w done
    rw [if_neg Bool.false_ne_true] at done
    exact careful_idle done.2.2 fun maps => absurd maps done.2.1

/-! ## The whole grow -/

/-- The open well done at the time that the waits lead to is all that is asked. -/
theorem opensWell_iff {first seen opened : Nat} (looked : OverAt (fun n => t.node n = true) 50 first seen)
    (present : t.node seen = true) (polled : OverAt (t.Repeats (seen + 1)) 50 (seen + 1) opened) :
    t.OpensWell target opened ↔ t.Reread target first := by
  constructor
  · intro well seen' opened' looked' _ polled' maps
    have sameSeen := looked.unique looked'
    subst sameSeen
    have sameOpened := polled.unique polled'
    subst sameOpened
    exact well maps
  · exact fun reread maps => reread seen opened looked present polled maps

theorem growF2fsInLuks_spec (dev : String) (partNum : Nat) (secret : String) :
    Spec (Bench.At c) (t.shell.growF2fsInLuks dev partNum secret)
      (carefulIff target (t.Reread target (c + 1))) := by
  unfold Shell.growF2fsInLuks
  dsimp only
  apply Spec.bind fun _ => Bench.At (c + 1)
  · exact (attempt_plain (plain_blockdev _ _) fun w (idle : w.At c) => idle.tick).unfailing
  intro _
  apply Spec.bind _ (awaitNode_spec _ 50 (c + 1)).unfailing
  intro _ world fuel ended
  obtain ⟨seen, looked, idle⟩ := ended
  have rest : Spec (Bench.At seen)
      (t.shell.pathExists (partitionPath dev partNum) >>= fun present =>
        if !present then
          fail ("partition node " ++ partitionPath dev partNum ++
            " did not appear after the partition grow")
        else do
          t.shell.awaitSize (partitionPath dev partNum) 0 50
          t.shell.growMapped (partitionPath dev partNum) secret)
      (carefulIff target (t.Reread target (c + 1))) := by
    apply Spec.bind _ look_spec.unfailing
    intro present
    apply Spec.assume
    intro isPresent
    subst isPresent
    by_cases present : t.node seen = true
    · rw [if_neg (by simp [present])]
      have unpolled : t.before (seen + 1) (seen + 1) = 0 := if_neg (Nat.lt_irrefl _)
      rw [← unpolled]
      apply Spec.bind _ (awaitSize_spec _ (seen + 1) 50 (seen + 1) (Nat.le_refl _)).unfailing
      intro _ world fuel ended
      obtain ⟨opened, polled, idle⟩ := ended
      have good : t.OpensWell target opened ↔ _ := opensWell_iff looked present polled
      exact (growMapped_spec _ secret).weaken (fun _ holds => holds) (fun _ _ done => done.trans good)
        (fun _ _ done => done.trans good) (fun _ _ => trivial) world fuel idle
    · rw [if_pos (by simpa using present)]
      apply Spec.fail
      intro w idle
      refine careful_idle idle fun seen' opened looked' present' _ _ => ?_
      rw [← looked.unique looked'] at present'
      exact absurd present' present
  exact rest world fuel idle

/-! ## The partition is grown first -/

/-- The four commands of `grow_last_partition` are successes, and what they print is
understood. -/
structure Timeline.GrowsLast (t : Timeline) (start : Nat) : Prop where
  listed : (t.course start).Succeeds
  numbered : (partitionNumbers (t.course start).out.stdout).max?.isSome = true
  shown : (t.course (start + 1)).Succeeds
  parsed : (parseInfo (t.course (start + 1)).out.stdout).isOk = true
  moved : (t.course (start + 2)).Succeeds
  recreated : (t.course (start + 3)).Succeeds

/-- What a command of `sgdisk` answers, at a known time. -/
theorem sgdisk_spec (args : List String) :
    Spec (Bench.At c) (t.run ("sgdisk" :: args) false)
      (.onReturn
        (fun out w => ((out.success = true ↔ (t.course c).Succeeds) ∧
          out.stdout = (t.course c).out.stdout) ∧ w.At (c + 1))
        fun _ w => ¬ (t.course c).Succeeds ∧ w.At (c + 1)) := by
  have plain : Plain ("sgdisk" :: args) := plain_of_head (by decide) (by decide) args
  apply Spec.pointwise
  intro w idle
  refine (run_spec _ w).weaken (fun _ isWorld => isWorld) ?_ ?_ fun _ _ => trivial
  · intro out after done
    obtain ⟨isAfter, isOut, success⟩ := done
    rw [idle.clock] at isOut success
    refine ⟨⟨success, ?_⟩, ?_⟩
    · have other : ("sgdisk" :: args).take 2 ≠ ["blockdev", "--getsize64"] :=
        fun same => absurd (List.cons.inj same).1 (by decide)
      rw [isOut, Timeline.prints, if_neg other]
    · rw [isAfter, left_plain plain]
      exact idle.tick
  · intro e after done
    obtain ⟨isAfter, failed⟩ := done
    rw [idle.clock] at failed
    refine ⟨failed, ?_⟩
    rw [isAfter, left_plain plain]
    exact idle.tick

/-- One command of `grow_last_partition`: it goes on when its part of the work is done. -/
def afterPart {α : Type} (c : Nat) (done : Prop) : Post Bench String α :=
  .onReturn (fun _ w => done ∧ w.At (c + 1)) fun _ w => ¬ done ∧ w.At (c + 1)

/-- A command whose output is read. -/
theorem sgdisk_reads {α : Type} {f : String → String} {args : List String}
    {rest : Output → Action Bench String α} (parsed : String → Prop)
    (each : ∀ out, Spec (Bench.At (c + 1)) (rest out)
      (.onReturn (fun _ w => (out.success = true ∧ parsed out.stdout) ∧ w.At (c + 1))
        fun _ w => ¬ (out.success = true ∧ parsed out.stdout) ∧ w.At (c + 1))) :
    Spec (Bench.At c) (mapError f (t.run ("sgdisk" :: args) false) >>= rest)
      (afterPart c ((t.course c).Succeeds ∧ parsed (t.course c).out.stdout)) := by
  apply Spec.bind _
  · apply Spec.mapError
    refine (sgdisk_spec args).weaken (fun _ holds => holds) (fun _ _ holds => holds) ?_
      fun _ _ => trivial
    exact fun _ w failed => ⟨fun done => failed.1 done.1, failed.2⟩
  · intro out
    apply Spec.assume
    intro answers
    obtain ⟨success, printed⟩ := answers
    rw [← printed, ← success]
    exact each out

theorem lastPartitionNumber_spec (dev : String) :
    Spec (Bench.At c) (t.shell.lastPartitionNumber dev)
      (afterPart c ((t.course c).Succeeds ∧
        (partitionNumbers (t.course c).out.stdout).max?.isSome = true)) := by
  apply sgdisk_reads fun stdout => (partitionNumbers stdout).max?.isSome = true
  intro out
  by_cases isSuccess : out.success = true
  · rw [if_neg (by simp [isSuccess])]
    cases (partitionNumbers out.stdout).max? with
    | some n => exact Spec.pure fun w idle => ⟨⟨isSuccess, rfl⟩, idle⟩
    | none => exact Spec.fail fun w idle => ⟨fun done => Bool.noConfusion done.2, idle⟩
  · rw [if_pos (by simpa using isSuccess)]
    exact Spec.fail fun w idle => ⟨fun done => isSuccess done.1, idle⟩

theorem partitionInfo_spec (dev : String) (n : Nat) :
    Spec (Bench.At c) (t.shell.partitionInfo dev n)
      (afterPart c ((t.course c).Succeeds ∧ (parseInfo (t.course c).out.stdout).isOk = true)) := by
  apply sgdisk_reads fun stdout => (parseInfo stdout).isOk = true
  intro out
  by_cases isSuccess : out.success = true
  · rw [if_neg (by simp [isSuccess])]
    cases parseInfo out.stdout with
    | ok info => exact Spec.pure fun w idle => ⟨⟨isSuccess, rfl⟩, idle⟩
    | error e => exact Spec.fail fun w idle => ⟨fun done => Bool.noConfusion done.2, idle⟩
  · rw [if_pos (by simpa using isSuccess)]
    exact Spec.fail fun w idle => ⟨fun done => isSuccess done.1, idle⟩

theorem runSgdisk_spec (dev : String) (args : List String) :
    Spec (Bench.At c) (t.shell.runSgdisk dev args) (afterPart c (t.course c).Succeeds) := by
  apply Spec.bind _
  · exact Spec.mapError (sgdisk_spec (args ++ [dev]))
  · intro out
    apply Spec.assume
    intro answers
    rw [← answers.1]
    by_cases isSuccess : out.success = true
    · rw [if_pos isSuccess]
      exact Spec.pure fun w idle => ⟨isSuccess, idle⟩
    · rw [if_neg isSuccess]
      exact Spec.fail fun w idle => ⟨isSuccess, idle⟩

/-- Whether the partition is grown, which leaves the store alone. -/
def afterLast (t : Timeline) (c : Nat) : Post Bench String Nat :=
  .onReturn (fun _ w => t.GrowsLast c ∧ w.At (c + 4)) fun _ w => ¬ t.GrowsLast c ∧ ∃ c', w.At c'

/-- A part of the work that was not done. -/
theorem afterPart_fails {α : Type} {action : Action Bench String α} {done : Prop} {c' : Nat}
    (needs : t.GrowsLast c → done) (spec : Spec (Bench.At c') action (afterPart c' done)) :
    Spec (Bench.At c') action
      ⟨fun _ w => done ∧ w.At (c' + 1), (afterLast t c).error, (afterLast t c).stopped⟩ :=
  spec.weaken (fun _ holds => holds) (fun _ _ holds => holds)
    (fun _ _ failed => ⟨fun grows => failed.1 (needs grows), _, failed.2⟩) fun _ _ => trivial

theorem growLastPartition_spec (dev : String) :
    Spec (Bench.At c) (t.shell.growLastPartition dev) (afterLast t c) := by
  refine Spec.bind _ (afterPart_fails (fun grows => ⟨grows.listed, grows.numbered⟩)
    (lastPartitionNumber_spec dev)) ?_
  intro n
  apply Spec.assume
  intro listed
  refine Spec.bind _ (afterPart_fails (fun grows => ⟨grows.shown, grows.parsed⟩)
    (partitionInfo_spec dev n)) ?_
  intro info
  apply Spec.assume
  intro shown
  refine Spec.bind _ (afterPart_fails Timeline.GrowsLast.moved (runSgdisk_spec dev _)) ?_
  intro _
  apply Spec.assume
  intro moved
  refine Spec.bind _ (afterPart_fails Timeline.GrowsLast.recreated (runSgdisk_spec dev _)) ?_
  intro _
  apply Spec.assume
  intro recreated
  exact Spec.pure fun w idle =>
    ⟨⟨listed.1, listed.2, shown.1, shown.2, moved, recreated⟩, idle⟩

/-! ## The report of the run -/

/-- A note that starts otherwise than the report of a grown store. -/
theorem note_ne_grown {note : String} (differs : differ note.toList Shell.grown.toList = true)
    (rest : String) : note ++ rest ≠ Shell.grown := by
  intro same
  have whole : note.toList ++ rest.toList = Shell.grown.toList := by rw [← same, String.toList_append]
  exact not_prefix_of_differ differs rest.toList ⟨[], by rw [List.append_nil, whole]⟩

theorem send_spec {fact : Bench → Prop} (event : FlashEvent)
    (keeps : ∀ w, fact w → fact { w with events := w.events ++ [event] }) :
    Spec fact (t.shell.send event) (.onReturn (fun _ => fact) fun _ _ => False) :=
  Spec.modify keeps

/-- What `Reread` asks of a job: only a job with a passphrase grows the store, after
its partition. -/
def Timeline.RereadFor (t : Timeline) (target start : Nat) (job : FlashJob) : Prop :=
  job.storePass.isSome = true → t.GrowsLast start → t.Reread target (start + 5)

def reportIff (target : Nat) (good : Prop) : Post Bench String String :=
  .onReturn (fun note w => w.Careful target (decide (note = Shell.grown)) ↔ good) fun _ _ => False

/-- A note that reports no grown store. -/
theorem report_none {note : String} {w : Bench} {good : Prop} (other : note ≠ Shell.grown)
    (idle : w.At c) (holds : good) :
    w.Careful target (decide (note = Shell.grown)) ↔ good := by
  rw [decide_eq_false other]
  exact careful_idle idle holds

theorem growPhase_spec (job : FlashJob) :
    Spec (Bench.At c) (t.shell.growPhase job) (reportIff target (t.RereadFor target c job)) := by
  have said (event : FlashEvent) (c : Nat) (w : Bench) (idle : w.At c) :
      Bench.At c { w with events := w.events ++ [event] } := ⟨idle.clock, idle.mapping, idle.deeds⟩
  unfold Shell.growPhase
  apply Spec.bind _ (send_spec _ (said _ c))
  intro _
  apply Spec.bind fun result w => (afterLast t c).Answered (result, w)
  · exact Spec.attempt (growLastPartition_spec job.dev)
  intro result
  cases result with
  | error e =>
      apply Spec.pure
      intro w failed
      obtain ⟨unable, c', idle⟩ := failed
      refine report_none ?_ idle fun _ grows => absurd grows unable
      rw [String.append_assoc, String.append_assoc]
      refine note_ne_grown ?_ _
      rw [Shell.grown, String.toList_ofList, String.toList_ofList]
      decide
  | ok partNum =>
      dsimp only
      cases pass : job.storePass with
      | none =>
          apply Spec.pure
          intro w grown
          refine report_none (by decide) grown.2 fun has _ => ?_
          rw [pass] at has
          cases has
      | some secret =>
          have good : t.GrowsLast c → (t.Reread target (c + 4 + 1) ↔ t.RereadFor target c job) := by
            intro grows
            refine ⟨fun reread _ _ => reread, fun needed => needed ?_ grows⟩
            rw [pass]
            rfl
          apply Spec.assume
          intro grows
          apply Spec.bind _ (send_spec _ (said _ (c + 4)))
          intro _
          apply Spec.bind fun result w => w.Careful target result.isOk ↔ t.RereadFor target c job
          · apply Spec.attempt
            exact (growF2fsInLuks_spec job.dev partNum secret).weaken (fun _ holds => holds)
              (fun _ _ done => done.trans (good grows)) (fun _ _ done => done.trans (good grows))
              fun _ _ => trivial
          · intro result
            cases result with
            | ok _ =>
                apply Spec.pure
                intro w done
                change w.Careful target (decide (_ = _)) ↔ _
                rw [decide_eq_true rfl]
                exact done
            | error e =>
                apply Spec.pure
                intro w done
                have other : " · WARNING: partition grown, but the f2fs grow failed (" ++ e ++
                    ") — the " ++ "stick is valid; the store just doesn't use the extra space yet" ≠
                      Shell.grown := by
                  rw [String.append_assoc, String.append_assoc]
                  refine note_ne_grown ?_ _
                  rw [Shell.grown, String.toList_ofList, String.toList_ofList]
                  decide
                change w.Careful target (decide (_ = _)) ↔ _
                rw [decide_eq_false other]
                exact done

end Commands

/-! ## When the grow is careful -/

def Bench.start (clock : Nat) : Bench := ⟨clock, none, [], []⟩

/-- `grow_f2fs_in_luks` comes to its end and is careful. -/
def GrowsCarefully (t : Timeline) (target start : Nat) (dev : String) (partNum : Nat)
    (secret : String) : Prop :=
  ∃ result after cost,
    Runs (attempt (t.shell.growF2fsInLuks dev partNum secret)) (Bench.start start) result after cost ∧
      after.Careful target result.isOk

/-- The grow of `run_flash` comes to its end, and reports a grown store only when there is one. -/
def ReportsCarefully (t : Timeline) (target start : Nat) (job : FlashJob) : Prop :=
  ∃ note after cost, Runs (t.shell.growPhase job) (Bench.start start) note after cost ∧
    after.Careful target (decide (note = Shell.grown))

theorem start_at (clock : Nat) : (Bench.start clock).At clock := ⟨rfl, rfl, rfl⟩

theorem look_halts (t : Timeline) : Halts t.look := by
  unfold Timeline.look
  exact Halts.perform _

theorem shell_halting (t : Timeline) : t.shell.Halting where
  query _ := Halts.perform _
  command _ := Halts.perform _
  withInput _ _ := Halts.perform _
  pathExists _ := look_halts t
  send _ := Halts.modify _

theorem growsCarefully_iff (t : Timeline) (target start : Nat) (dev : String) (partNum : Nat)
    (secret : String) :
    GrowsCarefully t target start dev partNum secret ↔ t.Reread target (start + 1) := by
  have spec : Spec (Bench.At start) (t.shell.growF2fsInLuks dev partNum secret)
      (carefulIff target (t.Reread target (start + 1))) := growF2fsInLuks_spec dev partNum secret
  obtain ⟨result, after, cost, run, met⟩ :=
    ((shell_halting t).growF2fsInLuks dev partNum secret).finishes spec (Bench.start start) (start_at start)
  have same : after.Careful target result.isOk ↔ t.Reread target (start + 1) := by
    cases result with
    | ok _ => exact met
    | error _ => exact met
  constructor
  · intro careful
    obtain ⟨result', after', cost', run', met⟩ := careful
    obtain ⟨rfl, rfl⟩ := run.unique run'
    exact same.mp met
  · exact fun reread => ⟨result, after, cost, run, same.mpr reread⟩

theorem reportsCarefully_iff (t : Timeline) (target start : Nat) (job : FlashJob) :
    ReportsCarefully t target start job ↔ t.RereadFor target start job := by
  have spec : Spec (Bench.At start) (t.shell.growPhase job)
      (reportIff target (t.RereadFor target start job)) := growPhase_spec job
  obtain ⟨result, after, cost, run, met⟩ :=
    ((shell_halting t).growPhase job).finishes spec (Bench.start start) (start_at start)
  cases result with
  | error e => exact met.elim
  | ok note =>
      constructor
      · intro careful
        obtain ⟨note', after', cost', run', reported⟩ := careful
        obtain ⟨rfl, rfl⟩ := run.of_attempt.unique run'
        exact met.mp reported
      · exact fun reread => ⟨note, after, cost, run.of_attempt, met.mpr reread⟩

/-- The grow is careful exactly when the kernel has taken up the new size by the time
the waits are over, or the store is not opened and resized at all; and no wait for
an open that has made the mapping fails. -/
theorem grow_careful_iff (t : Timeline) (target start : Nat) :
    (∀ dev partNum secret,
      GrowsCarefully t target start dev partNum secret ↔ t.Reread target (start + 1)) ∧
    ∀ job, ReportsCarefully t target start job ↔ t.RereadFor target start job :=
  ⟨growsCarefully_iff t target start, reportsCarefully_iff t target start⟩

/-- The kernel takes 2 s to reread the table; everything else goes well. -/
def lateReread : Timeline where
  node _ := true
  size n := if n < 10 then 2048 else 4096
  size_lt n := by
    split <;> decide
  course _ := ⟨none, none, ⟨true, "", ""⟩, none⟩

/-- The first two polls agree on the old size, and the f2fs is resized to it. -/
theorem lateReread_not_careful : ¬ GrowsCarefully lateReread 4096 0 "/dev/sda" 2 "passphrase" := by
  intro careful
  have reread := (growsCarefully_iff lateReread 4096 0 "/dev/sda" 2 "passphrase").mp careful
  have succeeds (n : Nat) : (lateReread.course n).Succeeds := ⟨rfl, rfl, rfl⟩
  have looked : OverAt (fun n => lateReread.node n = true) 50 1 2 :=
    ⟨by decide, by decide, fun n after before => by omega, .inr ⟨by decide, rfl⟩⟩
  have polled : OverAt (lateReread.Repeats 3) 50 3 5 := by
    refine ⟨by decide, by decide, ?_, .inr ⟨by decide, by decide, by decide, by decide⟩⟩
    intro n after before found
    have later : 3 < n := found.1
    omega
  have grown := (reread 2 5 looked rfl polled ⟨rfl, rfl, rfl⟩).2 (succeeds 6) (succeeds 7)
  exact absurd grown (by decide)

end Nixnas.Tui.Flash
