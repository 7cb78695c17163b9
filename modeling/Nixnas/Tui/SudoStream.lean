import Nixnas.Rust.Stream
import Nixnas.Tui.Handle

/-!
# The elevated reader as a stream

`SudoReader` of `src/tui/src/sudo.rs` behind `Read` and `Seek`: whatever it has
in its cache, a client reads the device through it as through a plain cursor.
-/

set_option autoImplicit false

namespace Nixnas.Tui.Sudo

open Nixnas.Logic Nixnas.Logic.Action
open Nixnas.Rust

variable {Event α : Type}

/-- `SudoReader::seek`. -/
def SudoReader.seek (s : SudoReader) (whence : SeekFrom) : Except IoError Nat × SudoReader :=
  let target := whence.target s.len s.pos
  if target < 0 then (.error ⟨.invalidInput, "seek before start of device"⟩, s)
  else
    let pos := target.toNat % u64Bound
    (.ok pos, { s with pos := pos })

/-- The seeks of the verifier are among these. -/
theorem seekEnd_eq_seek (env : Env) {s : SudoReader} (small : s.len < u64Bound) :
    ((DevReader.sudo s).seekEnd env : Io (World Event) (Nat × DevReader)) =
      pure (s.len, .sudo (s.seek (.fromEnd 0)).2) := by
  have same : (s.seek (.fromEnd 0)).2 = { s with pos := s.len } := by
    have inside : ¬ (s.len : Int) < 0 := by omega
    simp [SudoReader.seek, SeekFrom.target, Nat.mod_eq_of_lt small, inside]
  rw [same]
  rfl

theorem seekStart_eq_seek (env : Env) (s : SudoReader) {pos : Nat} (small : pos < u64Bound) :
    ((DevReader.sudo s).seekStart env pos : Io (World Event) DevReader) =
      pure (.sudo (s.seek (.start pos)).2) := by
  have same : (s.seek (.start pos)).2 = { s with pos := pos } := by
    have inside : ¬ (pos : Int) < 0 := by omega
    simp [SudoReader.seek, SeekFrom.target, Nat.mod_eq_of_lt small, inside]
  rw [same]
  rfl

def sudoStream (Event : Type) (env : Env) : ByteStream (World Event) SudoReader where
  pos s := s.pos
  read s size := s.read env size
  seek s whence := pure (s.seek whence)

/-- Every `dd` comes back with the whole of its range. -/
structure Env.Copies (env : Env) : Prop extends env.Reliable where
  range : ∀ n, (env.reply n).short = 0

/-- The same environment without a `blockdev`, which no reader asks. -/
def Env.unsized (env : Env) : Env :=
  { env with reply := fun n => { env.reply n with blockdev := fun _ => ⟨false, "", ""⟩ } }

theorem Env.Copies.honest {env : Env} (copies : env.Copies) : env.unsized.Honest where
  size := by
    intro n len size success
    cases success
  range := copies.range

section Copying

variable {env : Env} {content : Bytes} {node : Node}

/-- The cache invariant: the reader is on the node, knows its size, and holds
bytes of it. -/
structure SudoReader.Caches (content : Bytes) (node : Node) (s : SudoReader) : Prop where
  node : s.node = node
  len : s.len = content.length
  sound : s.Sound content

theorem SudoReader.caches_new (content : Bytes) (node : Node) :
    (SudoReader.new node content.length).Caches content node :=
  ⟨rfl, rfl, List.nil_prefix⟩

theorem sudoStream_over (copies : env.Copies) :
    (sudoStream Event env).Over content (SudoReader.Caches content node)
      fun w => w.content env node = content where
  read s size caches := by
    have keeps : Preserves World.devices (s.read env size : Io (World Event) (Bytes × SudoReader)) :=
      (s.read_still env size).comp fun w => w.devices
    have spec : Spec (fun w : World Event => w.content env s.node = content) (s.read env size)
        (.onReturn
          (fun result _ => (DevReader.sudo s).Delivers env.unsized content size result.1
            (.sudo result.2))
          fun _ _ => True) := @SudoReader.read_spec Event env.unsized content s caches.sound size
    have ends := (SudoReader.read_ends copies.toReliable s size).with_spec (Spec.holding spec keeps)
    rw [caches.node] at ends
    apply ends.weaken (fun _ held => held)
    rintro ⟨chunk, next⟩ w ⟨-, delivers, held⟩
    have exact : (DevReader.sudo s).Exact env.unsized content := ⟨copies.honest, caches.len⟩
    have nextExact : (DevReader.sudo next).Exact env.unsized content := delivers.exact exact
    refine ⟨⟨⟨?_, nextExact.2, delivers.sound⟩, delivers.bytes, delivers.short, ?_, delivers.pos⟩, held⟩
    · exact (delivers.node : next.node = s.node).trans caches.node
    · intro empty
      by_cases none : size = 0
      · exact Or.inl none
      · exact Or.inr (List.drop_eq_nil_iff.mp (delivers.ended exact (Nat.pos_of_ne_zero none) empty))
  seek s whence caches := by
    apply Ends.pure
    intro w held
    refine ⟨?_, held⟩
    dsimp only [sudoStream, SudoReader.seek, SeekFrom.InRange, SeeksTo]
    rw [caches.len]
    split
    · exact ⟨caches, fun _ => ⟨⟨_, rfl⟩, rfl⟩⟩
    · refine ⟨⟨caches.node, rfl, caches.sound⟩, ?_⟩
      intro inRange
      have small : (whence.target content.length s.pos).toNat < u64Bound := by omega
      rw [Nat.mod_eq_of_lt small]
      exact ⟨rfl, rfl⟩

end Copying

/-- Every sequence of seeks and reads on a fresh reader of the device is one of a
cursor over its content, and every client gets the same value from the reader as
from the cursor and leaves both at the same position. -/
theorem sudoReader_refines_cursor (env : Env) (copies : env.Copies) (content : Bytes) (node : Node)
    (count : Nat → Nat → Nat) :
    (∀ accesses : List Access,
      Ends (fun w : World Event => w.content env node = content)
        ((sudoStream Event env).trace accesses (SudoReader.new node content.length))
        fun result _ => Traced content 0 accesses result.1) ∧
    ∀ client : Client α, client.InRange content 0 → ∃ value pos,
      Ends (fun w : World Event => w.content env node = content)
        (client.run (sudoStream Event env) (SudoReader.new node content.length))
        (fun result _ => result.1 = value ∧ result.2.pos = pos) ∧
      Ends (fun _ : World Event => True) (client.run (cursor (World Event) content count) 0)
        fun result _ => result = (value, pos) := by
  constructor
  · intro accesses
    exact ((sudoStream_over copies).trace accesses (SudoReader.caches_new content node)).weaken
      (fun _ held => held) fun _ _ met => met.1
  · intro client inRange
    refine ⟨(client.eval content 0).1, (client.eval content 0).2, ?_, ?_⟩
    · apply ((client.run_ends (sudoStream_over copies) (SudoReader.caches_new content node)
        inRange).weaken (fun _ held => held))
      intro result w met
      exact ⟨congrArg Prod.fst met.1, congrArg Prod.snd met.1⟩
    · apply ((client.run_ends (cursor_over (World Event) content count fun _ => True) trivial
        inRange).weaken (fun _ held => held))
      intro result w met
      exact met.1

/-! ## A small device -/

namespace Copying

def dd : Env where
  image _ := [1, 2, 3]
  reply _ :=
    { error := none
      count := 1
      short := 0
      output := ⟨true, "", ""⟩
      blockdev := fun size => ⟨true, toString size, ""⟩
      present := true
      deliver := fun original accepted _ => accepted ++ original.drop accepted.length
      settle := fun original accepted _ => accepted ++ original.drop accepted.length
      tool := id }

theorem dd_copies : dd.Copies := ⟨⟨fun _ => rfl, fun _ => rfl⟩, fun _ => rfl⟩

/-- Two bytes, one of them again, and the rest. -/
def twice : Client Bytes :=
  .readExact 2 fun _ _ => .seek (.current (-1)) fun _ =>
    .readToEnd ⟨fun _ => 32, fun _ => Nat.zero_lt_succ 31⟩ fun rest => .done rest

end Copying

theorem sudoReader_refines_cursor_small :
    ∃ value pos,
      Ends (fun w : World Nat => w.content Copying.dd (.image "disk.raw") = [1, 2, 3])
        (Copying.twice.run (sudoStream Nat Copying.dd) (SudoReader.new (.image "disk.raw") 3))
        (fun result _ => result.1 = value ∧ result.2.pos = pos) ∧
      Ends (fun _ : World Nat => True)
        (Copying.twice.run (cursor (World Nat) [1, 2, 3] fun _ _ => 1) 0)
        fun result _ => result = (value, pos) :=
  (sudoReader_refines_cursor Copying.dd Copying.dd_copies [1, 2, 3] (.image "disk.raw")
    fun _ _ => 1).2 Copying.twice ⟨(by decide : (1 : Int) < u64Bound), trivial⟩

end Nixnas.Tui.Sudo
