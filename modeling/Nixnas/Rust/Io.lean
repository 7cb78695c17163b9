import Nixnas.Logic.Total
import Nixnas.Rust.Text

/-!
# Reads and writes that may fall short

The parts of `std::io` that a byte stream goes through.  A read yields some of
what is left, a write takes some of what it is given, and `write_all` repeats
the write until nothing is left.
-/

set_option autoImplicit false

namespace Nixnas.Rust

open Nixnas.Logic Nixnas.Logic.Action

inductive ErrorKind where
  | permissionDenied
  | interrupted
  | writeZero
  | unexpectedEof
  | invalidInput
  | unsupported
  | other
  deriving DecidableEq, Repr

/-- `std::io::Error`. -/
structure IoError where
  kind : ErrorKind
  text : String
  deriving DecidableEq, Repr

abbrev Io (World α : Type) := Action World IoError α

variable {World Part α : Type}

/-- An error chain under a further `.context(…)`, as `{e:#}` renders it. -/
def context (what : String) (action : Action World String α) : Action World String α :=
  mapError (fun e => what ++ ": " ++ e) action

/-- `.context(…)` on an `io::Result`. -/
def ioContext (what : String) (action : Io World α) : Action World String α :=
  mapError (fun e => what ++ ": " ++ e.text) action

/-- What one `read` into a buffer of `want` bytes yields of what is left: the
end of the file is the only empty answer. -/
def readSome (rest : Bytes) (want count : Nat) : Bytes := rest.take (min want (max 1 count))

theorem readSome_prefix (rest : Bytes) (want count : Nat) : readSome rest want count <+: rest :=
  List.take_prefix _ _

theorem readSome_append_drop (rest : Bytes) (want count : Nat) :
    readSome rest want count ++ rest.drop (readSome rest want count).length = rest := by
  have front : readSome rest want count <+: rest := readSome_prefix rest want count
  exact List.prefix_iff_eq_append.mp front

theorem readSome_eq_nil {rest : Bytes} {want count : Nat} (some : 0 < want)
    (empty : readSome rest want count = []) : rest = [] := by
  rcases List.take_eq_nil_iff.mp empty with none | none
  · omega
  · exact none

theorem readSome_length_le (rest : Bytes) (want count : Nat) :
    (readSome rest want count).length ≤ want := by
  simp only [readSome, List.length_take]
  omega

/-- What is read after a prefix extends it. -/
theorem prefix_append_of_prefix_drop {got content chunk : Bytes} (sofar : got <+: content)
    (next : chunk <+: content.drop got.length) : got ++ chunk <+: content := by
  obtain ⟨tail, rfl⟩ := sofar
  rw [List.drop_left] at next
  exact (List.prefix_append_right_inj got).mpr next

/-- A prefix that leaves nothing is everything. -/
theorem eq_of_prefix_of_drop {got content : Bytes} (sofar : got <+: content)
    (ended : content.drop got.length = []) : got = content := by
  obtain ⟨tail, rfl⟩ := sofar
  rw [List.drop_left] at ended
  rw [ended, List.append_nil]

/-! ## `write_all` -/

def writeZero : IoError := ⟨.writeZero, "failed to write whole buffer"⟩

/-- One turn of `write_all`. -/
def writeTurn (write : Bytes → Io World Nat) (rest : Bytes) : Io World (Bytes ⊕ Unit) :=
  if rest.isEmpty then pure (.inr ())
  else do
    match ← attempt (write rest) with
    | .ok 0 => fail writeZero
    | .ok n => pure (.inl (rest.drop n))
    | .error e => if e.kind = .interrupted then pure (.inl rest) else fail e

/-- `Write::write_all`: an interrupted write is tried again. -/
def writeAll (write : Bytes → Io World Nat) (buf : Bytes) : Io World Unit :=
  loop (writeTurn write) buf

/-- What one write leads to: some of it is accepted, or it is tried again, or the
whole fails. -/
def Post.ofWrite (invariant : Bytes → World → Prop) (post : Post World IoError Unit)
    (rest : Bytes) : Post World IoError Nat where
  ok n world := if n = 0 then post.error writeZero world else invariant (rest.drop n) world
  error e world := if e.kind = .interrupted then invariant rest world else post.error e world
  stopped := post.stopped

/-- The rule of `writeAll`: an invariant of what is left to write. -/
theorem writeAll_rule {write : Bytes → Io World Nat} {post : Post World IoError Unit}
    (invariant : Bytes → World → Prop)
    (writes : ∀ rest, rest ≠ [] → Spec (invariant rest) (write rest) (Post.ofWrite invariant post rest))
    (done : ∀ world, invariant [] world → post.ok () world)
    (stopped : ∀ rest world, invariant rest world → post.stopped world) (buf : Bytes) :
    Spec (invariant buf) (writeAll write buf) post := by
  apply Spec.loop invariant stopped
  intro rest
  unfold writeTurn
  by_cases empty : rest = []
  · subst empty
    exact Spec.pure done
  · rw [if_neg (by simp [empty])]
    apply Spec.bind fun
      | .ok n => (Post.ofWrite invariant post rest).ok n
      | .error e => (Post.ofWrite invariant post rest).error e
    · exact Spec.attempt (writes rest empty)
    · intro answer
      match answer with
      | .ok 0 => exact Spec.fail fun _ failed => failed
      | .ok (n + 1) => exact Spec.pure fun _ holds => holds
      | .error e =>
          dsimp only [Post.ofWrite]
          by_cases again : e.kind = .interrupted
          · simp only [if_pos again]
            exact Spec.pure fun _ holds => holds
          · simp only [if_neg again]
            exact Spec.fail fun _ failed => failed

/-- The same where a failure may come at any time. -/
theorem writeAll_spec {write : Bytes → Io World Nat} {post : Post World IoError Unit}
    (invariant : Bytes → World → Prop)
    (writes : ∀ rest, rest ≠ [] → Spec (invariant rest) (write rest)
      ⟨fun n => invariant (rest.drop n), fun _ => invariant rest, post.stopped⟩)
    (done : ∀ world, invariant [] world → post.ok () world)
    (failed : ∀ rest e world, invariant rest world → post.error e world)
    (stopped : ∀ rest world, invariant rest world → post.stopped world) (buf : Bytes) :
    Spec (invariant buf) (writeAll write buf) post := by
  apply writeAll_rule invariant _ done stopped
  intro rest some
  refine (writes rest some).weaken (fun _ holds => holds) ?_ ?_ fun _ holds => holds
  · intro n world holds
    change if n = 0 then _ else _
    split
    · exact failed _ _ world holds
    · exact holds
  · intro e world holds
    change if e.kind = .interrupted then _ else _
    split
    · exact holds
    · exact failed rest e world holds

/-- `write_all` comes to an end when every write does and none is interrupted. -/
theorem writeAll_halts {write : Bytes → Io World Nat} (halts : ∀ rest, Halts (write rest))
    (calm : ∀ rest, Spec (fun _ => True) (write rest)
      (.onReturn (fun _ _ => True) fun e _ => e.kind ≠ .interrupted))
    (buf : Bytes) : Halts (writeAll write buf) := by
  apply Halts.loop List.length
  · intro rest
    unfold writeTurn
    apply Halts.ite (Halts.pure _)
    apply Halts.bind (halts rest).attempt
    intro answer
    match answer with
    | .ok 0 => exact Halts.fail _
    | .ok (n + 1) => exact Halts.pure _
    | .error e => exact Halts.ite (Halts.pure _) (Halts.fail _)
  · intro rest
    unfold writeTurn
    by_cases empty : rest.isEmpty = true
    · rw [if_pos empty]
      exact Spec.pure fun _ _ => trivial
    · rw [if_neg empty]
      apply Spec.bind fun
        | .ok _ => fun _ => True
        | .error e => fun _ => e.kind ≠ .interrupted
      · exact Spec.attempt (calm rest)
      · intro answer
        match answer with
        | .ok 0 => exact Spec.fail fun _ _ => trivial
        | .ok (n + 1) =>
            apply Spec.pure
            intro _ _
            have some : 0 < rest.length := List.length_pos_iff.mpr (by simpa using empty)
            change (rest.drop (n + 1)).length < rest.length
            rw [List.length_drop]
            omega
        | .error e =>
            intro world fuel (calm : e.kind ≠ .interrupted)
            dsimp only
            rw [if_neg calm]
            trivial

theorem writeAll_preserves {part : World → Part} {write : Bytes → Io World Nat}
    (keeps : ∀ rest, Preserves part (write rest)) (buf : Bytes) :
    Preserves part (writeAll write buf) := by
  apply Preserves.loop
  intro rest
  unfold writeTurn
  apply Preserves.ite (Preserves.pure _)
  apply Preserves.bind (Preserves.attempt (keeps rest))
  intro answer
  match answer with
  | .ok 0 => exact Preserves.fail _
  | .ok (n + 1) => exact Preserves.pure _
  | .error e => exact Preserves.ite (Preserves.pure _) (Preserves.fail _)

end Nixnas.Rust
