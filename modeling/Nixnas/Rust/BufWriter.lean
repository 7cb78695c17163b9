import Mathlib.Data.List.Basic
import Nixnas.Rust.Text

/-!
# Buffered writing

`BufWriter`: what it is given reaches the file in order, some of it later.  A
write can stop after any number of bytes; what the buffer still holds is tried
again by the next flush, and once more when the writer is dropped.
-/

set_option autoImplicit false

namespace Nixnas.Rust

/-- A writer, and the bytes that have reached its file. -/
structure Buffered where
  reached : Bytes
  buffer : Bytes
  deriving DecidableEq, Repr

namespace Buffered

/-- All that the writer was given and has not lost. -/
def whole (w : Buffered) : Bytes := w.reached ++ w.buffer

/-- A write of `length` bytes stops after `n` of them; `none` if it completes. -/
def stopsAfter (stop : Option Nat) (length : Nat) : Option Nat := stop.filter (· < length)

/-- `flush_buf`; `true` if it returns `Ok`. -/
def flushBuf (w : Buffered) (stop : Option Nat) : Buffered × Bool :=
  match stopsAfter stop w.buffer.length with
  | some n => (⟨w.reached ++ w.buffer.take n, w.buffer.drop n⟩, false)
  | none => (⟨w.reached ++ w.buffer, []⟩, true)

/-- Where the two writes to the file that one `write_all` may make stop. -/
structure WriteStops where
  flush : Option Nat
  direct : Option Nat
  deriving DecidableEq, Repr

variable (capacity : Nat)

def spare (w : Buffered) : Nat := capacity - w.buffer.length

/-- What is not shorter than the whole buffer goes to the file at once. -/
def put (w : Buffered) (bytes : Bytes) (direct : Option Nat) : Buffered × Bool :=
  if bytes.length < capacity then (⟨w.reached, w.buffer ++ bytes⟩, true)
  else
    match stopsAfter direct bytes.length with
    | some n => (⟨w.reached ++ bytes.take n, w.buffer⟩, false)
    | none => (⟨w.reached ++ bytes, w.buffer⟩, true)

/-- `BufWriter::write_all`. -/
def writeAll (w : Buffered) (bytes : Bytes) (stops : WriteStops) : Buffered × Bool :=
  if bytes.length < w.spare capacity then (⟨w.reached, w.buffer ++ bytes⟩, true)
  else if w.spare capacity < bytes.length then
    match w.flushBuf stops.flush with
    | (w, true) => w.put capacity bytes stops.direct
    | (w, false) => (w, false)
  else w.put capacity bytes stops.direct

/-- The writes of one `writeln!`, and of the drop that follows its failure. -/
structure LineStops where
  text : WriteStops
  newline : WriteStops
  drop : Option Nat
  deriving DecidableEq, Repr

/-- `writeln!(w, "{s}")`. -/
def writeLine (w : Buffered) (s : String) (stops : LineStops) : Buffered × Bool :=
  match w.writeAll capacity (asBytes s) stops.text with
  | (w, true) => w.writeAll capacity [10] stops.newline
  | (w, false) => (w, false)

/-- The bytes of a line. -/
def lineBytes (s : String) : Bytes := asBytes s ++ [10]

/-! ## What reaches the file -/

/-- From `w` the writer has come to `w'` while it was given `bytes`: what had reached
the file is still there, and nothing is out of order. -/
structure Came (w : Buffered) (bytes : Bytes) (w' : Buffered) : Prop where
  grows : w.reached <+: w'.reached
  ordered : w'.whole <+: w.whole ++ bytes

theorem stopsAfter_lt {stop : Option Nat} {length n : Nat} (stops : stopsAfter stop length = some n) :
    n < length := by
  simpa using (Option.filter_eq_some_iff.mp stops).2

theorem flushBuf_whole (w : Buffered) (stop : Option Nat) :
    (w.flushBuf stop).1.whole = w.whole ∧ w.reached <+: (w.flushBuf stop).1.reached := by
  rw [flushBuf]
  cases stopsAfter stop w.buffer.length with
  | some n =>
      refine ⟨?_, List.prefix_append _ _⟩
      simp only [whole, List.append_assoc, List.take_append_drop]
  | none =>
      refine ⟨?_, List.prefix_append _ _⟩
      simp only [whole, List.append_nil]

theorem flushBuf_ok {w w' : Buffered} {stop : Option Nat} (ok : w.flushBuf stop = (w', true)) :
    w' = ⟨w.whole, []⟩ := by
  rw [flushBuf] at ok
  cases stops : stopsAfter stop w.buffer.length with
  | some n => simp [stops] at ok
  | none =>
      simp only [stops, Prod.mk.injEq, and_true] at ok
      exact ok.symm

theorem put_came {w : Buffered} {bytes : Bytes}
    (room : bytes.length < capacity ∨ w.buffer = [] ∨ bytes = []) (direct : Option Nat) :
    Came w bytes (w.put capacity bytes direct).1 ∧
      ((w.put capacity bytes direct).2 = true →
        (w.put capacity bytes direct).1.whole = w.whole ++ bytes) := by
  rw [put]
  by_cases fits : bytes.length < capacity
  · rw [if_pos fits]
    have same : (⟨w.reached, w.buffer ++ bytes⟩ : Buffered).whole = w.whole ++ bytes := by
      simp only [whole, List.append_assoc]
    exact ⟨⟨List.prefix_refl _, same ▸ List.prefix_refl _⟩, fun _ => same⟩
  · rw [if_neg fits]
    cases stops : stopsAfter direct bytes.length with
    | some n =>
        have before := stopsAfter_lt stops
        have empty : w.buffer = [] := by
          rcases room.resolve_left fits with empty | none
          · exact empty
          · simp [none] at before
        refine ⟨⟨List.prefix_append _ _, ?_⟩, fun ok => by cases ok⟩
        simp only [whole, empty, List.append_nil]
        exact (List.prefix_append_right_inj _).mpr (List.take_prefix n bytes)
    | none =>
        have same : (⟨w.reached ++ bytes, w.buffer⟩ : Buffered).whole = w.whole ++ bytes := by
          rcases room.resolve_left fits with empty | none
          · simp only [whole, empty, List.append_nil]
          · simp only [whole, none, List.append_nil]
        exact ⟨⟨List.prefix_append _ _, same ▸ List.prefix_refl _⟩, fun _ => same⟩

/-- A write that returns has taken all its bytes, and one that fails a beginning of
them. -/
theorem writeAll_came (w : Buffered) (bytes : Bytes) (stops : WriteStops) :
    Came w bytes (w.writeAll capacity bytes stops).1 ∧
      ((w.writeAll capacity bytes stops).2 = true →
        (w.writeAll capacity bytes stops).1.whole = w.whole ++ bytes) := by
  rw [writeAll]
  by_cases fits : bytes.length < w.spare capacity
  · rw [if_pos fits]
    have same : (⟨w.reached, w.buffer ++ bytes⟩ : Buffered).whole = w.whole ++ bytes := by
      simp only [whole, List.append_assoc]
    exact ⟨⟨List.prefix_refl _, same ▸ List.prefix_refl _⟩, fun _ => same⟩
  · rw [if_neg fits]
    by_cases exceeds : w.spare capacity < bytes.length
    · rw [if_pos exceeds]
      have kept := flushBuf_whole w stops.flush
      cases flushed : w.flushBuf stops.flush with
      | mk w₁ ok =>
          rw [flushed] at kept
          cases ok with
          | false =>
              refine ⟨⟨kept.2, ?_⟩, fun ok => by cases ok⟩
              rw [kept.1]
              exact List.prefix_append _ _
          | true =>
              have empty : w₁.buffer = [] := by rw [flushBuf_ok flushed]
              have room : bytes.length < capacity ∨ w₁.buffer = [] ∨ bytes = [] := .inr (.inl empty)
              have after := put_came capacity room stops.direct
              rw [kept.1] at after
              refine ⟨⟨kept.2.trans after.1.grows, ?_⟩, after.2⟩
              have ordered := after.1.ordered
              rwa [kept.1] at ordered
    · rw [if_neg exceeds]
      apply put_came
      rw [spare] at exceeds fits
      by_cases empty : w.buffer = []
      · exact .inr (.inl empty)
      · have some := List.length_pos_iff.mpr empty
        by_cases small : 0 < capacity
        · exact .inl (by omega)
        · exact .inr (.inr (List.eq_nil_of_length_eq_zero (by omega)))

theorem Came.trans {w w' w'' : Buffered} {first second : Bytes} (came : Came w first w')
    (taken : w'.whole = w.whole ++ first) (next : Came w' second w'') :
    Came w (first ++ second) w'' := by
  refine ⟨came.grows.trans next.grows, ?_⟩
  have ordered := next.ordered
  rwa [taken, List.append_assoc] at ordered

theorem Came.short {w w' : Buffered} {first : Bytes} (came : Came w first w') (second : Bytes) :
    Came w (first ++ second) w' := by
  refine ⟨came.grows, came.ordered.trans ?_⟩
  rw [← List.append_assoc]
  exact List.prefix_append _ _

/-- A line that is written without an error is in the writer as a whole. -/
theorem writeLine_came (w : Buffered) (s : String) (stops : LineStops) :
    Came w (lineBytes s) (w.writeLine capacity s stops).1 ∧
      ((w.writeLine capacity s stops).2 = true →
        (w.writeLine capacity s stops).1.whole = w.whole ++ lineBytes s) := by
  rw [writeLine]
  have text := writeAll_came capacity w (asBytes s) stops.text
  cases written : w.writeAll capacity (asBytes s) stops.text with
  | mk w₁ ok =>
      rw [written] at text
      cases ok with
      | false => exact ⟨text.1.short [10], fun ok => by cases ok⟩
      | true =>
          have taken := text.2 rfl
          have newline := writeAll_came capacity w₁ [10] stops.newline
          refine ⟨text.1.trans taken newline.1, fun ok => ?_⟩
          rw [newline.2 ok, taken, List.append_assoc]
          rfl

/-! ## Writes that complete -/

def WriteStops.never : WriteStops := ⟨none, none⟩

def LineStops.never : LineStops := ⟨.never, .never, none⟩

theorem put_never (w : Buffered) (bytes : Bytes) : (w.put capacity bytes none).2 = true := by
  rw [put]
  split
  · rfl
  · rfl

theorem writeAll_never (w : Buffered) (bytes : Bytes) :
    (w.writeAll capacity bytes .never).2 = true := by
  rw [writeAll]
  split
  · rfl
  · split
    · exact put_never capacity _ bytes
    · exact put_never capacity w bytes

theorem writeLine_never (w : Buffered) (s : String) :
    (w.writeLine capacity s .never).2 = true := by
  have text : (w.writeAll capacity (asBytes s) LineStops.never.text).2 = true :=
    writeAll_never capacity w (asBytes s)
  rw [writeLine]
  cases written : w.writeAll capacity (asBytes s) LineStops.never.text with
  | mk w₁ ok =>
      rw [written] at text
      simp only at text
      subst text
      exact writeAll_never capacity w₁ [10]

end Buffered

end Nixnas.Rust
