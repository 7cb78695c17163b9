import Mathlib.Data.List.Basic
import Nixnas.Logic.Total
import Nixnas.Rust.Io

/-!
# Lines of a stream of bytes

`BufReader::lines`: `read_until` on a buffer that is refilled when it is empty,
and the check that a line is text.  `pieces` are the lines of a whole stream;
a reader that is handed the stream chunk by chunk comes upon the same ones.
-/

set_option autoImplicit false

namespace Nixnas.Rust

open Nixnas.Logic Nixnas.Logic.Action

variable {World : Type}

/-! ## Text -/

/-- `String::from_utf8`. -/
def fromUtf8 (bytes : Bytes) : Option String := String.fromUTF8? ⟨bytes.toArray⟩

def lineFeed : UInt8 := 10

/-- The text of a line without its terminator: a line feed, and then a carriage
return before it. -/
def chomp (line : String) : String :=
  if endsWith line "\n" then
    if endsWith (pop line) "\r" then pop (pop line) else pop line
  else line

/-! ## The buffered reader -/

/-- The capacity of a `BufReader`. -/
def bufCapacity : Nat := 8192

/-- `BufReader::fill_buf`: `buffer` is what is left of the last read. -/
def fillBuf (read : Nat → Io World Bytes) (buffer : Bytes) : Io World Bytes :=
  if buffer.isEmpty then read bufCapacity else pure buffer

/-- One turn of `read_until`, with the buffer and the line so far. -/
def readUntilTurn (read : Nat → Io World Bytes) (delim : UInt8) :
    Bytes × Bytes → Io World ((Bytes × Bytes) ⊕ (Bytes × Bytes))
  | (buffer, line) => do
      match ← attempt (fillBuf read buffer) with
      | .error e => if e.kind = .interrupted then pure (.inl (buffer, line)) else fail e
      | .ok available =>
          match available.idxOf? delim with
          | some i => pure (.inr (available.drop (i + 1), line ++ available.take (i + 1)))
          | none =>
              if available.isEmpty then pure (.inr ([], line))
              else pure (.inl ([], line ++ available))

/-- `BufRead::read_until`: the buffer it leaves, and the bytes up to and with the
delimiter or the end of the stream. -/
def readUntil (read : Nat → Io World Bytes) (delim : UInt8) (buffer : Bytes) :
    Io World (Bytes × Bytes) :=
  loop (readUntilTurn read delim) (buffer, [])

inductive LineError where
  | invalidUtf8
  | io (e : IoError)

/-- What `read_line` and `Lines::next` make of the bytes of a line. -/
def lineItem (line : Bytes) : Option (Except LineError String) :=
  if line.isEmpty then none
  else
    match fromUtf8 line with
    | none => some (.error .invalidUtf8)
    | some text => some (.ok (chomp text))

/-- `Lines::next`. -/
def nextLine (read : Nat → Io World Bytes) (buffer : Bytes) :
    Io World (Option (Except LineError String) × Bytes) := do
  match ← attempt (readUntil read lineFeed buffer) with
  | .error e => pure (some (.error (.io e)), [])
  | .ok (buffer, line) => pure (lineItem line, buffer)

/-! ## The lines of a stream -/

/-- The lines of a stream with their terminators; the last one may lack it. -/
def pieces : Bytes → List Bytes
  | [] => []
  | b :: rest =>
      if b = lineFeed then [b] :: pieces rest
      else
        match pieces rest with
        | [] => [[b]]
        | line :: more => (b :: line) :: more

/-- `line` is the first line of the stream, and `rest` is what follows it. -/
structure FirstLine (stream line rest : Bytes) : Prop where
  splits : stream = line ++ rest
  body : ∃ start, lineFeed ∉ start ∧ (line = start ++ [lineFeed] ∨ line = start ∧ rest = [])

theorem pieces_of_no_break {line : Bytes} (unbroken : lineFeed ∉ line) (isSome : line ≠ []) :
    pieces line = [line] := by
  induction line with
  | nil => exact absurd rfl isSome
  | cons b rest ih =>
      rw [List.mem_cons, not_or] at unbroken
      obtain ⟨other, unbroken'⟩ := unbroken
      rw [pieces, if_neg (Ne.symm other)]
      cases rest with
      | nil => rfl
      | cons c more => rw [ih unbroken' (List.cons_ne_nil c more)]

theorem pieces_append_break {start : Bytes} (unbroken : lineFeed ∉ start) (rest : Bytes) :
    pieces (start ++ lineFeed :: rest) = (start ++ [lineFeed]) :: pieces rest := by
  induction start with
  | nil => rw [List.nil_append, pieces, if_pos rfl, List.nil_append]
  | cons b more ih =>
      rw [List.mem_cons, not_or] at unbroken
      obtain ⟨other, unbroken'⟩ := unbroken
      rw [List.cons_append, pieces, if_neg (Ne.symm other), ih unbroken']
      rfl

theorem FirstLine.pieces_eq {stream line rest : Bytes} (first : FirstLine stream line rest)
    (isSome : line ≠ []) : pieces stream = line :: pieces rest := by
  obtain ⟨start, unbroken, rfl | ⟨rfl, rfl⟩⟩ := first.body
  · rw [first.splits, List.append_assoc, List.singleton_append, pieces_append_break unbroken]
  · rw [first.splits, List.append_nil, pieces_of_no_break unbroken isSome]
    rfl

theorem FirstLine.stream_nil {stream rest : Bytes} (first : FirstLine stream [] rest) :
    stream = [] := by
  obtain ⟨start, unbroken, full | ⟨_, isEnd⟩⟩ := first.body
  · exact absurd full.symm (List.append_ne_nil_of_right_ne_nil start (List.cons_ne_nil _ _))
  · rw [first.splits, isEnd, List.append_nil]

/-! ## Reading a line off a stream -/

/-- Reads hand out the content that is left in the world, in pieces that are only
empty at its end; an interrupted read is one of boundedly many. -/
structure Drains (read : Nat → Io World Bytes) (content : World → Bytes) (stalls : World → Nat)
    (held : World → Prop) : Prop where
  read : ∀ size, 0 < size → ∀ left stall,
    Ends (fun world => (content world = left ∧ stalls world = stall) ∧ held world)
      (attempt (read size)) fun answer world => held world ∧
        match answer with
        | .ok chunk => chunk ++ content world = left ∧ (chunk = [] → left = []) ∧
            stalls world ≤ stall
        | .error e => e.kind = .interrupted ∧ content world = left ∧ stalls world < stall

variable {read : Nat → Io World Bytes} {content : World → Bytes} {stalls : World → Nat}
  {held : World → Prop}

theorem idxOf?_eq_some {delim : UInt8} {bytes : Bytes} {i : Nat}
    (found : bytes.idxOf? delim = some i) :
    ∃ start rest, bytes = start ++ delim :: rest ∧ delim ∉ start ∧ start.length = i := by
  induction bytes generalizing i with
  | nil => simp at found
  | cons b rest ih =>
      rw [List.idxOf?_cons] at found
      by_cases isDelim : b = delim
      · subst isDelim
        rw [if_pos (by simp)] at found
        cases found
        exact ⟨[], rest, rfl, List.not_mem_nil, rfl⟩
      · rw [if_neg (by simpa using isDelim)] at found
        obtain ⟨j, inRest, rfl⟩ := Option.map_eq_some_iff.mp found
        obtain ⟨start, tail, rfl, unbroken, rfl⟩ := ih inRest
        refine ⟨b :: start, tail, rfl, ?_, rfl⟩
        rw [List.mem_cons, not_or]
        exact ⟨Ne.symm isDelim, unbroken⟩

theorem idxOf?_eq_none {delim : UInt8} {bytes : Bytes} (missing : bytes.idxOf? delim = none) :
    delim ∉ bytes := by
  simpa using missing

/-- What `read_until` has read so far, what is in its buffer and what is left make
up the stream it started from. -/
structure Sofar (content : World → Bytes) (stream buffer line : Bytes) (world : World) : Prop where
  unbroken : lineFeed ∉ line
  whole : line ++ (buffer ++ content world) = stream

theorem fillBuf_ends (drains : Drains read content stalls held) (buffer left : Bytes) (stall : Nat) :
    Ends (fun world => (content world = left ∧ stalls world = stall) ∧ held world)
      (attempt (fillBuf read buffer)) fun answer world => held world ∧
        match answer with
        | .ok available => available ++ content world = buffer ++ left ∧
            (available = [] → buffer ++ left = []) ∧ stalls world ≤ stall
        | .error e => e.kind = .interrupted ∧ buffer = [] ∧ content world = left ∧
            stalls world < stall := by
  unfold fillBuf
  cases buffer with
  | nil =>
      rw [if_pos List.isEmpty_nil]
      apply (drains.read bufCapacity (by decide) left stall).weaken (fun _ holds => holds)
      intro answer world met
      refine ⟨met.1, ?_⟩
      cases answer with
      | ok chunk => exact met.2
      | error e => exact ⟨met.2.1, rfl, met.2.2⟩
  | cons b rest =>
      rw [if_neg (by simp)]
      intro world holds
      obtain ⟨⟨isLeft, isStall⟩, isHeld⟩ := holds
      refine ⟨.ok (b :: rest), world, 0, Runs.attempt (Runs.pure _ world), isHeld, ?_⟩
      subst isLeft isStall
      refine ⟨rfl, ?_, Nat.le_refl _⟩
      intro empty
      cases empty

/-- A turn of `read_until` ends the line, or takes something out of the buffer or
the stream. -/
theorem readUntilTurn_ends (drains : Drains read content stalls held) (stream : Bytes)
    (state : Bytes × Bytes) (size : Nat) :
    Ends (fun world => state.1.length + (content world).length + stalls world = size ∧
        Sofar content stream state.1 state.2 world ∧ held world)
      (readUntilTurn read lineFeed state) fun
        | .inl next => fun world => (Sofar content stream next.1 next.2 world ∧ held world) ∧
            next.1.length + (content world).length + stalls world < size
        | .inr result => fun world => held world ∧
            FirstLine stream result.2 (result.1 ++ content world) := by
  obtain ⟨buffer, line⟩ := state
  intro world holds
  obtain ⟨isSize, sofar, isHeld⟩ := holds
  have fills := fillBuf_ends drains buffer (content world) (stalls world)
  refine Ends.bind _ fills ?_ world ⟨⟨rfl, rfl⟩, isHeld⟩
  have unbroken := sofar.unbroken
  have whole := sofar.whole
  dsimp only at isSize whole
  intro answer
  cases answer with
  | error e =>
      intro after met
      obtain ⟨isHeld', interrupted, rfl, same, fewer⟩ := met
      dsimp only
      rw [if_pos interrupted]
      refine Ends.pure ?_ after rfl
      rintro _ rfl
      rw [← same] at whole isSize
      refine ⟨⟨⟨unbroken, whole⟩, isHeld'⟩, ?_⟩
      dsimp only
      omega
  | ok available =>
      intro after met
      obtain ⟨isHeld', filled, ended, fewer⟩ := met
      have long := congrArg List.length filled
      rw [List.length_append, List.length_append] at long
      rw [← filled] at whole
      dsimp only
      cases found : available.idxOf? lineFeed with
      | some i =>
          refine Ends.pure ?_ after rfl
          rintro _ rfl
          obtain ⟨start, rest, rfl, unbroken', rfl⟩ := idxOf?_eq_some found
          have here : start ++ lineFeed :: rest = (start ++ [lineFeed]) ++ rest := by
            rw [List.append_assoc, List.singleton_append]
          have length : start.length + 1 = (start ++ [lineFeed]).length := by simp
          rw [here, length, List.drop_left, List.take_left]
          refine ⟨isHeld', ?_, line ++ start, ?_, Or.inl ?_⟩
          · rw [← whole, here]
            simp only [List.append_assoc]
          · rw [List.mem_append, not_or]
            exact ⟨unbroken, unbroken'⟩
          · rw [List.append_assoc]
      | none =>
          have unbroken' := idxOf?_eq_none found
          cases available with
          | nil =>
              refine Ends.pure ?_ after rfl
              rintro _ rfl
              have nothing := ended rfl
              rw [nothing] at filled
              have isEnd : content after = [] := (List.append_eq_nil_iff.mp filled).2
              rw [isEnd, List.append_nil, List.append_nil] at whole
              refine ⟨isHeld', ?_, line, unbroken, Or.inr ⟨rfl, ?_⟩⟩
              · dsimp only
                rw [isEnd, ← whole, List.append_nil, List.append_nil]
              · dsimp only
                rw [isEnd, List.append_nil]
          | cons b rest =>
              refine Ends.pure ?_ after rfl
              rintro _ rfl
              refine ⟨⟨⟨?_, ?_⟩, isHeld'⟩, ?_⟩
              · rw [List.mem_append, not_or]
                exact ⟨unbroken, unbroken'⟩
              · rw [List.nil_append, List.append_assoc]
                exact whole
              · rw [List.length_cons] at long
                dsimp only [List.length_nil]
                omega

/-- `read_until` comes to the end of the first line. -/
theorem readUntil_ends (drains : Drains read content stalls held) (buffer left : Bytes) :
    Ends (fun world => content world = left ∧ held world) (readUntil read lineFeed buffer)
      fun result world => held world ∧
        FirstLine (buffer ++ left) result.2 (result.1 ++ content world) := by
  intro world holds
  obtain ⟨isLeft, isHeld⟩ := holds
  apply Ends.loop_measured
    (fun state world => Sofar content (buffer ++ left) state.1 state.2 world ∧ held world)
    (fun state world => state.1.length + (content world).length + stalls world)
    _ (buffer, []) world
  · refine ⟨⟨List.not_mem_nil, ?_⟩, isHeld⟩
    rw [isLeft]
    rfl
  · intro state size
    apply (readUntilTurn_ends drains (buffer ++ left) state size).weaken (fun _ holds => holds)
    intro result world met
    cases result with
    | inl next => exact met
    | inr found => exact met

/-- `Lines::next` hands out the first line of what is left. -/
theorem nextLine_ends (drains : Drains read content stalls held) (buffer left : Bytes) :
    Ends (fun world => content world = left ∧ held world) (nextLine read buffer)
      fun result world => held world ∧
        ∃ line, result.1 = lineItem line ∧
          FirstLine (buffer ++ left) line (result.2 ++ content world) := by
  apply Ends.attempt_bind _ (readUntil_ends drains buffer left)
  intro result
  apply Ends.pure
  intro world met
  exact ⟨met.1, result.2, rfl, met.2⟩

end Nixnas.Rust
