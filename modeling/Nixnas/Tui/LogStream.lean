import Mathlib.Data.List.Forall2
import Nixnas.Rust.Lines
import Nixnas.Tui.Build

/-!
# The output of a child in the log pane

`stream_lines` of `src/tui/src/build.rs`: a thread reads one of a child's pipes
line by line and sends each as a `Log` event.  The world holds the child's side
of the pipe as well: what it has yet to write, what it has written and nobody
has read, and whether it was cut off, which is what happens to a child that
still has to write when the thread drops its end.
-/

set_option autoImplicit false

namespace Nixnas.Tui.LogStream

open Nixnas.Logic Nixnas.Logic.Action
open Nixnas.Rust
open Nixnas.Tui.Build (BuildEvent)

/-! ## The pipe -/

/-- What happens until a `read` of the pipe returns: the child writes some bytes,
and a signal interrupts the read or it gets some of what is there. -/
structure Turn where
  wrote : Nat
  interrupted : Bool
  got : Nat

structure World where
  turns : List Turn
  unwritten : Bytes
  pipe : Bytes
  cutOff : Bool
  uiAlive : Bool
  events : List BuildEvent

abbrev Thread := Io World

/-- The next turn; at the end of the list the child writes all it has. -/
def World.turn (w : World) : Turn := w.turns.headD ⟨w.unwritten.length, false, bufCapacity⟩

def World.childWrites (w : World) (count : Nat) : World :=
  { w with unwritten := w.unwritten.drop count, pipe := w.pipe ++ w.unwritten.take count }

/-- A pipe has nothing to read as long as the child has not written; the end of
the stream is there when the child has closed its end. -/
def World.waits (w : World) : World := if w.pipe.isEmpty then w.childWrites 1 else w

def interruptedError : IoError := ⟨.interrupted, "Interrupted system call (os error 4)"⟩

/-- `read(2)` of the pipe. -/
def readPipe (size : Nat) : Thread Bytes :=
  perform fun w =>
    let turn := w.turn
    let w := { w.childWrites turn.wrote with turns := w.turns.tail }
    if turn.interrupted then (.error interruptedError, w)
    else
      let w := w.waits
      let chunk := readSome w.pipe size turn.got
      (.ok chunk, { w with pipe := w.pipe.drop chunk.length })

/-- The thread's end of the pipe goes away with its `BufReader`. -/
def dropReader : Thread Unit :=
  perform fun w => (.ok (), { w with cutOff := !w.unwritten.isEmpty })

/-- `tx.send`, which fails once the receiver is gone. -/
def send (event : BuildEvent) : Thread Unit :=
  perform fun w =>
    if w.uiAlive then (.ok (), { w with events := w.events ++ [event] })
    else (.error ⟨.other, "sending on a closed channel"⟩, w)

/-! ## `stream_lines` -/

/-- One turn of the `for` over `lines().map_while(Result::ok)`. -/
def forwardTurn (buffer : Bytes) : Thread (Bytes ⊕ Unit) := do
  let (item, buffer) ← nextLine readPipe buffer
  match item with
  | some (.ok line) =>
      match ← attempt (send (.log line)) with
      | .ok () => pure (.inl buffer)
      | .error _ => pure (.inr ())
  | some (.error _) => pure (.inr ())
  | none => pure (.inr ())

def streamLines : Thread Unit := do
  loop forwardTurn []
  dropReader

/-- The child has yet to write `stream`, and the log pane is empty. -/
def start (turns : List Turn) (stream : Bytes) : World where
  turns := turns
  unwritten := stream
  pipe := []
  cutOff := false
  uiAlive := true
  events := []

/-! ## What is asked of it -/

/-- The event of a line; what a line that is no text looks like is left open. -/
def Shows (line : Bytes) (event : BuildEvent) : Prop :=
  ∃ shown, event = .log shown ∧ ∀ text, fromUtf8 line = some text → shown = chomp text

/-- The thread comes to its end, each line of the stream has its event, in order,
and the child got to write all of it. -/
def Complete (turns : List Turn) (stream : Bytes) : Prop :=
  ∃ after cost, Runs streamLines (start turns stream) () after cost ∧
    List.Forall₂ Shows (pieces stream) after.events ∧
    after.unwritten = [] ∧ after.pipe = [] ∧ after.cutOff = false

/-! ## Reads of the pipe -/

def World.unread (w : World) : Bytes := w.pipe ++ w.unwritten

@[simp] theorem unread_childWrites (w : World) (count : Nat) :
    (w.childWrites count).unread = w.unread := by
  simp [World.unread, World.childWrites]

@[simp] theorem unread_waits (w : World) : w.waits.unread = w.unread := by
  unfold World.waits
  split <;> simp

@[simp] theorem turns_waits (w : World) : w.waits.turns = w.turns := by
  unfold World.waits
  split <;> rfl

theorem waits_pipe_nil {w : World} (empty : w.waits.pipe = []) : w.unread = [] := by
  unfold World.waits at empty
  split at empty
  · rename_i isEmpty
    rw [List.isEmpty_iff] at isEmpty
    simp only [World.childWrites, isEmpty, List.nil_append, List.take_eq_nil_iff] at empty
    rcases empty with one | nothing
    · cases one
    · rw [World.unread, isEmpty, nothing, List.append_nil]
  · rename_i some
    exact absurd (List.isEmpty_iff.mpr empty) some

/-- What the log pane and the receiver are like is no matter of the pipe. -/
def Beside (events : List BuildEvent) (w : World) : Prop := w.uiAlive = true ∧ w.events = events

theorem waits_beside {events : List BuildEvent} {w : World} (beside : Beside events w) :
    Beside events w.waits := by
  unfold World.waits
  split
  · exact beside
  · exact beside

theorem readPipe_drains (events : List BuildEvent) :
    Drains readPipe World.unread (fun w => w.turns.length) (Beside events) where
  read := by
    intro size some left stall
    apply Ends.attempt_perform
    intro w holds
    obtain ⟨⟨isLeft, isStall⟩, beside⟩ := holds
    subst isLeft isStall
    by_cases interrupted : w.turn.interrupted = true
    · dsimp only
      rw [if_pos interrupted]
      refine ⟨beside, rfl, unread_childWrites w _, ?_⟩
      have pending : w.turns ≠ [] := by
        intro noTurns
        simp [World.turn, noTurns] at interrupted
      rw [List.length_tail]
      exact Nat.sub_lt (List.length_pos_iff.mpr pending) Nat.one_pos
    · dsimp only
      rw [if_neg interrupted]
      generalize isNext : { w.childWrites w.turn.wrote with turns := w.turns.tail } = next
      have fewer : next.turns.length ≤ w.turns.length := by
        rw [← isNext, List.length_tail]
        exact Nat.sub_le _ _
      have same : next.unread = w.unread := by
        rw [← isNext]
        exact unread_childWrites w _
      have besideNext : Beside events next := by
        rw [← isNext]
        exact beside
      refine ⟨waits_beside besideNext, ?_, ?_, ?_⟩
      · rw [← same, ← unread_waits next]
        unfold World.unread
        dsimp only
        rw [← List.append_assoc, readSome_append_drop]
      · intro empty
        rw [← same]
        exact waits_pipe_nil (readSome_eq_nil some empty)
      · rw [← turns_waits next] at fewer
        exact fewer

/-! ## The loop -/

def Sent (line : Bytes) (event : BuildEvent) : Prop :=
  ∃ text, fromUtf8 line = some text ∧ event = .log (chomp text)

theorem Sent.shows {line : Bytes} {event : BuildEvent} (sent : Sent line event) :
    Shows line event := by
  obtain ⟨text, isText, rfl⟩ := sent
  refine ⟨chomp text, rfl, ?_⟩
  intro other isOther
  rw [isText] at isOther
  cases isOther
  rfl

/-- The lines forwarded so far, and the ones in the buffer and the pipe. -/
def Forwarded (stream buffer : Bytes) (w : World) : Prop :=
  w.uiAlive = true ∧ ∃ done, pieces stream = done ++ pieces (buffer ++ w.unread) ∧
    List.Forall₂ Sent done w.events

/-- All lines went through, and none is left. -/
def Through (stream : Bytes) (w : World) : Prop :=
  w.unread = [] ∧ List.Forall₂ Sent (pieces stream) w.events

/-- The loop broke off at a line that is no text. -/
def BrokeOff (stream : Bytes) (w : World) : Prop :=
  ∃ done bad more, pieces stream = done ++ bad :: more ∧ fromUtf8 bad = none ∧
    List.Forall₂ Sent done w.events

theorem send_ends (events : List BuildEvent) (left : Bytes) (event : BuildEvent) :
    Ends (fun w => w.unread = left ∧ Beside events w) (send event)
      fun _ w => w.unread = left ∧ Beside (events ++ [event]) w := by
  intro w holds
  obtain ⟨isLeft, alive, isEvents⟩ := holds
  refine ⟨(), { w with events := w.events ++ [event] }, 1, ?_, isLeft, alive, ?_⟩
  · apply Runs.perform
    rw [if_pos alive]
  · dsimp only
    rw [isEvents]

/-- A turn forwards the first line of what is left, or it is the last one. -/
theorem forwardTurn_ends (stream buffer : Bytes) (size : Nat) :
    Ends (fun w => (buffer ++ w.unread).length = size ∧ Forwarded stream buffer w)
      (forwardTurn buffer) fun
        | .inl next => fun w => Forwarded stream next w ∧ (next ++ w.unread).length < size
        | .inr () => fun w => Through stream w ∨ BrokeOff stream w := by
  intro w holds
  obtain ⟨isSize, alive, done, isDone, sent⟩ := holds
  have next := nextLine_ends (readPipe_drains w.events) buffer w.unread
  refine Ends.bind _ next ?_ w ⟨rfl, alive, rfl⟩
  rintro ⟨item, buffer'⟩ middle ⟨⟨alive', sameEvents⟩, line, isItem, first⟩
  dsimp only at isItem first ⊢
  subst isItem
  cases line with
  | nil =>
      refine Ends.pure ?_ middle rfl
      rintro _ rfl
      have nothing := first.stream_nil
      have rest := first.splits
      rw [nothing, List.nil_append] at rest
      rw [nothing, pieces, List.append_nil] at isDone
      refine Or.inl ⟨(List.append_eq_nil_iff.mp rest.symm).2, ?_⟩
      rw [isDone, sameEvents]
      exact sent
  | cons b rest =>
      have split := first.pieces_eq (List.cons_ne_nil b rest)
      rw [split] at isDone
      cases decoded : fromUtf8 (b :: rest) with
      | none =>
          have isItem : lineItem (b :: rest) = some (.error .invalidUtf8) := by
            simp [lineItem, decoded]
          rw [isItem]
          refine Ends.pure ?_ middle rfl
          rintro _ rfl
          refine Or.inr ⟨done, b :: rest, _, isDone, decoded, ?_⟩
          rw [sameEvents]
          exact sent
      | some text =>
          have isItem : lineItem (b :: rest) = some (.ok (chomp text)) := by
            simp [lineItem, decoded]
          rw [isItem]
          have sends := send_ends w.events middle.unread (.log (chomp text))
          refine Ends.attempt_bind _ sends ?_ middle ⟨rfl, alive', sameEvents⟩
          rintro _ after ⟨sameUnread, alive'', added⟩
          refine Ends.pure ?_ after rfl
          rintro _ rfl
          rw [← sameUnread] at first isDone
          refine ⟨⟨alive'', done ++ [b :: rest], ?_, ?_⟩, ?_⟩
          · rw [isDone, List.append_assoc, List.singleton_append]
          · rw [added]
            exact List.rel_append sent (.cons ⟨text, decoded, rfl⟩ .nil)
          · rw [first.splits, List.length_append, List.length_cons] at isSize
            omega

theorem streamLines_ends (turns : List Turn) (stream : Bytes) :
    ∃ after cost, Runs streamLines (start turns stream) () after cost ∧
      ((after.unread = [] ∧ after.cutOff = false ∧
          List.Forall₂ Sent (pieces stream) after.events) ∨ BrokeOff stream after) := by
  have loops : Ends (Forwarded stream []) (loop forwardTurn [])
      fun _ w => Through stream w ∨ BrokeOff stream w := by
    apply Ends.loop_measured (Forwarded stream) (fun buffer w => (buffer ++ w.unread).length)
    intro buffer size
    apply (forwardTurn_ends stream buffer size).weaken (fun _ holds => holds)
    intro result w met
    cases result with
    | inl next => exact met
    | inr last => exact met
  have fresh : Forwarded stream [] (start turns stream) := ⟨rfl, [], rfl, .nil⟩
  obtain ⟨⟨⟩, last, cost, run, outcome⟩ := loops _ fresh
  refine ⟨{ last with cutOff := !last.unwritten.isEmpty }, cost + 1, run.bind (Runs.perform rfl), ?_⟩
  rcases outcome with through | broke
  · have written := (List.append_eq_nil_iff.mp through.1).2
    exact Or.inl ⟨through.1, by simp [written], through.2⟩
  · exact Or.inr broke

/-! ## Completeness -/

/-- An event for each line of a list is as many events as lines. -/
theorem BrokeOff.not_shown {stream : Bytes} {w : World} (broke : BrokeOff stream w) :
    ¬ List.Forall₂ Shows (pieces stream) w.events := by
  obtain ⟨done, bad, more, split, _, sent⟩ := broke
  intro shown
  have all := shown.length_eq
  have some := sent.length_eq
  rw [split, List.length_append, List.length_cons] at all
  omega

theorem BrokeOff.bad {stream : Bytes} {w : World} (broke : BrokeOff stream w) :
    ∃ line ∈ pieces stream, fromUtf8 line = none := by
  obtain ⟨done, bad, more, split, isBad, _⟩ := broke
  refine ⟨bad, ?_, isBad⟩
  rw [split]
  exact List.mem_append_right done List.mem_cons_self

/-- Every line that has its event by itself is text. -/
theorem sent_text {lines : List Bytes} {events : List BuildEvent}
    (sent : List.Forall₂ Sent lines events) : ∀ line ∈ lines, fromUtf8 line ≠ none := by
  induction sent with
  | nil => exact fun _ member => absurd member List.not_mem_nil
  | cons head _ ih =>
      intro line member
      rcases List.mem_cons.mp member with rfl | member
      · obtain ⟨text, isText, _⟩ := head
        rw [isText]
        exact Option.some_ne_none text
      · exact ih line member

theorem complete_iff_text (turns : List Turn) (stream : Bytes) :
    Complete turns stream ↔ ∀ line ∈ pieces stream, fromUtf8 line ≠ none := by
  obtain ⟨after, cost, run, outcome⟩ := streamLines_ends turns stream
  constructor
  · rintro ⟨after', cost', run', shown, _⟩
    obtain ⟨-, rfl⟩ := run.unique run'
    rcases outcome with ⟨_, _, sent⟩ | broke
    · exact sent_text sent
    · exact absurd shown broke.not_shown
  · intro text
    rcases outcome with ⟨nothing, notCut, sent⟩ | broke
    · obtain ⟨noPipe, allWritten⟩ := List.append_eq_nil_iff.mp nothing
      exact ⟨after, cost, run, sent.imp fun _ _ => Sent.shows, allWritten, noPipe, notCut⟩
    · obtain ⟨line, member, isBad⟩ := broke.bad
      exact absurd isBad (text line member)

/-- The output of a child goes through whole, however it is cut into writes and
reads, exactly when each of its lines is text. -/
theorem streamLines_complete_iff (stream : Bytes) :
    (∀ turns, Complete turns stream) ↔ ∀ line ∈ pieces stream, fromUtf8 line ≠ none := by
  constructor
  · exact fun every => (complete_iff_text [] stream).mp (every [])
  · exact fun text turns => (complete_iff_text turns stream).mpr text

/-- A line in Latin-1 ends the log. -/
theorem streamLines_latin1_not_complete :
    ¬ ∀ turns stream, Complete turns stream := by
  intro every
  have text := (complete_iff_text [] [0xE9, 10, 97, 10]).mp (every _ _)
  exact text [0xE9, 10] (by decide) (by decide)

/-- A child that writes on after such a line is cut off. -/
example :
    (streamLines (start [⟨2, false, 2⟩] [0xE9, 10, 97, 10]) 20).world.cutOff = true := by
  decide

end Nixnas.Tui.LogStream
