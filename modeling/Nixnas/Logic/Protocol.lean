import Nixnas.Logic.Effect
import Nixnas.Logic.Machine

/-!
# Protocols of messages

A protocol is a partial step function on the messages a program sends.  A
program keeps to it when the messages it has sent can be followed from the start
at every point of every run, also where it is stopped.  The rules say how the
place in the protocol moves with the parts of a program: what sends nothing
stays where it is, and one message is one step.
-/

set_option autoImplicit false

namespace Nixnas.Logic

namespace Action

variable {World Error α Place Message : Type} {next : Place → Message → Option Place}
  {sent : World → List Message} {start place after : Place}

/-- The messages of the world lead to the place. -/
def At (next : Place → Message → Option Place) (sent : World → List Message) (start place : Place)
    (world : World) : Prop := Machine.replay next start (sent world) = some place

theorem replay_concat {messages : List Message} {message : Message}
    (held : Machine.replay next start messages = some place)
    (step : next place message = some after) :
    Machine.replay next start (messages ++ [message]) = some after := by
  rw [Machine.replay_append, held]
  simp [Machine.replay, step]

/-- What has been sent so far keeps to a protocol that all of it keeps to. -/
theorem replay_prefix {first second : List Message}
    (held : Machine.replay next start (first ++ second) = some place) :
    ∃ middle, Machine.replay next start first = some middle ∧
      Machine.replay next middle second = some place := by
  rw [Machine.replay_append] at held
  exact Option.bind_eq_some_iff.mp held

theorem Spec.exists {Index : Type} {before : Index → World → Prop} {action : Action World Error α}
    {post : Post World Error α} (each : ∀ index, Spec (before index) action post) :
    Spec (fun world => ∃ index, before index world) action post := by
  intro world fuel held
  obtain ⟨index, here⟩ := held
  exact each index world fuel here

/-- A fact about no world that every answer of the program has. -/
theorem Spec.told (fact : α → Prop) {action : Action World Error α} {post : Post World Error α}
    {before : World → Prop}
    (tells : Spec (fun _ => True) action (.onReturn (fun value _ => fact value) fun _ _ => True))
    (run : Spec before action
      ⟨fun value world => fact value → post.ok value world, post.error, post.stopped⟩) :
    Spec before action post := by
  intro world fuel held
  have told := tells world fuel trivial
  have met := run world fuel held
  cases outcome : action world fuel with
  | ok value next rest =>
      rw [outcome] at told met
      exact met told
  | error e next rest =>
      rw [outcome] at met
      exact met
  | stopped next =>
      rw [outcome] at met
      exact met

/-- What sends nothing stays where it is. -/
theorem At.quiet {action : Action World Error α} (silent : Preserves sent action) (place : Place) :
    Spec (At next sent start place) action (.always (At next sent start place)) :=
  silent.always fun messages => Machine.replay next start messages = some place

/-- One message is one step. -/
theorem At.send {send : World → World} {message : Message}
    (sends : ∀ world, sent (send world) = sent world ++ [message])
    (step : next place message = some after) {post : Post World Error Unit}
    (ok : ∀ world, At next sent start after world → post.ok () world) :
    Spec (At next sent start place) (modify send) post := by
  refine Spec.modify fun world held => ok _ ?_
  unfold At at held ⊢
  rw [sends]
  exact replay_concat held step

end Action

end Nixnas.Logic
