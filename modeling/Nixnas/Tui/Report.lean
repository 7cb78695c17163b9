import Nixnas.Tui.Secrets

/-!
# What the build worker reports

The worker's last event is sent after the pipeline returned, and by nothing
else: who has seen it knows that every guard has run.
-/

set_option autoImplicit false

namespace Nixnas.Tui.Build

open Nixnas.Logic Nixnas.Logic.Action

def World.dones (w : World) : List BuildEvent := w.events.filter BuildEvent.isDone

theorem dones_quiet : Quiet World.dones := by
  intro event w goesOn
  simp [World.dones, goesOn]

section Worker

variable (s : Setting) (a : Answers) (cfg : Config) (passphrase : String) (size : SizeOverride)

theorem runPipeline_dones (w : World) (fuel : Nat) :
    (runPipeline s a cfg passphrase size w fuel).world.dones = w.dones :=
  runPipeline_preserves s a cfg dones_quiet (fun _ _ => rfl) (fun _ _ _ => rfl) passphrase size w
    fuel

/-- The worker is stopped inside the pipeline, or it returns after it. -/
theorem spawnBuild_cases (w : World) (fuel : Nat) :
    (∃ stopped, runPipeline s a cfg passphrase size w fuel = .stopped stopped ∧
      spawnBuild s a cfg passphrase size w fuel = .stopped stopped) ∨
    ∃ result left, (runPipeline s a cfg passphrase size w fuel).returned = some result ∧
      spawnBuild s a cfg passphrase size w fuel =
        .ok () { (runPipeline s a cfg passphrase size w fuel).world with
          events := (runPipeline s a cfg passphrase size w fuel).world.events ++
            [.done result] } left := by
  have unfolded : spawnBuild s a cfg passphrase size w fuel =
      Action.bind (attempt (runPipeline s a cfg passphrase size))
        (fun result => send (.done result)) w fuel := rfl
  rw [unfolded]
  unfold Action.bind attempt
  cases outcome : runPipeline s a cfg passphrase size w fuel with
  | ok value next left => exact Or.inr ⟨.ok value, left, rfl, rfl⟩
  | error e next left => exact Or.inr ⟨.error e, left, rfl, rfl⟩
  | stopped next => exact Or.inl ⟨next, rfl, rfl⟩

/-- A worker that started without an event and has sent its last one has
returned. -/
theorem returned_of_done {w : World} {fuel : Nat} (fresh : w.events = [])
    (done : (spawnBuild s a cfg passphrase size w fuel).world.events.any BuildEvent.isDone = true) :
    (spawnBuild s a cfg passphrase size w fuel).returned ≠ none := by
  rcases spawnBuild_cases s a cfg passphrase size w fuel with ⟨next, stopped, same⟩ | ⟨_, _, _, same⟩
  · have none_sent := runPipeline_dones s a cfg passphrase size w fuel
    rw [stopped] at none_sent
    rw [same] at done
    obtain ⟨event, sent, isDone⟩ := List.any_eq_true.mp done
    have member : event ∈ next.dones := List.mem_filter.mpr ⟨sent, isDone⟩
    have empty : next.dones = [] := by
      have start : w.dones = [] := by rw [World.dones, fresh]; rfl
      exact none_sent.trans start
    rw [empty] at member
    cases member
  · rw [same]
    exact Option.some_ne_none _

/-- A worker that returned left no secret it created, if every one was covered. -/
theorem spawnBuild_cleansUp {w : World} {fuel : Nat} (covered : Covered a cfg w)
    (returned : (spawnBuild s a cfg passphrase size w fuel).returned ≠ none) :
    CleansUp w (spawnBuild s a cfg passphrase size w fuel).world := by
  rcases spawnBuild_cases s a cfg passphrase size w fuel with ⟨_, _, same⟩ | ⟨result, left, ended, same⟩
  · rw [same] at returned
    exact absurd rfl returned
  · have ended : (runPipeline s a cfg passphrase size w fuel).returned ≠ none := by
      rw [ended]
      exact Option.some_ne_none _
    have clean := cleansUp_of_covered s a cfg passphrase size ended covered
    rw [same]
    exact ⟨clean.files, clean.pki⟩

end Worker

theorem CleansUp.refl (w : World) : CleansUp w w := ⟨fun _ free => free, fun free => free⟩

theorem CleansUp.trans {first second third : World} (one : CleansUp first second)
    (two : CleansUp second third) : CleansUp first third where
  files file free := two.files file (one.files file free)
  pki free := two.pki (one.pki free)

end Nixnas.Tui.Build
