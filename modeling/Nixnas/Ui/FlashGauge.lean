import Nixnas.Tui.FlashProtocol
import Nixnas.Ui.BuildFlash

/-!
# What the screens show of a flash

The Flash and the Build & Flash screens drain the events of the worker in
batches of any size.  However the batches fall, the screen is where the events
drained so far say the worker is: it runs with the title and the byte counter of
that leg until the verdict, and is done with the verdict from then on.
-/

set_option autoImplicit false

namespace Nixnas.Ui.Flash

open Nixnas.Logic
open Nixnas.Tui.Flash
open Nixnas.Tui.Sudo (Env)
open Nixnas.Ui.BuildFlash (BuildFlowScreen)

/-- The byte counter, before the first report and after it. -/
def counter (done total : Nat) : Nat × Nat := if done = 0 then (0, 0) else (done, total)

/-- The title and the counter of a leg. -/
def gauge (imageSize : Nat) (job : FlashJob) : Leg → Option (String × (Nat × Nat))
  | .start | .finished _ => none
  | .backup done => some (backupTitle, counter done (job.devSize.getD 0))
  | .write done => some (writeTitle, counter done imageSize)
  | .verify => some (verifyTitle, (0, 0))
  | .grow => some (growTitle, (0, 0))
  | .growStore => some (growStoreTitle, (0, 0))

/-- The title and the counter are those of the leg. -/
def Shown (imageSize : Nat) (job : FlashJob) (leg : Leg) (title : String) (progress : Nat × Nat) :
    Prop := ∀ shown, gauge imageSize job leg = some shown → (title, progress) = shown

/-- What a batch led to is what the leg after it says. -/
def Led (imageSize : Nat) (job : FlashJob) (leg : Leg)
    (folded : String × (Nat × Nat) × List LogCall × Option (Except String String)) : Prop :=
  Shown imageSize job leg folded.1 folded.2.1 ∧
    match leg with
    | .finished success => ∃ result, folded.2.2.2 = some result ∧ result.toBool = success
    | _ => folded.2.2.2 = none

variable {imageSize : Nat} {job : FlashJob} {leg after : Leg}

/-! ## One batch -/

theorem shown_phase {title : String} (step : leg.next imageSize job (.phase title) = some after) :
    Shown imageSize job after title (0, 0) := by
  intro shown is
  rcases next_phase step with ⟨rfl, rfl⟩ | ⟨rfl, rfl⟩ | ⟨rfl, rfl⟩ | ⟨rfl, rfl⟩ | ⟨rfl, rfl⟩ <;>
    exact Option.some.inj is

theorem shown_progress {more total : Nat} {title : String} {progress : Nat × Nat}
    (before : Shown imageSize job leg title progress)
    (step : leg.next imageSize job (.progress more total) = some after) :
    Shown imageSize job after title (more, total) := by
  rcases next_progress step with ⟨done, rfl, less, rfl, rfl⟩ | ⟨done, rfl, less, _, rfl, rfl⟩
  · intro shown is
    obtain ⟨rfl, _⟩ := Prod.mk.inj (before _ rfl)
    rw [gauge, counter, if_neg (by omega), Option.some.injEq] at is
    exact is
  · intro shown is
    obtain ⟨rfl, _⟩ := Prod.mk.inj (before _ rfl)
    rw [gauge, counter, if_neg (by omega), Option.some.injEq] at is
    exact is

/-- Nothing follows the verdict. -/
theorem replay_over {success : Bool} {events : List FlashEvent}
    (followed : Machine.replay (Leg.next imageSize job) (.finished success) events = some after) :
    events = [] ∧ after = .finished success := by
  cases events with
  | nil =>
      simp only [Machine.replay, Option.some.injEq] at followed
      exact ⟨rfl, followed.symm⟩
  | cons event rest =>
      have stuck : Leg.next imageSize job (.finished success) event = none := by
        cases event with
        | phase title | progress done total => rfl
        | done result => rfl
      simp [Machine.replay, stuck] at followed

theorem led_of_follow (events : List FlashEvent) (title : String) (progress : Nat × Nat)
    (before : Shown imageSize job leg title progress) (running : ∀ success, leg ≠ .finished success)
    (followed : Machine.replay (Leg.next imageSize job) leg events = some after) :
    Led imageSize job after (foldEvents title progress events) := by
  induction events generalizing leg title progress with
  | nil =>
      simp only [Machine.replay, Option.some.injEq] at followed
      subst after
      refine ⟨before, ?_⟩
      cases leg with
      | finished success => exact absurd rfl (running success)
      | _ => rfl
  | cons event rest ih =>
      simp only [Machine.replay] at followed
      cases step : leg.next imageSize job event with
      | none => simp [step] at followed
      | some middle =>
          simp only [step] at followed
          cases event with
          | phase next =>
              have onward : ∀ success, middle ≠ .finished success := by
                rcases next_phase step with ⟨rfl, _⟩ | ⟨rfl, _⟩ | ⟨rfl, _⟩ | ⟨rfl, _⟩ | ⟨rfl, _⟩ <;>
                  simp
              exact ih next (0, 0) (shown_phase step) onward followed
          | progress done total =>
              have onward : ∀ success, middle ≠ .finished success := by
                rcases next_progress step with ⟨_, _, _, _, rfl⟩ | ⟨_, _, _, _, _, rfl⟩ <;> simp
              exact ih title (done, total) (shown_progress before step) onward followed
          | done result =>
              obtain ⟨_, rfl⟩ := next_verdict.mp step
              obtain ⟨rfl, rfl⟩ := replay_over followed
              exact ⟨fun _ is => by simp [gauge] at is, result, rfl, rfl⟩

/-! ## The screens -/

/-- Where a screen stands in a flash. -/
inductive Sight where
  | flashing
  | done (ok : Bool)
  | elsewhere
  deriving DecidableEq, Repr

/-- What a screen has of a flash. -/
structure Panel where
  rx : Bool
  sight : Sight
  title : String
  progress : Nat × Nat

def FlashScreen.panel (st : FlashScreen) : Panel where
  rx := st.rx
  sight := match st.phase with
    | .running => .flashing
    | .done ok => .done ok
    | _ => .elsewhere
  title := st.gaugeTitle
  progress := st.progress

def flowPanel (st : BuildFlowScreen) : Panel where
  rx := st.flashRx
  sight := match st.stage with
    | .flashing => .flashing
    | .done ok => .done ok
    | _ => .elsewhere
  title := st.gaugeTitle
  progress := st.progress

def Panel.drain (panel : Panel) (events : List FlashEvent) : Panel :=
  if panel.rx then
    match foldEvents panel.title panel.progress events with
    | (title, progress, _, none) => { panel with title := title, progress := progress }
    | (title, progress, _, some result) => ⟨false, .done result.toBool, title, progress⟩
  else panel

theorem panel_drainEvents (st : FlashScreen) (events : List FlashEvent) :
    (st.drainEvents events).1.panel = st.panel.drain events := by
  cases held : st.rx with
  | false => simp [FlashScreen.drainEvents, Panel.drain, FlashScreen.panel, held]
  | true =>
      have title : st.panel.title = st.gaugeTitle := rfl
      have progress : st.panel.progress = st.progress := rfl
      have receives : st.panel.rx = true := held
      rw [FlashScreen.drainEvents, held, if_pos rfl, Panel.drain, if_pos receives, title, progress]
      generalize foldEvents st.gaugeTitle st.progress events = folded
      obtain ⟨title, progress, calls, verdict⟩ := folded
      match verdict with
      | none => simp [FlashScreen.panel, held]
      | some (.ok message) => rfl
      | some (.error message) => rfl

theorem flowPanel_drainFlash (st : BuildFlowScreen) (events : List FlashEvent) :
    flowPanel (st.drainFlash events).1 = (flowPanel st).drain events := by
  cases held : st.flashRx with
  | false => simp [BuildFlowScreen.drainFlash, Panel.drain, flowPanel, held]
  | true =>
      have title : (flowPanel st).title = st.gaugeTitle := rfl
      have progress : (flowPanel st).progress = st.progress := rfl
      have receives : (flowPanel st).rx = true := held
      rw [BuildFlowScreen.drainFlash, held, if_pos rfl, Panel.drain, if_pos receives, title,
        progress]
      generalize foldEvents st.gaugeTitle st.progress events = folded
      obtain ⟨title, progress, calls, verdict⟩ := folded
      match verdict with
      | none => simp [flowPanel, held]
      | some (.ok message) => rfl
      | some (.error message) => rfl

/-- The panel is where the leg says. -/
def Panel.Tells (imageSize : Nat) (job : FlashJob) (panel : Panel) (leg : Leg) : Prop :=
  Shown imageSize job leg panel.title panel.progress ∧
    match leg with
    | .finished success => panel.rx = false ∧ panel.sight = .done success
    | _ => panel.rx = true ∧ panel.sight = .flashing

/-- A leg is the verdict, or a panel that tells it is running. -/
theorem Panel.Tells.cases {panel : Panel} (tells : panel.Tells imageSize job leg) :
    (∃ success, leg = .finished success) ∨
      (∀ success, leg ≠ .finished success) ∧ panel.rx = true ∧ panel.sight = .flashing := by
  obtain ⟨_, state⟩ := tells
  cases leg with
  | finished success => exact .inl ⟨success, rfl⟩
  | _ => exact .inr ⟨fun _ => by simp, state⟩

theorem tells_drain {panel : Panel} {batch : List FlashEvent}
    (tells : panel.Tells imageSize job leg)
    (followed : Machine.replay (Leg.next imageSize job) leg batch = some after) :
    (panel.drain batch).Tells imageSize job after := by
  rcases tells.cases with ⟨success, rfl⟩ | ⟨onward, held, flashing⟩
  · obtain ⟨rfl, rfl⟩ := replay_over followed
    rw [Panel.drain, tells.2.1]
    exact tells
  · obtain ⟨shown, verdict⟩ := led_of_follow batch panel.title panel.progress tells.1 onward followed
    rw [Panel.drain, if_pos held]
    generalize foldEvents panel.title panel.progress batch = folded at shown verdict
    obtain ⟨title, progress, calls, decided⟩ := folded
    cases after with
    | finished success =>
        obtain ⟨result, given, rfl⟩ := verdict
        dsimp only at given
        subst given
        exact ⟨shown, rfl, rfl⟩
    | start | backup done | write done | verify | grow | growStore =>
        dsimp only at verdict
        subst verdict
        exact ⟨shown, held, flashing⟩

/-- The panel after batches of events. -/
def Panel.drains (panel : Panel) (batches : List (List FlashEvent)) : Panel :=
  batches.foldl Panel.drain panel

theorem tells_drains (batches : List (List FlashEvent)) {panel : Panel}
    (tells : panel.Tells imageSize job leg)
    (followed : Machine.replay (Leg.next imageSize job) leg batches.flatten = some after) :
    (panel.drains batches).Tells imageSize job after := by
  induction batches generalizing panel leg with
  | nil =>
      simp only [List.flatten_nil, Machine.replay, Option.some.injEq] at followed
      exact followed ▸ tells
  | cons batch rest ih =>
      rw [List.flatten_cons, Machine.replay_append, Option.bind_eq_some_iff] at followed
      obtain ⟨middle, first, later⟩ := followed
      exact ih (tells_drain tells first) later

/-! ## Screen and worker -/

def FlashScreen.drains (st : FlashScreen) (batches : List (List FlashEvent)) : FlashScreen :=
  batches.foldl (fun st batch => (st.drainEvents batch).1) st

def flowDrains (st : BuildFlowScreen) (batches : List (List FlashEvent)) : BuildFlowScreen :=
  batches.foldl (fun st batch => (st.drainFlash batch).1) st

theorem panel_drains (st : FlashScreen) (batches : List (List FlashEvent)) :
    (st.drains batches).panel = st.panel.drains batches := by
  induction batches generalizing st with
  | nil => rfl
  | cons batch rest ih =>
      change (FlashScreen.drains (st.drainEvents batch).1 rest).panel = _
      rw [ih, panel_drainEvents]
      rfl

theorem flowPanel_drains (st : BuildFlowScreen) (batches : List (List FlashEvent)) :
    flowPanel (flowDrains st batches) = (flowPanel st).drains batches := by
  induction batches generalizing st with
  | nil => rfl
  | cons batch rest ih =>
      change flowPanel (flowDrains (st.drainFlash batch).1 rest) = _
      rw [ih, flowPanel_drainFlash]
      rfl

/-- Whatever the system answers the worker, wherever it stands, and however the
events it sent so far are drained, both screens show the leg that the drained
events lead to. -/
theorem screens_show_worker (env : Env) (job : FlashJob) (world : FlashWorld) (fuel : Nat)
    (fresh : world.events = []) (st : FlashScreen) (armed : st.rx = true ∧ st.phase = .running)
    (flow : BuildFlowScreen) (flowArmed : flow.flashRx = true ∧ flow.stage = .flashing)
    (batches : List (List FlashEvent)) (rest : List FlashEvent)
    (sent : (spawnFlash env job world fuel).world.events = batches.flatten ++ rest) :
    ∃ leg, Machine.replay (Leg.next (env.image job.image).length job) .start batches.flatten =
        some leg ∧
      (st.drains batches).panel.Tells (env.image job.image).length job leg ∧
      (flowPanel (flowDrains flow batches)).Tells (env.image job.image).length job leg := by
  obtain ⟨last, followed⟩ := spawnFlash_follows env job world fuel fresh
  unfold Reached Action.At at followed
  rw [sent] at followed
  obtain ⟨leg, drained, _⟩ := Action.replay_prefix followed
  have first : st.panel.Tells (env.image job.image).length job .start := by
    refine ⟨fun _ is => by simp [gauge] at is, armed.1, ?_⟩
    simp [FlashScreen.panel, armed.2]
  have flowFirst : (flowPanel flow).Tells (env.image job.image).length job .start := by
    refine ⟨fun _ is => by simp [gauge] at is, flowArmed.1, ?_⟩
    simp [flowPanel, flowArmed.2]
  refine ⟨leg, drained, ?_, ?_⟩
  · rw [panel_drains]
    exact tells_drains batches first drained
  · rw [flowPanel_drains]
    exact tells_drains batches flowFirst drained

/-- The Flash screen right after it armed the worker. -/
def armedScreen : FlashScreen :=
  ⟨.empty, some ("nixnas.raw", 3), true, none, .running, true, "", (0, 0), none, none⟩

def armedFlow : BuildFlowScreen where
  toDiskList := .empty
  pickError := none
  picked := some ("sda", 3)
  backup := true
  stage := .flashing
  steps := []
  log := []
  scroll := 0
  follow := true
  buildRx := false
  built := some ("nixnas.raw", 3)
  flashRx := true
  gaugeTitle := ""
  progress := (0, 0)
  message := none
  sessionLog := none

/-- Five events drained in two batches: the screens are in the overwrite. -/
theorem ready_screens_show :
    ∃ batches : List (List FlashEvent), batches.flatten.length = 5 ∧
      ∃ leg, Machine.replay (Leg.next 3 readyJob) .start batches.flatten = some leg ∧
        (armedScreen.drains batches).panel.Tells 3 readyJob leg ∧
        (flowPanel (flowDrains armedFlow batches)).Tells 3 readyJob leg := by
  have many : (spawnFlash readyEnv readyJob readyWorld 100).world.events.length = 8 := by
    decide +kernel
  generalize events : (spawnFlash readyEnv readyJob readyWorld 100).world.events = sent at many
  refine ⟨[sent.take 2, (sent.drop 2).take 3], ?_, ?_⟩
  · simp [many]
  · refine screens_show_worker readyEnv readyJob readyWorld 100 rfl armedScreen ⟨rfl, rfl⟩ armedFlow
      ⟨rfl, rfl⟩ [sent.take 2, (sent.drop 2).take 3] ((sent.drop 2).drop 3) ?_
    rw [events]
    simp only [List.flatten_cons, List.flatten_nil, List.append_nil, List.append_assoc,
      List.take_append_drop]

end Nixnas.Ui.Flash
