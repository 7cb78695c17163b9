import Nixnas.Logic.Machine
import Nixnas.Logic.Scrollback
import Nixnas.Ui.BuildFlash
import Nixnas.Ui.Verify

/-!
# The log panes

Beside the step checklist, the Build, the Build & Flash and the Verify screen
show a window of the lines that their worker sent.  Drawing it puts the window
where the reader is: `draw_build_body` and `draw_checks` move the top line that
the keys of the screen and the trimming of the log have moved before.
-/

set_option autoImplicit false

namespace Nixnas.Ui

open Nixnas.Logic
open Nixnas.Tui.Build (BuildEvent Config StepState)
open Nixnas.Tui.Flash (FlashEvent)
open Nixnas.Tui.Verify (VerifyEvent)

/-! ## A pane -/

/-- The lines, the top visible one, and whether the newest lines are followed. -/
structure LogPane where
  log : List String
  scroll : Nat
  follow : Bool

namespace LogPane

/-- The top line once the pane is drawn. -/
def drawn (pane : LogPane) (height : Nat) : LogPane :=
  let maxScroll := pane.log.length - height
  { pane with scroll := if pane.follow then maxScroll else min pane.scroll maxScroll }

/-- The visible lines of a drawn pane. -/
def window (pane : LogPane) (height : Nat) : List String := (pane.log.drop pane.scroll).take height

def scrollKey (pane : LogPane) : KeyCode → LogPane
  | .up => { pane with follow := false, scroll := pane.scroll - 1 }
  | .down => { pane with scroll := pane.scroll + 1 }
  | .pageUp => { pane with follow := false, scroll := pane.scroll - 20 }
  | .pageDown => { pane with scroll := pane.scroll + 20 }
  | .«end» | .char 'f' => { pane with follow := true }
  | _ => pane

end LogPane

/-- When a log is trimmed, and to how many lines. -/
structure Limit where
  most : Nat
  newest : Nat
  fits : newest ≤ most

def LogPane.trimmed (pane : LogPane) : Option Limit → LogPane
  | none => pane
  | some limit =>
      if pane.log.length > limit.most then
        let cut := pane.log.length - limit.newest
        { pane with log := pane.log.drop cut, scroll := pane.scroll - cut }
      else pane

/-- The lines of a batch are added, if there is a receiver to pull it. -/
def LogPane.pull (pane : LogPane) (limit : Option Limit) : Option (List String) → LogPane
  | none => pane
  | some lines => { pane with log := pane.log ++ lines }.trimmed limit

/-- What a pane says of its step and log. -/
structure Body where
  stepsTitle : String
  items : List String
  logTitle : String
  window : List String

def stepMark : StepState → String
  | .pending => "  ○ "
  | .running => "  ▶ "
  | .ok => "  ✓ "
  | .skipped => "  ‒ "
  | .fail => "  ✗ "

def stepItems (names : List String) (steps : List StepState) : List String :=
  (names.zip steps).map fun (name, state) => stepMark state ++ name

/-! ## The screens' panes -/

namespace Build

def logLine : BuildEvent → Option String
  | .log line => some line
  | _ => none

def BuildScreen.logPane (st : BuildScreen) : LogPane := ⟨st.log, st.scroll, st.follow⟩

def logLimit : Limit := ⟨maxLogLines, maxLogLines - trimChunk, by decide⟩

/-- The body, and where `scroll` is left. -/
def drawBuildBody (stepsTitle : String) (steps : List StepState) (pane : LogPane) (height : Nat) :
    Body × Nat :=
  let drawn := pane.drawn height
  ({ stepsTitle := stepsTitle
     items := stepItems Nixnas.Tui.Build.stepNames steps
     logTitle := if pane.follow then "Log (following)" else "Log"
     window := drawn.window height },
    drawn.scroll)

def BuildScreen.draw (st : BuildScreen) (height : Nat) : Option Body × BuildScreen :=
  let (body, scroll) := drawBuildBody st.title st.steps st.logPane height
  (some body, { st with scroll := scroll })

end Build

namespace BuildFlash

def BuildFlowScreen.logPane (st : BuildFlowScreen) : LogPane := ⟨st.log, st.scroll, st.follow⟩

def BuildFlowScreen.devName (st : BuildFlowScreen) : String := (st.picked.map Prod.fst).getD ""

def BuildFlowScreen.drawBody (st : BuildFlowScreen) (title : String) (height : Nat) :
    Option Body × BuildFlowScreen :=
  let (body, scroll) := Build.drawBuildBody title st.steps st.logPane height
  (some body, { st with scroll := scroll })

/-- The build body while the passphrase is still being entered. -/
def BuildFlowScreen.drawPendingBody (st : BuildFlowScreen) (height : Nat) :
    Option Body × BuildFlowScreen :=
  st.drawBody
    (if st.devName.isEmpty then "Build & Flash"
      else "Build & flash — exact-fit image for /dev/" ++ st.devName) height

/-- The stages before and after the build have other bodies. -/
def BuildFlowScreen.draw (st : BuildFlowScreen) (height : Nat) : Option Body × BuildFlowScreen :=
  match st.stage with
  | .passFirst _ _ | .passConfirm _ _ => st.drawPendingBody height
  | .building =>
      st.drawBody ("Build & flash — building exact-fit image for /dev/" ++ st.devName) height
  | _ => (none, st)

end BuildFlash

namespace Verify

def detailLine : VerifyEvent → Option String
  | .detail line => some line
  | _ => none

def VerifyScreen.logPane (st : VerifyScreen) : LogPane := ⟨st.details, st.scroll, st.follow⟩

def VerifyScreen.drawChecks (st : VerifyScreen) (height : Nat) : Body × VerifyScreen :=
  let drawn := st.logPane.drawn height
  ({ stepsTitle := match st.mode with
        | .image => "Verify image"
        | .install => "Verify install"
     items := stepItems (stepNames st.mode) st.steps
     logTitle := if st.follow then "Findings (following)" else "Findings"
     window := drawn.window height },
    { st with scroll := drawn.scroll })

def VerifyScreen.draw (st : VerifyScreen) (height : Nat) : Option Body × VerifyScreen :=
  match st.phase with
  | .devices | .sudoPass _ _ => (none, st)
  | .running | .done _ =>
      let (body, st) := st.drawChecks height
      (some body, st)

end Verify

/-! ## The turns of the main loop -/

/-- One turn: the worker's batch is drained, the screen is drawn in a pane of
this height, and a key is handled. -/
structure Frame (Batch : Type) where
  batch : Batch
  height : Nat
  key : Option KeyCode
  answers : Answers

/-- The screen after the key, unless the key leaves it. -/
def Next.stays {Screen : Type} : Next Screen → Option Screen
  | .stay st => some st
  | _ => none

/-- What is drawn, and the key after it. -/
def turn {Screen : Type} (drawn : Option Body × Screen) (onKey : Screen → KeyCode → Next Screen) :
    Option KeyCode → Option (Screen × Option Body)
  | none => some (drawn.2, drawn.1)
  | some key => (onKey drawn.2 key).stays.map fun st => (st, drawn.1)

def Build.BuildScreen.frame (cfg : Config) (st : Build.BuildScreen)
    (f : Frame (List BuildEvent)) : Option (Build.BuildScreen × Option Body) :=
  turn ((st.drainEvents f.batch).1.draw f.height)
    (fun st key => (Build.onKey cfg f.answers st key).next) f.key

def BuildFlash.BuildFlowScreen.frame (configDir : String) (cfg : Config)
    (st : BuildFlash.BuildFlowScreen) (f : Frame (List BuildEvent × List FlashEvent)) :
    Option (BuildFlash.BuildFlowScreen × Option Body) :=
  turn ((st.drainEvents f.answers f.batch).1.draw f.height)
    (fun st key => (BuildFlash.onKey configDir cfg f.answers st key).next) f.key

def Verify.VerifyScreen.frame (st : Verify.VerifyScreen) (f : Frame (List VerifyEvent)) :
    Option (Verify.VerifyScreen × Option Body) :=
  turn ((st.drainEvents f.batch).1.draw f.height)
    (fun st key => (Verify.onKey f.answers st key).next) f.key

/-! ## What a turn does to the pane -/

/-- A turn adds the lines it pulled, draws the pane if the screen shows it, and
lets the key scroll it, if that is what the key does. -/
structure Turned (limit : Option Limit) (pane : LogPane) (lines : Option (List String))
    (height : Nat) (key : Option KeyCode) (shown : Option Body) (next : LogPane) : Prop where
  hidden : shown = none → next = pane.pull limit lines
  drawn : ∀ body, shown = some body →
    body.window = ((pane.pull limit lines).drawn height).window height ∧
      (next = (pane.pull limit lines).drawn height ∨
        ∃ pressed, key = some pressed ∧
          next = ((pane.pull limit lines).drawn height).scrollKey pressed)

theorem turn_some {Screen : Type} {drawn : Option Body × Screen}
    {onKey : Screen → KeyCode → Next Screen} {key : Option KeyCode} {next : Screen}
    {shown : Option Body} (turned : turn drawn onKey key = some (next, shown)) :
    shown = drawn.1 ∧
      (next = drawn.2 ∨ ∃ pressed, key = some pressed ∧
        (onKey drawn.2 pressed).stays = some next) := by
  cases key with
  | none =>
      simp only [turn, Option.some.injEq, Prod.mk.injEq] at turned
      exact ⟨turned.2.symm, .inl turned.1.symm⟩
  | some pressed =>
      simp only [turn, Option.map_eq_some_iff, Prod.mk.injEq] at turned
      obtain ⟨st, stays, rfl, rfl⟩ := turned
      exact ⟨rfl, .inr ⟨pressed, rfl, stays⟩⟩

/-- A screen that draws its pane, and whose keys do no more to it than scroll it. -/
theorem turned_of_turn {Screen : Type} {view : Screen → LogPane} {limit : Option Limit}
    {pane : LogPane} {lines : Option (List String)} {height : Nat} {key : Option KeyCode}
    {drained next : Screen} {drawn : Option Body × Screen} {shown : Option Body}
    {onKey : Screen → KeyCode → Next Screen} (turned : turn drawn onKey key = some (next, shown))
    (pulled : view drained = pane.pull limit lines)
    (hidden : drawn.1 = none → view drawn.2 = view drained)
    (visible : ∀ body, drawn.1 = some body →
      body.window = ((view drained).drawn height).window height ∧
        view drawn.2 = (view drained).drawn height)
    (pressed : ∀ key next, (onKey drawn.2 key).stays = some next → view next = view drawn.2 ∨
      drawn.1 ≠ none ∧ view next = (view drawn.2).scrollKey key) :
    Turned limit pane lines height key shown (view next) := by
  obtain ⟨rfl, after⟩ := turn_some turned
  have scrolled : view next = view drawn.2 ∨
      drawn.1 ≠ none ∧ ∃ pressed, key = some pressed ∧
        view next = (view drawn.2).scrollKey pressed := by
    rcases after with same | ⟨key, is, stays⟩
    · exact .inl (by rw [same])
    · rcases pressed key next stays with same | ⟨drawn, scrolled⟩
      · exact .inl same
      · exact .inr ⟨drawn, key, is, scrolled⟩
  constructor
  · intro is
    rcases scrolled with same | ⟨drawn, _⟩
    · rw [same, hidden is, pulled]
    · exact absurd is drawn
  · intro body is
    obtain ⟨window, drawn⟩ := visible body is
    rw [← pulled]
    refine ⟨window, ?_⟩
    rcases scrolled with same | ⟨_, key, is, scrolled⟩
    · exact .inl (same.trans drawn)
    · exact .inr ⟨key, is, by rw [scrolled, drawn]⟩

/-- A screen with a log pane, from when its worker is started or later. -/
structure LogScreen (Screen Batch : Type) where
  pane : Screen → LogPane
  limit : Option Limit
  pulled : Screen → Batch → Option (List String)
  frame : Screen → Frame Batch → Option (Screen × Option Body)
  ready : Screen → Prop
  kept : ∀ st f next shown, ready st → frame st f = some (next, shown) → ready next
  turned : ∀ st f next shown, ready st → frame st f = some (next, shown) →
    Turned limit (pane st) (pulled st f.batch) f.height f.key shown (pane next)

/-! ### The Build screen -/

namespace Build

theorem foldBuildEvents_lines (steps : List StepState) (lines : List String)
    (events : List BuildEvent) :
    (foldBuildEvents steps lines events).2.1 = lines ++ events.filterMap logLine := by
  induction events generalizing steps lines with
  | nil => exact (List.append_nil lines).symm
  | cons event rest ih =>
      cases event with
      | step i state => exact ih (steps.set i state) lines
      | log line =>
          change (foldBuildEvents steps (lines ++ [line]) rest).2.1 = _
          rw [ih, List.append_assoc]
          rfl
      | done result => exact ih steps lines

theorem trimmed_logPane (pane : Pane) (follow : Bool) :
    (⟨pane.trimmed.log, pane.trimmed.scroll, follow⟩ : LogPane) =
      (⟨pane.log, pane.scroll, follow⟩ : LogPane).trimmed (some logLimit) := by
  by_cases many : pane.log.length > maxLogLines
  · rw [Pane.trimmed, if_pos many, LogPane.trimmed, if_pos (show _ > logLimit.most from many)]
    simp only [logLimit]
  · rw [Pane.trimmed, if_neg many, LogPane.trimmed, if_neg (show ¬ _ > logLimit.most from many)]

theorem drain_logPane (pane : Pane) (follow : Bool) (events : List BuildEvent) :
    (⟨(pane.drain events).1.log, (pane.drain events).1.scroll, follow⟩ : LogPane) =
      (⟨pane.log, pane.scroll, follow⟩ : LogPane).pull (some logLimit)
        (some (events.filterMap logLine)) := by
  have lines := foldBuildEvents_lines pane.steps pane.log events
  rw [LogPane.pull, ← lines]
  exact trimmed_logPane _ follow

def BuildScreen.pulled (st : BuildScreen) (events : List BuildEvent) : Option (List String) :=
  if st.rx then some (events.filterMap logLine) else none

theorem drainEvents_logPane (st : BuildScreen) (events : List BuildEvent) :
    (st.drainEvents events).1.logPane = st.logPane.pull (some logLimit) (st.pulled events) := by
  have lines := drain_logPane st.pane st.follow events
  rw [BuildScreen.drainEvents, BuildScreen.pulled]
  split
  · cases verdict : (st.pane.drain events).2.2 with
    | none =>
        simp only [verdict]
        exact lines
    | some result =>
        cases result with
        | ok img =>
            simp only [verdict]
            exact lines
        | error e =>
            simp only [verdict]
            exact lines
  · rfl

theorem scrollKey_logPane (st : BuildScreen) (key : KeyCode) :
    (st.scrollKey key).logPane = st.logPane.scrollKey key := by
  cases key with
  | char c =>
      by_cases follows : c = 'f'
      · subst follows
        rfl
      · simp [BuildScreen.scrollKey, LogPane.scrollKey, follows]
  | _ => rfl

theorem onKey_logPane {cfg : Config} {a : Answers} {st after : BuildScreen} {key : KeyCode}
    (stays : (onKey cfg a st key).next.stays = some after) :
    after.logPane = st.logPane ∨ after.logPane = st.logPane.scrollKey key := by
  unfold onKey at stays
  cases phase : st.phase with
  | passFirst buf error =>
      left
      simp only [phase] at stays
      cases key <;> simp only [onKeyPassFirst, Turn.stay, Turn.home, Next.stays, Option.some.injEq,
        reduceCtorEq] at stays <;> rw [← stays] <;> rfl
  | passConfirm first buf =>
      left
      simp only [phase] at stays
      cases key with
      | enter =>
          rw [onKeyPassConfirm] at stays
          split at stays <;> cases stays <;> rfl
      | _ =>
          simp only [onKeyPassConfirm, Turn.stay, Turn.home, Next.stays, Option.some.injEq,
            reduceCtorEq] at stays <;> rw [← stays] <;> rfl
  | running =>
      right
      simp only [phase, Turn.stay, Next.stays, Option.some.injEq] at stays
      rw [← stays, scrollKey_logPane]
  | done ok =>
      right
      simp only [phase] at stays
      cases key with
      | esc | enter => cases stays
      | _ => rw [← Option.some.inj stays, scrollKey_logPane]

theorem draw_visible (st : BuildScreen) (height : Nat) (body : Body)
    (shown : (st.draw height).1 = some body) :
    body.window = (st.logPane.drawn height).window height ∧
      (st.draw height).2.logPane = st.logPane.drawn height := by
  rw [← Option.some.inj shown]
  exact ⟨rfl, rfl⟩

end Build

/-- The Build screen shows its pane in every phase. -/
def buildLogScreen (cfg : Config) : LogScreen Build.BuildScreen (List BuildEvent) where
  pane := Build.BuildScreen.logPane
  limit := some Build.logLimit
  pulled := Build.BuildScreen.pulled
  frame := Build.BuildScreen.frame cfg
  ready _ := True
  kept _ _ _ _ _ _ := trivial
  turned st f next shown _ turned := by
    refine turned_of_turn turned (Build.drainEvents_logPane st f.batch) ?_
      (Build.draw_visible _ f.height) ?_
    · intro hidden
      cases hidden
    · intro key next stays
      rcases Build.onKey_logPane stays with same | scrolled
      · exact .inl same
      · exact .inr ⟨Option.some_ne_none _, scrolled⟩

/-! ### The Build & Flash screen -/

namespace BuildFlash

def BuildFlowScreen.pulled (st : BuildFlowScreen) (batch : List BuildEvent × List FlashEvent) :
    Option (List String) :=
  if st.buildRx then some (batch.1.filterMap Build.logLine) else none

/-- The build is running, or over. -/
def BuildFlowScreen.started (st : BuildFlowScreen) : Prop :=
  match st.stage with
  | .unavailable | .pickDevice | .passFirst _ _ | .passConfirm _ _ => False
  | _ => True

theorem drainBuild_logPane (a : Answers) (st : BuildFlowScreen)
    (batch : List BuildEvent × List FlashEvent) :
    (st.drainBuild a batch.1).1.logPane =
      st.logPane.pull (some Build.logLimit) (st.pulled batch) := by
  have lines := Build.drain_logPane st.pane st.follow batch.1
  rw [BuildFlowScreen.drainBuild, BuildFlowScreen.pulled]
  split
  · cases verdict : (st.pane.drain batch.1).2.2 with
    | none =>
        simp only [verdict]
        exact lines
    | some result =>
        cases result with
        | ok img =>
            simp only [verdict]
            exact lines
        | error e =>
            simp only [verdict]
            exact lines
  · rfl

theorem drainFlash_logPane (st : BuildFlowScreen) (events : List FlashEvent) :
    (st.drainFlash events).1.logPane = st.logPane := by
  rw [BuildFlowScreen.drainFlash]
  split
  · cases verdict : (Flash.foldEvents st.gaugeTitle st.progress events).2.2.2 with
    | none => simp only [verdict]; rfl
    | some result => cases result <;> simp only [verdict] <;> rfl
  · rfl

theorem drainEvents_logPane (a : Answers) (st : BuildFlowScreen)
    (batch : List BuildEvent × List FlashEvent) :
    (st.drainEvents a batch).1.logPane =
      st.logPane.pull (some Build.logLimit) (st.pulled batch) :=
  (drainFlash_logPane _ batch.2).trans (drainBuild_logPane a st batch)

theorem started_of_stage {st : BuildFlowScreen} {stage : Stage} (is : st.stage = stage)
    (later : { st with stage := stage }.started) : st.started := by
  subst is
  exact later

theorem drainBuild_started (a : Answers) {st : BuildFlowScreen} (started : st.started)
    (events : List BuildEvent) : (st.drainBuild a events).1.started := by
  rw [BuildFlowScreen.drainBuild]
  split
  · cases verdict : (st.pane.drain events).2.2 with
    | none =>
        simp only [verdict]
        exact started
    | some result => cases result <;> simp only [verdict] <;> trivial
  · exact started

theorem drainFlash_started {st : BuildFlowScreen} (started : st.started)
    (events : List FlashEvent) : (st.drainFlash events).1.started := by
  rw [BuildFlowScreen.drainFlash]
  split
  · cases verdict : (Flash.foldEvents st.gaugeTitle st.progress events).2.2.2 with
    | none =>
        simp only [verdict]
        exact started
    | some result => cases result <;> simp only [verdict] <;> trivial
  · exact started

theorem drainEvents_started (a : Answers) {st : BuildFlowScreen} (started : st.started)
    (batch : List BuildEvent × List FlashEvent) : (st.drainEvents a batch).1.started :=
  drainFlash_started (drainBuild_started a started batch.1) batch.2

/-- A turn that leaves the pane alone and does not go back before the build. -/
def Unscrolled (st : BuildFlowScreen) (turn : Turn BuildFlowScreen) : Prop :=
  ∀ next, turn.next.stays = some next → next.logPane = st.logPane ∧ next.started

variable {st : BuildFlowScreen}

theorem Unscrolled.stay {next : BuildFlowScreen} (same : next.logPane = st.logPane)
    (started : next.started) : Unscrolled st (.stay next) := by
  intro after stays
  rw [← Option.some.inj stays]
  exact ⟨same, started⟩

theorem Unscrolled.home : Unscrolled st .home := by
  intro after stays
  cases stays

theorem unscrolled_armFlash (configDir : String) (a : Answers) (before : BuildFlowScreen)
    (same : before.logPane = st.logPane) (started : before.started) (elev : Tui.Sudo.Elevation) :
    Unscrolled st (before.armFlash configDir a elev) := by
  rw [BuildFlowScreen.armFlash.eq_def]
  split
  · intro after stays
    rw [← Option.some.inj stays]
    exact ⟨same, trivial⟩
  · exact Unscrolled.stay same started

theorem unscrolled_submit (configDir : String) (a : Answers) (typed : String) (error : Option String) :
    Unscrolled st (submitFlashConfirm configDir a st typed error) := by
  unfold submitFlashConfirm
  split
  · exact Unscrolled.stay rfl trivial
  · split
    · split
      · exact unscrolled_armFlash configDir a { st with stage := .flashConfirm "" error } rfl trivial _
      · exact Unscrolled.stay rfl trivial
      · exact Unscrolled.stay rfl trivial
    · exact Unscrolled.stay rfl trivial

theorem unscrolled_sudo (configDir : String) (a : Answers) (started : st.started) (buf : String)
    (error : Option String) (key : KeyCode) :
    Unscrolled st (onKeyFlashSudo configDir a st buf error key) := by
  unfold onKeyFlashSudo
  split
  · exact Unscrolled.stay rfl trivial
  · split
    · exact unscrolled_armFlash configDir a { st with stage := .flashSudo "" error } rfl trivial _
    · exact Unscrolled.stay rfl trivial
    · exact Unscrolled.stay rfl trivial
    · exact Unscrolled.stay rfl trivial
  · exact Unscrolled.stay rfl trivial
  · exact Unscrolled.stay rfl trivial
  · exact Unscrolled.stay rfl started

theorem onKeyBuilding_scrollKey (key : KeyCode) {next : BuildFlowScreen}
    (stays : (onKeyBuilding st key).next.stays = some next) :
    next.logPane = st.logPane.scrollKey key ∧ next.stage = st.stage := by
  cases key with
  | char c =>
      by_cases follows : c = 'f'
      · subst follows
        rw [← Option.some.inj stays]
        exact ⟨rfl, rfl⟩
      · have unmoved : onKeyBuilding st (.char c) = .stay st := by simp [onKeyBuilding, follows]
        rw [unmoved] at stays
        rw [← Option.some.inj stays]
        exact ⟨by simp [LogPane.scrollKey, follows], rfl⟩
  | _ =>
      rw [← Option.some.inj stays]
      exact ⟨rfl, rfl⟩

/-- A key scrolls the pane of a build that runs, and else leaves it alone. -/
theorem onKey_logPane {configDir : String} {cfg : Config} {a : Answers} {next : BuildFlowScreen}
    {key : KeyCode} (started : st.started)
    (stays : (onKey configDir cfg a st key).next.stays = some next) :
    (next.logPane = st.logPane ∨ st.stage = .building ∧ next.logPane = st.logPane.scrollKey key) ∧
      next.started := by
  by_cases building : st.stage = .building
  · simp only [onKey, building] at stays
    obtain ⟨scrolled, same⟩ := onKeyBuilding_scrollKey key stays
    exact ⟨.inr ⟨building, scrolled⟩, started_of_stage (same.trans building) trivial⟩
  · have unscrolled : Unscrolled st (onKey configDir cfg a st key) := by
      unfold onKey
      cases stage : st.stage with
      | unavailable => simp [BuildFlowScreen.started, stage] at started
      | pickDevice => simp [BuildFlowScreen.started, stage] at started
      | passFirst buf error => simp [BuildFlowScreen.started, stage] at started
      | passConfirm first buf => simp [BuildFlowScreen.started, stage] at started
      | building => exact absurd stage building
      | done ok =>
          dsimp only
          split
          · exact Unscrolled.home
          · exact Unscrolled.home
          · exact Unscrolled.stay rfl started
      | flashReview =>
          dsimp only
          unfold onKeyFlashReview
          split
          · exact Unscrolled.home
          · split
            · exact Unscrolled.stay rfl trivial
            · exact Unscrolled.stay rfl started
          · exact Unscrolled.stay rfl started
      | flashBackupAsk =>
          dsimp only
          unfold onKeyFlashBackupAsk
          split
          · exact Unscrolled.stay rfl trivial
          · exact Unscrolled.stay rfl trivial
          · exact Unscrolled.stay rfl trivial
          · exact Unscrolled.stay rfl trivial
          · exact Unscrolled.stay rfl trivial
          · exact Unscrolled.stay rfl started
      | flashConfirm typed error =>
          cases key with
          | enter => exact unscrolled_submit configDir a typed error
          | esc => exact Unscrolled.stay rfl trivial
          | char c => exact Unscrolled.stay rfl trivial
          | backspace => exact Unscrolled.stay rfl trivial
          | delete | up | down | pageUp | pageDown | «end» | other =>
              exact Unscrolled.stay rfl started
      | flashSudo buf error => exact unscrolled_sudo configDir a started buf error key
      | flashing => exact Unscrolled.stay rfl started
    obtain ⟨same, later⟩ := unscrolled next stays
    exact ⟨.inl same, later⟩

theorem draw_visible (st : BuildFlowScreen) (height : Nat) (body : Body)
    (shown : (st.draw height).1 = some body) :
    body.window = (st.logPane.drawn height).window height ∧
      (st.draw height).2.logPane = st.logPane.drawn height := by
  unfold BuildFlowScreen.draw at shown ⊢
  cases stage : st.stage <;> simp only [stage, reduceCtorEq] at shown ⊢ <;>
    rw [← Option.some.inj shown] <;> exact ⟨rfl, rfl⟩

theorem draw_hidden (st : BuildFlowScreen) (height : Nat) (hidden : (st.draw height).1 = none) :
    (st.draw height).2 = st := by
  unfold BuildFlowScreen.draw at hidden ⊢
  cases stage : st.stage <;> simp only [stage] at hidden ⊢ <;> cases hidden

theorem draw_building (st : BuildFlowScreen) (height : Nat) (hidden : (st.draw height).1 = none) :
    (st.draw height).2.stage ≠ .building := by
  rw [draw_hidden st height hidden]
  intro building
  rw [BuildFlowScreen.draw, building] at hidden
  cases hidden

theorem draw_stage (st : BuildFlowScreen) (height : Nat) :
    (st.draw height).2.stage = st.stage := by
  unfold BuildFlowScreen.draw
  cases stage : st.stage <;> simp only [stage] <;> exact stage

theorem draw_started {st : BuildFlowScreen} (started : st.started) (height : Nat) :
    (st.draw height).2.started := by
  unfold BuildFlowScreen.started at started ⊢
  rw [draw_stage]
  exact started

end BuildFlash

/-- The Build & Flash screen shows its pane while the image is built. -/
def flowLogScreen (configDir : String) (cfg : Config) :
    LogScreen BuildFlash.BuildFlowScreen (List BuildEvent × List FlashEvent) where
  pane := BuildFlash.BuildFlowScreen.logPane
  limit := some Build.logLimit
  pulled := BuildFlash.BuildFlowScreen.pulled
  frame := BuildFlash.BuildFlowScreen.frame configDir cfg
  ready := BuildFlash.BuildFlowScreen.started
  kept st f next shown started turned := by
    have drawn := BuildFlash.draw_started
      (BuildFlash.drainEvents_started f.answers started f.batch) f.height
    rcases (turn_some turned).2 with same | ⟨key, _, stays⟩
    · rw [same]
      exact drawn
    · exact (BuildFlash.onKey_logPane drawn stays).2
  turned st f next shown started turned := by
    have drained := BuildFlash.drainEvents_started f.answers started f.batch
    have drawn := BuildFlash.draw_started drained f.height
    refine turned_of_turn turned (BuildFlash.drainEvents_logPane f.answers st f.batch) ?_
      (BuildFlash.draw_visible _ f.height) ?_
    · intro hidden
      rw [BuildFlash.draw_hidden _ f.height hidden]
    · intro key next stays
      rcases (BuildFlash.onKey_logPane drawn stays).1 with same | ⟨building, scrolled⟩
      · exact .inl same
      · refine .inr ⟨?_, scrolled⟩
        intro hidden
        exact BuildFlash.draw_building _ f.height hidden building

/-! ### The Verify screen -/

namespace Verify

theorem foldEvents_details (names : List String) (panes : Findings) (events : List VerifyEvent) :
    (foldEvents names panes events).1.details = panes.details ++ events.filterMap detailLine := by
  induction events generalizing panes with
  | nil => exact (List.append_nil panes.details).symm
  | cons event rest ih =>
      cases event with
      | detail line =>
          change (foldEvents names { panes with details := panes.details ++ [line] } rest).1.details
            = _
          rw [ih, List.append_assoc]
          rfl
      | step i state => exact ih { panes with steps := panes.steps.set i state }
      | phase title => exact ih { panes with gaugeTitle := title, progress := (0, 0) }
      | progress done total => exact ih { panes with progress := (done, total) }
      | done result => exact ih panes

def VerifyScreen.pulled (st : VerifyScreen) (events : List VerifyEvent) : Option (List String) :=
  if st.rx then some (events.filterMap detailLine) else none

theorem drainEvents_logPane (st : VerifyScreen) (events : List VerifyEvent) :
    (st.drainEvents events).1.logPane = st.logPane.pull none (st.pulled events) := by
  have lines := foldEvents_details (stepNames st.mode) st.toFindings events
  have pane : (⟨(foldEvents (stepNames st.mode) st.toFindings events).1.details, st.scroll,
      st.follow⟩ : LogPane) = st.logPane.pull none (some (events.filterMap detailLine)) := by
    rw [lines]
    rfl
  rw [VerifyScreen.drainEvents, VerifyScreen.pulled]
  split
  · cases verdict : (foldEvents (stepNames st.mode) st.toFindings events).2.2 with
    | none =>
        simp only [verdict]
        exact pane
    | some result =>
        cases result with
        | ok img =>
            simp only [verdict]
            exact pane
        | error e =>
            simp only [verdict]
            exact pane
  · rfl

theorem scrollKey_logPane (st : VerifyScreen) (key : KeyCode) :
    (st.scrollKey key).logPane = st.logPane.scrollKey key := by
  cases key with
  | char c =>
      by_cases follows : c = 'f'
      · subst follows
        rfl
      · simp [VerifyScreen.scrollKey, LogPane.scrollKey, follows]
  | _ => rfl

/-- A key scrolls the pane that the screen shows, and else leaves it alone. -/
theorem onKey_logPane {a : Answers} {st next : VerifyScreen} {key : KeyCode}
    (stays : (onKey a st key).next.stays = some next) :
    next.logPane = st.logPane ∨
      (∀ height, (st.draw height).1 ≠ none) ∧ next.logPane = st.logPane.scrollKey key := by
  unfold onKey at stays
  cases phase : st.phase with
  | devices =>
      left
      simp only [phase] at stays
      unfold onKeyDevices at stays
      repeat' split at stays
      all_goals first
        | (cases stays; rfl)
        | cases stays
  | sudoPass buf error =>
      left
      simp only [phase] at stays
      unfold onKeySudoPass submitSudo at stays
      dsimp only at stays
      repeat' split at stays
      all_goals
        cases stays
        rfl
  | running =>
      have visible : ∀ height, (st.draw height).1 ≠ none := by
        intro height
        simp [VerifyScreen.draw, phase]
      simp only [phase] at stays
      split at stays
      · left
        rw [← Option.some.inj stays]
        rfl
      · right
        rw [← Option.some.inj stays]
        exact ⟨visible, scrollKey_logPane st key⟩
  | done ok =>
      right
      refine ⟨?_, ?_⟩
      · intro height
        simp [VerifyScreen.draw, phase]
      · simp only [phase] at stays
        cases key with
        | esc | enter => cases stays
        | _ => rw [← Option.some.inj stays, scrollKey_logPane]

theorem draw_visible (st : VerifyScreen) (height : Nat) (body : Body)
    (shown : (st.draw height).1 = some body) :
    body.window = (st.logPane.drawn height).window height ∧
      (st.draw height).2.logPane = st.logPane.drawn height := by
  unfold VerifyScreen.draw at shown ⊢
  cases phase : st.phase <;> simp only [phase, reduceCtorEq] at shown ⊢ <;>
    rw [← Option.some.inj shown] <;> exact ⟨rfl, rfl⟩

theorem draw_hidden (st : VerifyScreen) (height : Nat) (hidden : (st.draw height).1 = none) :
    (st.draw height).2 = st := by
  unfold VerifyScreen.draw at hidden ⊢
  cases phase : st.phase <;> simp only [phase] at hidden ⊢ <;> cases hidden

theorem draw_shows (st : VerifyScreen) (height : Nat)
    (visible : ∀ later, ((st.draw height).2.draw later).1 ≠ none) :
    (st.draw height).1 ≠ none := by
  intro hidden
  have same := draw_hidden st height hidden
  rw [same] at visible
  exact visible height hidden

end Verify

/-- The Verify screen shows its pane from when the checks start. -/
def verifyLogScreen : LogScreen Verify.VerifyScreen (List VerifyEvent) where
  pane := Verify.VerifyScreen.logPane
  limit := none
  pulled := Verify.VerifyScreen.pulled
  frame := Verify.VerifyScreen.frame
  ready _ := True
  kept _ _ _ _ _ _ := trivial
  turned st f next shown _ turned := by
    refine turned_of_turn turned (Verify.drainEvents_logPane st f.batch) ?_
      (Verify.draw_visible _ f.height) ?_
    · intro hidden
      rw [Verify.draw_hidden _ f.height hidden]
    · intro key next stays
      rcases Verify.onKey_logPane stays with same | ⟨visible, scrolled⟩
      · exact .inl same
      · exact .inr ⟨Verify.draw_shows _ f.height visible, scrolled⟩

end Nixnas.Ui
