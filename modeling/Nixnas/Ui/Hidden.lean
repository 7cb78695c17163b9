import Nixnas.Ui.Veil

/-!
# Secrets stay off the screen and out of the log

The prompts for a secret are drawn by `draw_pass_modal_prompt`, which shows a
bullet for each character typed.  Whatever a session does, what it shows and
what it hands to the session log depend on the length of what was typed there
and on which entries match, and on nothing else of it.
-/

set_option autoImplicit false

namespace Nixnas.Ui

open Nixnas.Rust
open Nixnas.Tui.Build (BuildEvent Config)
open Nixnas.Tui.Flash
open Nixnas.Ui.Verify (VerifyScreen)

/-! ## The modals -/

structure Modal where
  title : String
  prompt : String
  input : String
  error : Option String
  deriving DecidableEq

/-- An input line with a block cursor at the end. -/
def inputLine (content : String) (mask : Bool) : String :=
  (if mask then String.ofList (List.replicate content.toList.length '•') else content) ++ "█"

def drawPassModalPrompt (title prompt buf : String) (error : Option String) : Modal :=
  ⟨title, prompt, inputLine buf true, error⟩

def drawPassModal (title buf : String) (error : Option String) (confirming : Bool) : Modal :=
  drawPassModalPrompt title
    (if confirming then "Type the passphrase again to confirm."
      else "Unlocks the encrypted store at boot. Held in a RAM-backed 0600 file " ++
        "during the build, zeroed afterwards.") buf error

def Build.BuildScreen.modal (st : Build.BuildScreen) : Option Modal :=
  match st.phase with
  | .passFirst buf error => some (drawPassModal "LUKS store passphrase" buf error false)
  | .passConfirm _ buf => some (drawPassModal "Confirm passphrase" buf none true)
  | _ => none

def BuildFlash.BuildFlowScreen.modal (st : BuildFlash.BuildFlowScreen) : Option Modal :=
  match st.stage with
  | .passFirst buf error => some (drawPassModal "LUKS store passphrase" buf error false)
  | .passConfirm _ buf => some (drawPassModal "Confirm passphrase" buf none true)
  | .flashSudo buf error => some
      (drawPassModal "Administrator (sudo) password — needed to write the device" buf error false)
  | _ => none

def Flash.FlashScreen.modal (st : Flash.FlashScreen) : Option Modal :=
  match st.phase with
  | .storePass buf => some
      (drawPassModalPrompt "LUKS store passphrase — grow the store to the full stick"
        ("Opens the encrypted store to grow its f2fs to the full partition, right " ++
          "here at the workbench. Leave EMPTY and press Enter to skip the grow " ++
          "(the stick boots; the extra space stays unused).") buf none)
  | .sudoPass buf error => some
      (drawPassModal "Administrator (sudo) password — needed to write the device" buf error false)
  | _ => none

def Verify.VerifyScreen.modal (st : VerifyScreen) : Option Modal :=
  match st.phase with
  | .sudoPass buf error => some
      (drawPassModal "Administrator (sudo) password — needed to read the device" buf error false)
  | _ => none

/-! ## What else is drawn -/

/-- The screen without the texts of the hidden prompts, which only the modals show. -/
def Build.BuildScreen.blank (st : Build.BuildScreen) : Build.BuildScreen :=
  { st with
    phase := match st.phase with
      | .passFirst _ error => .passFirst "" error
      | .passConfirm _ _ => .passConfirm "" ""
      | phase => phase }

def BuildFlash.BuildFlowScreen.blank (st : BuildFlash.BuildFlowScreen) :
    BuildFlash.BuildFlowScreen :=
  { st with
    stage := match st.stage with
      | .passFirst _ error => .passFirst "" error
      | .passConfirm _ _ => .passConfirm "" ""
      | .flashSudo _ error => .flashSudo "" error
      | stage => stage }

def Flash.FlashScreen.blank (st : Flash.FlashScreen) : Flash.FlashScreen :=
  { st with
    storePass := none
    phase := match st.phase with
      | .storePass _ => .storePass ""
      | .sudoPass _ error => .sudoPass "" error
      | phase => phase }

def Verify.VerifyScreen.blank (st : VerifyScreen) : VerifyScreen :=
  { st with
    phase := match st.phase with
      | .sudoPass _ error => .sudoPass "" error
      | phase => phase }

section Sight

variable (σ : Equiv.Perm Char)

theorem inputLine_recode (content : String) :
    inputLine (recode σ content) true = inputLine content true := by
  simp only [inputLine, if_true, recode_length]

theorem Build.modal_veil (st : Build.BuildScreen) : (st.veil σ).modal = st.modal := by
  rw [BuildScreen.modal, BuildScreen.modal, BuildScreen.veil]
  cases st.phase <;> simp [veilPhase, drawPassModal, drawPassModalPrompt, inputLine_recode]

theorem BuildFlash.modal_veil (st : BuildFlash.BuildFlowScreen) :
    (st.veil σ).modal = st.modal := by
  rw [BuildFlowScreen.modal, BuildFlowScreen.modal, BuildFlowScreen.veil]
  cases st.stage <;> simp [veilStage, drawPassModal, drawPassModalPrompt, inputLine_recode]

theorem Flash.modal_veil (st : Flash.FlashScreen) : (st.veil σ).modal = st.modal := by
  rw [FlashScreen.modal, FlashScreen.modal, FlashScreen.veil]
  cases st.phase <;> simp [veilPhase, drawPassModal, drawPassModalPrompt, inputLine_recode]

theorem Verify.modal_veil (st : VerifyScreen) : (st.veil σ).modal = st.modal := by
  rw [VerifyScreen.modal, VerifyScreen.modal, VerifyScreen.veil]
  cases st.phase <;> simp [veilPhase, drawPassModal, drawPassModalPrompt, inputLine_recode]

theorem Build.blank_veil (st : Build.BuildScreen) : (st.veil σ).blank = st.blank := by
  rw [BuildScreen.blank, BuildScreen.blank, BuildScreen.veil]
  cases st.phase <;> rfl

theorem BuildFlash.blank_veil (st : BuildFlash.BuildFlowScreen) :
    (st.veil σ).blank = st.blank := by
  rw [BuildFlowScreen.blank, BuildFlowScreen.blank, BuildFlowScreen.veil]
  cases st.stage <;> rfl

theorem Flash.blank_veil (st : Flash.FlashScreen) : (st.veil σ).blank = st.blank := by
  rw [FlashScreen.blank, FlashScreen.blank, FlashScreen.veil]
  cases st.phase <;> rfl

theorem Verify.blank_veil (st : VerifyScreen) : (st.veil σ).blank = st.blank := by
  rw [VerifyScreen.blank, VerifyScreen.blank, VerifyScreen.veil]
  cases st.phase <;> rfl

end Sight

/-! ## The application -/

section Application

variable {Configure : Type} (configure : ConfigureModel Configure) (configDir : String)
  (σ : Equiv.Perm Char)

def App.veil (app : App Configure VerifyScreen) : App Configure VerifyScreen :=
  { app with
    buildflash := app.buildflash.map (·.veil σ)
    build := app.build.map (·.veil σ)
    flash := app.flash.map (·.veil σ)
    verify := app.verify.map (·.veil σ) }

def App.blank (app : App Configure VerifyScreen) : App Configure VerifyScreen :=
  { app with
    buildflash := app.buildflash.map (·.blank)
    build := app.build.map (·.blank)
    flash := app.flash.map (·.blank)
    verify := app.verify.map (·.blank) }

/-- The modal of the screen that is shown. -/
def App.modal (app : App Configure VerifyScreen) : Option Modal :=
  match app.screen with
  | .buildFlash => app.buildflash.bind (·.modal)
  | .build => app.build.bind (·.modal)
  | .flash => app.flash.bind (·.modal)
  | .verify => app.verify.bind (·.modal)
  | .home | .configure => none

/-- The screen that is shown hides what is typed. -/
def App.hides (app : App Configure VerifyScreen) : Bool :=
  match app.screen with
  | .buildFlash => app.buildflash.any (·.hides)
  | .build => app.build.any (·.hides)
  | .flash => app.flash.any (·.hides)
  | .verify => app.verify.any (·.hides)
  | .home | .configure => false

variable (app : App Configure VerifyScreen)

theorem App.modal_veil : (app.veil σ).modal = app.modal := by
  rw [App.modal, App.modal, App.veil]
  cases app.screen with
  | home | configure => rfl
  | buildFlash => cases app.buildflash <;> simp [BuildFlash.modal_veil]
  | build => cases app.build <;> simp [Build.modal_veil]
  | flash => cases app.flash <;> simp [Flash.modal_veil]
  | verify => cases app.verify <;> simp [Verify.modal_veil]

theorem App.blank_veil : (app.veil σ).blank = app.blank := by
  simp [App.blank, App.veil, Option.map_map, Function.comp_def, BuildFlash.blank_veil,
    Build.blank_veil, Flash.blank_veil, Verify.blank_veil]

/-- What a key leads to, on a veiled application. -/
def veilReaction (reaction : Reaction Configure VerifyScreen) : Reaction Configure VerifyScreen :=
  reaction.map fun (app, spawned) => (app.veil σ, spawned.map (veilWorker σ))

/-- A turn of a screen whose slot is veiled with it. -/
theorem App.takeTurn_veil {S : Type} (a : Answers) (f : S → S)
    (put : App Configure VerifyScreen → Option S → App Configure VerifyScreen)
    (fits : ∀ app slot, put (app.veil σ) (slot.map f) = (put app slot).veil σ) (turn : Turn S) :
    (app.veil σ).takeTurn a put (turn.veil σ f) = veilReaction σ (app.takeTurn a put turn) := by
  have logged : (app.veil σ).logged a turn.calls = (app.logged a turn.calls).veil σ := rfl
  simp only [App.takeTurn, Turn.veil, logged]
  cases turn.next with
  | stay st =>
      have same := fits (app.logged a turn.calls) (some st)
      simp only [Next.map, Option.map_some] at same ⊢
      rw [same]
      rfl
  | home =>
      have same := fits (app.logged a turn.calls) none
      simp only [Next.map, Option.map_none] at same ⊢
      rw [same]
      rfl
  | panic message => rfl

theorem Turn.veil_plain {S : Type} (next : Next S) :
    (⟨next, [], none⟩ : Turn S).veil σ id = ⟨next, [], none⟩ := by
  cases next <;> rfl

theorem Build.veil_new (cfg : Config) : (Build.BuildScreen.new cfg).veil σ = .new cfg := by
  unfold BuildScreen.new
  split
  rfl

theorem BuildFlash.veil_new (cfg : Config) (a : Answers) :
    (BuildFlash.BuildFlowScreen.new cfg a).veil σ = .new cfg a := by
  unfold BuildFlowScreen.new
  cases cfg.hostAttr <;> rfl

theorem Flash.veil_new (a : Answers) :
    (Flash.FlashScreen.new configDir a).veil σ = .new configDir a := by
  unfold FlashScreen.new
  dsimp only
  split <;> rfl

theorem Verify.veil_newImage (a : Answers) :
    (VerifyScreen.newImage configDir a).1.veil σ = (VerifyScreen.newImage configDir a).1 := by
  unfold VerifyScreen.newImage
  split <;> rfl

theorem Build.isRunning_veil (st : Build.BuildScreen) :
    (st.veil σ).isRunning = st.isRunning := by
  rw [BuildScreen.isRunning, BuildScreen.isRunning, BuildScreen.veil]
  cases st.phase <;> rfl

theorem BuildFlash.isRunning_veil (st : BuildFlash.BuildFlowScreen) :
    (st.veil σ).isRunning = st.isRunning := by
  rw [BuildFlowScreen.isRunning, BuildFlowScreen.isRunning, BuildFlowScreen.veil]
  cases st.stage <;> rfl

theorem Flash.isRunning_veil (st : Flash.FlashScreen) : (st.veil σ).isRunning = st.isRunning := by
  rw [FlashScreen.isRunning, FlashScreen.isRunning, FlashScreen.veil]
  cases st.phase <;> rfl

theorem Verify.isRunning_veil (st : VerifyScreen) : (st.veil σ).isRunning = st.isRunning := by
  rw [VerifyScreen.isRunning, VerifyScreen.isRunning, VerifyScreen.veil]
  cases st.phase <;> rfl

/-- Veiling a slot keeps what it is filtered by. -/
theorem filter_veil {S : Type} (f : S → S) (keeps : S → Bool) (same : ∀ st, keeps (f st) = keeps st)
    (slot : Option S) : (slot.map f).filter keeps = (slot.filter keeps).map f := by
  cases slot with
  | none => rfl
  | some st =>
      rw [Option.map_some, Option.filter_some, Option.filter_some, same]
      split <;> rfl

theorem App.openEntry_veil (a : Answers) :
    (app.veil σ).openEntry (configure.others configDir) configDir a =
      (app.openEntry (configure.others configDir) configDir a).veil σ := by
  have selected : (app.veil σ).home = app.home := rfl
  have cfg : (app.veil σ).cfg = app.cfg := rfl
  have busy : (app.veil σ).verify.filter (configure.others configDir).verifyRunning =
      (app.verify.filter (configure.others configDir).verifyRunning).map (·.veil σ) :=
    filter_veil _ _ (Verify.isRunning_veil σ) app.verify
  unfold App.openEntry
  rw [selected, cfg]
  split
  · rfl
  · simp only [App.veil]
    cases app.buildflash with
    | none => simp [BuildFlash.veil_new]
    | some st =>
        simp only [Option.map_some, BuildFlash.isRunning_veil]
        cases st.isRunning <;> simp [BuildFlash.veil_new]
  · simp only [App.veil]
    cases app.build with
    | none => simp [Build.veil_new]
    | some st =>
        simp only [Option.map_some, Build.isRunning_veil]
        cases st.isRunning <;> simp [Build.veil_new]
  · simp only [App.veil]
    cases app.flash with
    | none => simp [Flash.veil_new]
    | some st =>
        simp only [Option.map_some, Flash.isRunning_veil]
        cases st.isRunning <;> simp [Flash.veil_new]
  · rw [busy]
    cases app.verify.filter (configure.others configDir).verifyRunning with
    | some st => rfl
    | none =>
        have fresh : ((configure.others configDir).newImage a).veil σ =
            (configure.others configDir).newImage a := Verify.veil_newImage configDir σ a
        simp only [Option.map_none, App.veil, App.logged, Option.map_some, fresh]
  · rw [busy]
    cases app.verify.filter (configure.others configDir).verifyRunning <;> rfl
  · unfold App.requestQuit
    have files : (app.veil σ).logFiles = app.logFiles := rfl
    rw [files]
    split <;> rfl

theorem App.homeKey_veil (a : Answers) (key : KeyCode) :
    (app.veil σ).homeKey (configure.others configDir) configDir a key =
      (app.homeKey (configure.others configDir) configDir a key).veil σ := by
  have home : (app.veil σ).home = app.home := rfl
  have files : (app.veil σ).logFiles = app.logFiles := rfl
  unfold App.homeKey
  rw [home]
  split
  · unfold App.exitPromptKey
    split <;> rfl
  · split
    · rfl
    · rfl
    · rfl
    · rfl
    · unfold App.requestQuit
      rw [files]
      split <;> rfl
    · exact App.openEntry_veil configure configDir σ app a
    · rfl

/-- The key, with another character where what is typed is hidden. -/
def App.disguise (key : KeyCode) : KeyCode := if app.hides then key.recode σ else key

theorem App.screenKey_veil (a : Answers) (key : KeyCode) :
    (app.veil σ).screenKey (configure.others configDir) configDir a (app.disguise σ key) =
      veilReaction σ (app.screenKey (configure.others configDir) configDir a key) := by
  have screen : (app.veil σ).screen = app.screen := rfl
  have cfg : (app.veil σ).cfg = app.cfg := rfl
  unfold App.screenKey
  rw [screen, cfg, App.disguise, App.hides]
  cases app.screen with
  | home =>
      simp only [Bool.false_eq_true, if_false]
      rw [App.homeKey_veil]
      rfl
  | configure =>
      have slot : (app.veil σ).configure = app.configure := rfl
      simp only [Bool.false_eq_true, if_false, slot]
      split
      next => rfl
      next st _ =>
        refine Eq.trans ?_ (App.takeTurn_veil σ
          { app with
            cfg := ((configure.others configDir).configureKey a app.cfg st key).2
            screen := .configure } a id
          (fun app slot => { app with configure := slot })
          (fun app slot => by rw [Option.map_id]; rfl)
          ⟨((configure.others configDir).configureKey a app.cfg st key).1, [], none⟩)
        rw [Turn.veil_plain]
        rfl
  | buildFlash =>
      have slot : (app.veil σ).buildflash = app.buildflash.map (·.veil σ) := rfl
      rw [slot]
      cases app.buildflash with
      | none => rfl
      | some st =>
          simp only [Option.map_some, Option.any_some, BuildFlash.onKey_veil]
          exact App.takeTurn_veil σ app a _ _ (fun app slot => rfl) _
  | build =>
      have slot : (app.veil σ).build = app.build.map (·.veil σ) := rfl
      rw [slot]
      cases app.build with
      | none => rfl
      | some st =>
          simp only [Option.map_some, Option.any_some, Build.onKey_veil]
          exact App.takeTurn_veil σ app a _ _ (fun app slot => rfl) _
  | flash =>
      have slot : (app.veil σ).flash = app.flash.map (·.veil σ) := rfl
      rw [slot]
      cases app.flash with
      | none => rfl
      | some st =>
          simp only [Option.map_some, Option.any_some, Flash.onKey_veil]
          exact App.takeTurn_veil σ app a _ _ (fun app slot => rfl) _
  | verify =>
      have slot : (app.veil σ).verify = app.verify.map (·.veil σ) := rfl
      rw [slot]
      cases app.verify with
      | none => rfl
      | some st =>
          simp only [Option.map_some, Option.any_some, ConfigureModel.others, Verify.onKey_veil]
          exact App.takeTurn_veil σ app a _ _ (fun app slot => rfl)
            ⟨(Verify.onKey a st key).next, (Verify.onKey a st key).calls, none⟩

/-- Control changes nothing but the key that interrupts. -/
def App.cover (key : KeyCode) (control : Bool) : KeyCode × Bool :=
  if app.hides && !(control && key = .char 'c') then (key.recode σ, false) else (key, control)

theorem App.cover_interrupt {key : KeyCode} {control : Bool}
    (interrupt : (control && key = .char 'c') = true) : app.cover σ key control = (key, control) := by
  rw [App.cover, interrupt, Bool.not_true, Bool.and_false, if_neg Bool.false_ne_true]

/-- Any other key is disguised, and is no interrupt. -/
theorem App.cover_key {key : KeyCode} {control : Bool}
    (goesOn : (control && key = .char 'c') = false) :
    (app.cover σ key control).1 = app.disguise σ key ∧
      ((app.cover σ key control).2 && (app.cover σ key control).1 = .char 'c') = false := by
  rw [App.cover, App.disguise, goesOn, Bool.not_false, Bool.and_true]
  cases app.hides with
  | true => exact ⟨rfl, rfl⟩
  | false => exact ⟨rfl, goesOn⟩

theorem App.onKey_veil (a : Answers) (key : KeyCode) (control : Bool) :
    (app.veil σ).onKey (configure.others configDir) configDir a (app.cover σ key control).1
        (app.cover σ key control).2 =
      veilReaction σ (app.onKey (configure.others configDir) configDir a key control) := by
  unfold App.onKey
  cases interrupt : (control && decide (key = .char 'c')) with
  | true =>
      rw [App.cover_interrupt σ app interrupt]
      dsimp only
      rw [interrupt]
      rfl
  | false =>
      obtain ⟨disguised, goesOn⟩ := App.cover_key σ app interrupt
      rw [goesOn, disguised]
      exact App.screenKey_veil configure configDir σ app a key

theorem App.operation_veil (a : Answers) (key : KeyCode) :
    (app.veil σ).operation configDir a (app.disguise σ key) = app.operation configDir a key := by
  have screen : (app.veil σ).screen = app.screen := rfl
  have cfg : (app.veil σ).cfg = app.cfg := rfl
  unfold App.operation
  rw [screen, cfg, App.disguise, App.hides]
  cases app.screen with
  | home =>
      have home : (app.veil σ).home = app.home := rfl
      have busy : ((app.veil σ).verify.filter VerifyScreen.isRunning = none) =
          (app.verify.filter VerifyScreen.isRunning = none) := by
        have veiled : (app.veil σ).verify = app.verify.map (·.veil σ) := rfl
        rw [veiled, filter_veil _ _ (Verify.isRunning_veil σ), Option.map_eq_none_iff]
      simp only [Bool.false_eq_true, if_false, App.homeOperation, home, busy]
  | configure => rfl
  | buildFlash =>
      have slot : (app.veil σ).buildflash = app.buildflash.map (·.veil σ) := rfl
      rw [slot]
      cases app.buildflash with
      | none => rfl
      | some st =>
          simp only [Option.map_some, Option.any_some, BuildFlash.onKey_veil, Turn.veil,
            Option.map_map]
          cases (BuildFlash.onKey configDir app.cfg a st key).spawned with
          | none => rfl
          | some worker => cases worker <;> rfl
  | build =>
      have slot : (app.veil σ).build = app.build.map (·.veil σ) := rfl
      rw [slot]
      cases app.build with
      | none => rfl
      | some st =>
          simp only [Option.map_some, Option.any_some, Build.onKey_veil, Turn.veil, Option.map_map,
            Function.comp_def]
  | flash =>
      have slot : (app.veil σ).flash = app.flash.map (·.veil σ) := rfl
      rw [slot]
      cases app.flash with
      | none => rfl
      | some st =>
          simp only [Option.map_some, Option.any_some, Flash.onKey_veil, Turn.veil, Option.map_map,
            Function.comp_def]
  | verify =>
      have slot : (app.veil σ).verify = app.verify.map (·.veil σ) := rfl
      rw [slot]
      cases app.verify with
      | none => rfl
      | some st =>
          simp only [Option.map_some, Option.any_some, Verify.onKey_veil, Verify.VerifyTurn.veil,
            Option.map_map, Function.comp_def]

/-- A screen pulls the same events with the same calls. -/
theorem App.pull_veil (a : Answers) (events : List WorkerEvent) (receiver : Receiver) :
    (app.veil σ).pull a events receiver =
      (app.pull a events receiver).map fun (app, calls) => (app.veil σ, calls) := by
  cases receiver with
  | flowBuild =>
      have veiled : (app.veil σ).buildflash.filter (·.buildRx) =
          (app.buildflash.filter (·.buildRx)).map (·.veil σ) :=
        filter_veil (BuildFlash.BuildFlowScreen.veil σ) BuildFlash.BuildFlowScreen.buildRx (fun _ => rfl) app.buildflash
      simp only [App.pull]
      rw [veiled]
      cases app.buildflash.filter (·.buildRx) with
      | none => rfl
      | some st =>
          simp only [Option.map_some, BuildFlash.drainBuild_veil]
          rfl
  | flowFlash =>
      have veiled : (app.veil σ).buildflash.filter (·.flashRx) =
          (app.buildflash.filter (·.flashRx)).map (·.veil σ) :=
        filter_veil (BuildFlash.BuildFlowScreen.veil σ) BuildFlash.BuildFlowScreen.flashRx (fun _ => rfl) app.buildflash
      simp only [App.pull]
      rw [veiled]
      cases app.buildflash.filter (·.flashRx) with
      | none => rfl
      | some st =>
          simp only [Option.map_some, BuildFlash.drainFlash_veil]
          rfl
  | build =>
      have veiled : (app.veil σ).build.filter (·.rx) =
          (app.build.filter (·.rx)).map (·.veil σ) :=
        filter_veil (Build.BuildScreen.veil σ) Build.BuildScreen.rx (fun _ => rfl) app.build
      simp only [App.pull]
      rw [veiled]
      cases app.build.filter (·.rx) with
      | none => rfl
      | some st =>
          simp only [Option.map_some, Build.drainEvents_veil]
          rfl
  | flash =>
      have veiled : (app.veil σ).flash.filter (·.rx) =
          (app.flash.filter (·.rx)).map (·.veil σ) :=
        filter_veil (Flash.FlashScreen.veil σ) Flash.FlashScreen.rx (fun _ => rfl) app.flash
      simp only [App.pull]
      rw [veiled]
      cases app.flash.filter (·.rx) with
      | none => rfl
      | some st =>
          simp only [Option.map_some, Flash.drainEvents_veil]
          rfl
  | verify =>
      have veiled : (app.veil σ).verify.filter (·.rx) =
          (app.verify.filter (·.rx)).map (·.veil σ) :=
        filter_veil (VerifyScreen.veil σ) VerifyScreen.rx (fun _ => rfl) app.verify
      simp only [App.pull]
      rw [veiled]
      cases app.verify.filter (·.rx) with
      | none => rfl
      | some st =>
          simp only [Option.map_some, Verify.drainEvents_veil]
          rfl

end Application

/-! ## Sessions -/

namespace Session

variable {Configure : Type} (configure : ConfigureModel Configure) (configDir : String)
  (σ : Equiv.Perm Char)

def veil (s : Session Configure) : Session Configure := { s with app := s.app.veil σ }

/-- The same event, with other characters typed at the hidden prompts. -/
def cover (s : Session Configure) : SessionEvent → SessionEvent
  | .key a writes key control =>
      .key a writes (s.app.cover σ key control).1 (s.app.cover σ key control).2
  | event => event

def coverAll : Session Configure → List SessionEvent → List SessionEvent
  | _, [] => []
  | s, event :: rest => s.cover σ event ::
      match s.step configure configDir event with
      | none => rest
      | some next => coverAll next rest

/-- What a receiver that is drained hands to the session log. -/
def pulledCalls (a : Answers) (s : Session Configure) (receiver : Receiver) : List LogCall :=
  (((s.channel receiver).bind s.threads).bind fun thread =>
    s.app.pull a thread.sent receiver).elim [] Prod.snd

def drainCalls (a : Answers) (writes : Receiver → Nat) :
    Session Configure → List Receiver → List LogCall
  | _, [] => []
  | s, receiver :: rest => s.pulledCalls a receiver ++
      drainCalls a writes (s.drainReceiver a (writes receiver) receiver) rest

/-- What an event hands to the session log. -/
def logCalls (s : Session Configure) : SessionEvent → List LogCall
  | .key a _ key control =>
      if control && key = .char 'c' then [] else (s.app.operation configDir a key).1
  | .drain a writes => drainCalls a writes s receivers
  | .picked _ | .send _ _ => []

/-- What the operator sees after an event, and what was logged. -/
structure Picture (Configure : Type) where
  modal : Option Modal
  rest : App Configure VerifyScreen
  panicked : Bool
  calls : List LogCall

def pictures : Session Configure → List SessionEvent → List (Picture Configure)
  | _, [] => []
  | s, event :: rest =>
      match s.step configure configDir event with
      | none => []
      | some next =>
          ⟨next.app.modal, next.app.blank, next.panicked, s.logCalls configDir event⟩ ::
            pictures next rest

variable (s : Session Configure)

theorem onKey_veil (a : Answers) (writes : Nat) (key : KeyCode) (control : Bool) :
    (s.veil σ).onKey configure configDir a writes (s.app.cover σ key control).1
        (s.app.cover σ key control).2 =
      (s.onKey configure configDir a writes key control).veil σ := by
  have veiled : (s.veil σ).app = s.app.veil σ := rfl
  unfold Session.onKey
  rw [veiled, App.onKey_veil]
  cases s.app.onKey (configure.others configDir) configDir a key control with
  | error message => rfl
  | ok next =>
      cases interrupt : (control && decide (key = .char 'c')) with
      | true =>
          rw [App.cover_interrupt σ s.app interrupt]
          simp only [veilReaction, Except.map, interrupt, if_true]
          rfl
      | false =>
          obtain ⟨disguised, goesOn⟩ := App.cover_key σ s.app interrupt
          have operation := App.operation_veil configDir σ s.app a key
          rw [disguised] at goesOn
          simp only [veilReaction, Except.map, disguised, goesOn, operation, Bool.false_eq_true,
            if_false]
          cases (s.app.operation configDir a key).2 <;> rfl

theorem drainReceiver_veil (a : Answers) (writes : Nat) (receiver : Receiver) :
    (s.veil σ).drainReceiver a writes receiver = (s.drainReceiver a writes receiver).veil σ := by
  have channel : (s.veil σ).channel = s.channel := rfl
  have threads : (s.veil σ).threads = s.threads := rfl
  have veiled : (s.veil σ).app = s.app.veil σ := rfl
  unfold Session.drainReceiver
  rw [channel]
  cases s.channel receiver with
  | none => rfl
  | some id =>
      simp only [threads]
      cases s.threads id with
      | none => rfl
      | some thread =>
          simp only [veiled, App.pull_veil]
          cases s.app.pull a thread.sent receiver <;> rfl

theorem pulledCalls_veil (a : Answers) (receiver : Receiver) :
    (s.veil σ).pulledCalls a receiver = s.pulledCalls a receiver := by
  have veiled : (s.veil σ).app = s.app.veil σ := rfl
  unfold Session.pulledCalls
  rw [veiled]
  change ((s.channel receiver).bind s.threads |>.bind _).elim _ _ = _
  cases (s.channel receiver).bind s.threads with
  | none => rfl
  | some thread =>
      simp only [Option.bind_some, App.pull_veil]
      cases s.app.pull a thread.sent receiver <;> rfl

theorem drain_veil (a : Answers) (writes : Receiver → Nat) (order : List Receiver) :
    order.foldl (fun s receiver => s.drainReceiver a (writes receiver) receiver) (s.veil σ) =
      (order.foldl (fun s receiver => s.drainReceiver a (writes receiver) receiver) s).veil σ ∧
    drainCalls a writes (s.veil σ) order = drainCalls a writes s order := by
  induction order generalizing s with
  | nil => exact ⟨rfl, rfl⟩
  | cons receiver rest ih =>
      obtain ⟨drained, calls⟩ := ih (s.drainReceiver a (writes receiver) receiver)
      simp only [List.foldl_cons, drainCalls, drainReceiver_veil, pulledCalls_veil]
      exact ⟨drained, by rw [calls]⟩

/-- A step with other characters at the hidden prompts leads to the same state but
for the secrets, and hands the same calls to the session log. -/
theorem step_veil (event : SessionEvent) :
    Session.step configure configDir (s.veil σ) (s.cover σ event) =
        (Session.step configure configDir s event).map (Session.veil σ) ∧
      (s.veil σ).logCalls configDir (s.cover σ event) = s.logCalls configDir event := by
  have panicked : (s.veil σ).panicked = s.panicked := rfl
  have quit : (s.veil σ).app.quit = s.app.quit := rfl
  cases event with
  | key a writes key control =>
      constructor
      · simp only [Session.step, Session.cover, panicked, quit, onKey_veil]
        split
        · rfl
        · split <;> rfl
      · have veiled : (s.veil σ).app = s.app.veil σ := rfl
        simp only [Session.logCalls, Session.cover, veiled]
        cases interrupt : (control && decide (key = .char 'c')) with
        | true =>
            rw [App.cover_interrupt σ s.app interrupt]
            simp only [interrupt, if_true]
        | false =>
            obtain ⟨disguised, goesOn⟩ := App.cover_key σ s.app interrupt
            rw [disguised] at goesOn
            simp only [disguised, goesOn, App.operation_veil]
  | drain a writes =>
      obtain ⟨drained, calls⟩ := drain_veil σ s a writes receivers
      refine ⟨?_, calls⟩
      simp only [Session.step, Session.cover, panicked, quit, Session.drain, drained]
      split
      · rfl
      · split <;> rfl
  | picked a =>
      refine ⟨?_, rfl⟩
      simp only [Session.step, Session.cover, panicked]
      split <;> rfl
  | send id event =>
      refine ⟨?_, rfl⟩
      simp only [Session.step, Session.cover, panicked]
      split
      · rfl
      · unfold Session.send
        have threads : (s.veil σ).threads = s.threads := rfl
        rw [threads]
        cases s.threads id with
        | none => rfl
        | some thread =>
            simp only [Option.bind_some]
            split <;> rfl

theorem pictures_veil (events : List SessionEvent) :
    pictures configure configDir (s.veil σ) (coverAll configure configDir σ s events) =
      pictures configure configDir s events := by
  induction events generalizing s with
  | nil => rfl
  | cons event rest ih =>
      obtain ⟨stepped, calls⟩ := step_veil configure configDir σ s event
      rw [coverAll, pictures, pictures, stepped]
      cases Session.step configure configDir s event with
      | none => rfl
      | some next =>
          simp only [Option.map_some, calls]
          have modal : (next.veil σ).app.modal = next.app.modal := App.modal_veil σ next.app
          have blank : (next.veil σ).app.blank = next.app.blank := App.blank_veil σ next.app
          rw [modal, blank, ih next]
          rfl

/-- Whatever the operator does and the workers send: with other characters at the
hidden prompts, the screen shows the same and the session log gets the same. -/
theorem secrets_stay_hidden (cfg : Config) (events : List SessionEvent) :
    pictures configure configDir (.start cfg)
        (coverAll configure configDir σ (.start cfg) events) =
      pictures configure configDir (.start cfg) events :=
  pictures_veil configure configDir σ (.start cfg) events

end Session

end Nixnas.Ui
