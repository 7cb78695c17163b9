import Nixnas.Ui.Quitting
import Nixnas.Ui.Workers

/-!
# The session stays coherent

The screen on display holds the receiver of the only worker that anybody waits
for, and the log file that is open is that worker's.  Every key, every drain and
every event of a worker keeps it so.
-/

set_option autoImplicit false

namespace Nixnas.Ui

open Nixnas.Logic
open Nixnas.Tui.Build (BuildEvent Config)
open Nixnas.Tui.Flash
open Nixnas.Ui.Verify (VerifyScreen)

variable {Configure : Type}

/-! ## The screen on display -/

structure App.AtHome (app : App Configure VerifyScreen) : Prop where
  shown : app.screen = .home
  configure : app.configure = none
  buildflash : app.buildflash = none
  build : app.build = none
  flash : app.flash = none
  verify : app.verify = none

/-- The slot of the screen that is shown is the only one filled, and its screen
holds `held`. -/
inductive App.Shows (app : App Configure VerifyScreen) (held : Option Receiver) : Prop where
  | home (rest : app.AtHome) (idle : held = none)
  | configure (st : Configure) (shown : app.screen = .configure) (configure : app.configure = some st)
      (buildflash : app.buildflash = none) (build : app.build = none) (flash : app.flash = none)
      (verify : app.verify = none) (idle : held = none)
  | buildFlash (st : BuildFlash.BuildFlowScreen) (shown : app.screen = .buildFlash)
      (configure : app.configure = none) (buildflash : app.buildflash = some st)
      (build : app.build = none) (flash : app.flash = none) (verify : app.verify = none)
      (waits : st.Waits) (holds : st.receiver = held)
  | build (st : Build.BuildScreen) (shown : app.screen = .build) (configure : app.configure = none)
      (buildflash : app.buildflash = none) (build : app.build = some st) (flash : app.flash = none)
      (verify : app.verify = none) (waits : st.Waits) (holds : st.receiver = held)
  | flash (st : Flash.FlashScreen) (shown : app.screen = .flash) (configure : app.configure = none)
      (buildflash : app.buildflash = none) (build : app.build = none) (flash : app.flash = some st)
      (verify : app.verify = none) (waits : st.Waits) (holds : st.receiver = held)
  | verify (st : VerifyScreen) (shown : app.screen = .verify) (configure : app.configure = none)
      (buildflash : app.buildflash = none) (build : app.build = none) (flash : app.flash = none)
      (verify : app.verify = some st) (waits : st.Waits) (holds : st.receiver = held)

theorem BuildFlash.receiver_isSome (st : BuildFlash.BuildFlowScreen) :
    st.receiver.isSome = st.isRunning := by
  unfold BuildFlash.BuildFlowScreen.receiver BuildFlash.BuildFlowScreen.isRunning
  cases st.stage <;> rfl

variable {app next : App Configure VerifyScreen} {held : Option Receiver}

theorem App.Shows.oneSlot (shows : app.Shows held) : app.OneSlot := by
  cases shows with
  | home rest => constructor <;> simp [rest.shown, rest.configure, rest.buildflash, rest.build,
      rest.flash, rest.verify]
  | configure | buildFlash | build | flash | verify => constructor <;> simp [*]

theorem App.Shows.opRunning (shows : app.Shows held) : app.opRunning = held.isSome := by
  unfold App.opRunning
  cases shows with
  | home rest idle => simp [rest.buildflash, rest.build, rest.flash, rest.verify, idle]
  | configure st _ _ buildflash build flash verify idle => simp [*]
  | buildFlash st _ _ buildflash build flash verify _ holds =>
      simp [buildflash, build, flash, verify, ← holds, BuildFlash.receiver_isSome]
  | build st _ _ buildflash build flash verify _ holds =>
      simp [buildflash, build, flash, verify, ← holds, Build.BuildScreen.receiver, heldWhile_isSome,
        Build.BuildScreen.isRunning]
  | flash st _ _ buildflash build flash verify _ holds =>
      simp [buildflash, build, flash, verify, ← holds, Flash.FlashScreen.receiver, heldWhile_isSome,
        Flash.FlashScreen.isRunning]
  | verify st _ _ buildflash build flash verify _ holds =>
      simp [buildflash, build, flash, verify, ← holds, VerifyScreen.receiver, heldWhile_isSome,
        VerifyScreen.isRunning]

theorem App.Shows.atHome (shows : app.Shows held) (shown : app.screen = .home) :
    app.AtHome ∧ held = none := by
  cases shows with
  | home rest idle => exact ⟨rest, idle⟩
  | configure _ other => simp [shown] at other
  | buildFlash _ other => simp [shown] at other
  | build _ other => simp [shown] at other
  | flash _ other => simp [shown] at other
  | verify _ other => simp [shown] at other

/-- Only the slots and the screen count, and of the Configure screen only that it
is there. -/
theorem App.Shows.frame (shows : app.Shows held) (screen : next.screen = app.screen)
    (configure : next.configure.isSome = app.configure.isSome)
    (buildflash : next.buildflash = app.buildflash) (build : next.build = app.build)
    (flash : next.flash = app.flash) (verify : next.verify = app.verify) : next.Shows held := by
  have absent : app.configure = none → next.configure = none := by
    intro empty
    rw [empty] at configure
    simpa using configure
  cases shows with
  | home rest idle =>
      exact .home ⟨screen.trans rest.shown, absent rest.configure, buildflash.trans rest.buildflash,
        build.trans rest.build, flash.trans rest.flash, verify.trans rest.verify⟩ idle
  | configure st shown slot noFlow noBuild noFlash noVerify idle =>
      rw [slot] at configure
      obtain ⟨after, filled⟩ := Option.isSome_iff_exists.mp configure
      exact .configure after (screen.trans shown) filled (buildflash.trans noFlow)
        (build.trans noBuild) (flash.trans noFlash) (verify.trans noVerify) idle
  | buildFlash st shown empty slot noBuild noFlash noVerify waits holds =>
      exact .buildFlash st (screen.trans shown) (absent empty) (buildflash.trans slot)
        (build.trans noBuild) (flash.trans noFlash) (verify.trans noVerify) waits holds
  | build st shown empty noFlow slot noFlash noVerify waits holds =>
      exact .build st (screen.trans shown) (absent empty) (buildflash.trans noFlow)
        (build.trans slot) (flash.trans noFlash) (verify.trans noVerify) waits holds
  | flash st shown empty noFlow noBuild slot noVerify waits holds =>
      exact .flash st (screen.trans shown) (absent empty) (buildflash.trans noFlow)
        (build.trans noBuild) (flash.trans slot) (verify.trans noVerify) waits holds
  | verify st shown empty noFlow noBuild noFlash slot waits holds =>
      exact .verify st (screen.trans shown) (absent empty) (buildflash.trans noFlow)
        (build.trans noBuild) (flash.trans noFlash) (verify.trans slot) waits holds

/-! ## Keys -/

/-- A key changes nobody's worker; or nobody waited for one, and it starts one
and its log. -/
inductive App.Reacts (held : Option Receiver) (next : App Configure VerifyScreen) :
    List LogCall → Option Receiver → Prop where
  | goesOn (shows : next.Shows held) : Reacts held next [] none
  | starts (idle : held = none) (action : String) (field : Receiver)
      (shows : next.Shows (some field)) : Reacts held next [.begin action] (some field)

theorem reacts_of_moves {S : Type} {receiver : S → Option Receiver} {coherent : S → Prop} {st : S}
    {a : Answers} {put : App Configure VerifyScreen → Option S → App Configure VerifyScreen}
    {turn : Turn S} {field : Option Receiver} {spawned : Option Worker}
    (moves : Moves receiver coherent st turn.next turn.calls field)
    (stays : ∀ st, coherent st → (put (app.logged a turn.calls) (some st)).Shows (receiver st))
    (leaves : ({ put (app.logged a turn.calls) none with screen := .home } :
      App Configure VerifyScreen).Shows none)
    (taken : app.takeTurn a put turn = .ok (next, spawned)) :
    App.Reacts (receiver st) next turn.calls field := by
  obtain ⟨-, kept⟩ := takeTurn_ok taken
  obtain ⟨shown, calls, worker⟩ := turn
  dsimp only at moves kept ⊢
  cases moves with
  | stay after coherent same =>
      rcases kept with ⟨other, stayed, rfl⟩ | ⟨left, -⟩
      · cases stayed
        rw [← same]
        exact .goesOn (stays after coherent)
      · cases left
  | home idle =>
      rcases kept with ⟨other, stayed, -⟩ | ⟨-, rfl⟩
      · cases stayed
      · rw [idle]
        exact .goesOn leaves
  | panic message =>
      rcases kept with ⟨other, stayed, -⟩ | ⟨left, -⟩
      · cases stayed
      · cases left
  | starts idle after coherent action field waits =>
      rcases kept with ⟨other, stayed, rfl⟩ | ⟨left, -⟩
      · cases stayed
        refine .starts idle action field ?_
        rw [← waits]
        exact stays after coherent
      · cases left

variable {configure : ConfigureModel Configure} {configDir : String} {a : Answers}

theorem App.AtHome.requestQuit (rest : app.AtHome) : app.requestQuit.AtHome := by
  unfold App.requestQuit
  split <;>
    exact ⟨rest.shown, rest.configure, rest.buildflash, rest.build, rest.flash, rest.verify⟩

theorem App.AtHome.exitPromptKey (rest : app.AtHome) (key : KeyCode) :
    (app.exitPromptKey key).AtHome := by
  unfold App.exitPromptKey
  split <;>
    exact ⟨rest.shown, rest.configure, rest.buildflash, rest.build, rest.flash, rest.verify⟩

/-- Every entry but the image check opens a screen that waits for nobody. -/
theorem openEntry_shows (rest : app.AtHome) (other : app.home.selected ≠ 4) :
    (app.openEntry (configure.others configDir) configDir a).Shows none := by
  obtain ⟨shown, noConfigure, noFlow, noBuild, noFlash, noVerify⟩ := rest
  unfold App.openEntry
  split
  · exact .configure _ rfl rfl noFlow noBuild noFlash noVerify rfl
  · obtain ⟨waits, idle⟩ := BuildFlash.new_waits app.cfg a
    rw [noFlow]
    exact .buildFlash _ rfl noConfigure rfl noBuild noFlash noVerify waits idle
  · obtain ⟨waits, idle⟩ := Build.new_waits app.cfg
    rw [noBuild]
    exact .build _ rfl noConfigure noFlow rfl noFlash noVerify waits idle
  · obtain ⟨waits, idle⟩ := Flash.new_waits configDir a
    rw [noFlash]
    exact .flash _ rfl noConfigure noFlow noBuild rfl noVerify waits idle
  · contradiction
  · obtain ⟨waits, idle⟩ := Verify.newInstall_waits configDir a
    rw [noVerify]
    exact .verify _ rfl noConfigure noFlow noBuild noFlash rfl waits idle
  · exact .home (App.AtHome.requestQuit ⟨shown, noConfigure, noFlow, noBuild, noFlash, noVerify⟩) rfl

/-- The image check has its worker from the start, if there is an image. -/
theorem imageEntry_reacts (rest : app.AtHome) (prompt : app.home.exitPrompt = false)
    (fourth : app.home.selected = 4) :
    App.Reacts none (app.openEntry (configure.others configDir) configDir a)
      (app.homeOperation configDir a .enter).1 (app.homeOperation configDir a .enter).2 := by
  obtain ⟨waits, holds⟩ := Verify.newImage_waits configDir a
  have runs : (VerifyScreen.newImage configDir a).1.receiver.isSome =
      (VerifyScreen.newImage configDir a).1.isRunning := heldWhile_isSome _
  have quiet : app.verify.filter VerifyScreen.isRunning = none := by
    rw [rest.verify, Option.filter_none]
  have opened : app.openEntry (configure.others configDir) configDir a =
      { app.logged a (app.homeOperation configDir a .enter).1 with
        verify := some (VerifyScreen.newImage configDir a).1, screen := .verify } := by
    unfold App.openEntry App.homeOperation
    rw [if_pos ⟨prompt, rfl, fourth, quiet⟩]
    simp only [fourth, ConfigureModel.others, quiet]
    rfl
  have shows : (app.openEntry (configure.others configDir) configDir a).Shows
      (VerifyScreen.newImage configDir a).1.receiver := by
    rw [opened]
    exact .verify _ rfl rest.configure rest.buildflash rest.build rest.flash rfl waits rfl
  unfold App.homeOperation
  rw [if_pos ⟨prompt, rfl, fourth, quiet⟩]
  dsimp only
  rw [← holds, ← runs]
  cases waiting : (VerifyScreen.newImage configDir a).1.receiver with
  | none =>
      rw [waiting] at shows
      exact .goesOn shows
  | some field =>
      rw [waiting] at shows
      exact .starts rfl _ field shows

theorem home_reacts (rest : app.AtHome) (key : KeyCode) :
    App.Reacts none (app.homeKey (configure.others configDir) configDir a key)
      (app.homeOperation configDir a key).1 (app.homeOperation configDir a key).2 := by
  by_cases prompt : app.home.exitPrompt = true
  · unfold App.homeKey App.homeOperation
    rw [if_pos prompt, if_neg (by simp [prompt])]
    exact .goesOn (.home (rest.exitPromptKey key) rfl)
  · by_cases entry : key = .enter ∧ app.home.selected = 4
    · obtain ⟨rfl, fourth⟩ := entry
      unfold App.homeKey
      rw [if_neg prompt]
      exact imageEntry_reacts rest (by simpa using prompt) fourth
    · have quiet : app.homeOperation configDir a key = ([], none) :=
        if_neg fun opens => entry ⟨opens.2.1, opens.2.2.1⟩
      have moved : ∀ home, App.AtHome { app with home := home } := fun home =>
        ⟨rest.shown, rest.configure, rest.buildflash, rest.build, rest.flash, rest.verify⟩
      rw [quiet]
      unfold App.homeKey
      rw [if_neg prompt]
      split
      · exact .goesOn (.home (moved _) rfl)
      · exact .goesOn (.home (moved _) rfl)
      · exact .goesOn (.home (moved _) rfl)
      · exact .goesOn (.home (moved _) rfl)
      · exact .goesOn (.home rest.requestQuit rfl)
      · exact .goesOn (openEntry_shows rest fun fourth => entry ⟨rfl, fourth⟩)
      · exact .goesOn (.home rest rfl)

/-- What any key does. -/
theorem screenKey_reacts {key : KeyCode} {spawned : Option Worker} (shows : app.Shows held)
    (taken : app.screenKey (configure.others configDir) configDir a key = .ok (next, spawned)) :
    App.Reacts held next (app.operation configDir a key).1 (app.operation configDir a key).2 := by
  unfold App.screenKey at taken
  unfold App.operation
  cases shows with
  | home rest idle =>
      simp only [rest.shown, Except.ok.injEq, Prod.mk.injEq] at taken ⊢
      rw [idle, ← taken.1]
      exact home_reacts rest key
  | configure st shown configure buildflash build flash verify idle =>
      simp only [shown, configure] at taken ⊢
      obtain ⟨-, ⟨after, -, rfl⟩ | ⟨-, rfl⟩⟩ := takeTurn_ok taken
      · exact .goesOn (.configure after rfl rfl buildflash build flash verify idle)
      · exact .goesOn (.home ⟨rfl, rfl, buildflash, build, flash, verify⟩ idle)
  | buildFlash st shown configure buildflash build flash verify waits holds =>
      simp only [shown, buildflash] at taken ⊢
      rw [← holds]
      refine reacts_of_moves (BuildFlash.orderly_onKey configDir app.cfg a waits key) ?_ ?_ taken
      · intro after waits
        exact .buildFlash after shown configure rfl build flash verify waits rfl
      · exact .home ⟨rfl, configure, rfl, build, flash, verify⟩ rfl
  | build st shown configure buildflash build flash verify waits holds =>
      simp only [shown, build] at taken ⊢
      rw [← holds]
      refine reacts_of_moves (Build.orderly_onKey app.cfg a waits key) ?_ ?_ taken
      · intro after waits
        exact .build after shown configure buildflash rfl flash verify waits rfl
      · exact .home ⟨rfl, configure, buildflash, rfl, flash, verify⟩ rfl
  | flash st shown configure buildflash build flash verify waits holds =>
      simp only [shown, flash] at taken ⊢
      rw [← holds]
      refine reacts_of_moves (Flash.orderly_onKey configDir a waits key) ?_ ?_ taken
      · intro after waits
        exact .flash after shown configure buildflash build rfl verify waits rfl
      · exact .home ⟨rfl, configure, buildflash, build, rfl, verify⟩ rfl
  | verify st shown configure buildflash build flash verify waits holds =>
      simp only [shown, verify] at taken ⊢
      rw [← holds]
      refine reacts_of_moves (Verify.orderly_onKey a waits key) ?_ ?_ taken
      · intro after waits
        exact .verify after shown configure buildflash build flash rfl waits rfl
      · exact .home ⟨rfl, configure, buildflash, build, flash, rfl⟩ rfl

/-! ## Drains -/

/-- Only the receiver that is held yields anything. -/
inductive App.Pulls (held : Option Receiver) (app : App Configure VerifyScreen) (receiver : Receiver)
    (ended : Bool) : Option (App Configure VerifyScreen × List LogCall) → Prop where
  | nothing (other : held ≠ some receiver) : Pulls held app receiver ended none
  | goesOn (holds : held = some receiver) (goes : ended = false)
      (next : App Configure VerifyScreen) (calls : List LogCall) (shows : next.Shows held)
      (quit : next.quit = app.quit) : Pulls held app receiver ended (some (next, calls))
  | ends (holds : held = some receiver) (stops : ended = true)
      (next : App Configure VerifyScreen) (calls : List LogCall) (ok : Bool) (msg : String)
      (shows : next.Shows none) (quit : next.quit = app.quit) :
      Pulls held app receiver ended (some (next, calls ++ [.done ok msg]))

theorem pulls_of_drains {S : Type} {field : S → Option Receiver} {coherent : S → Prop} {st : S}
    {receiver : Receiver} {ended : Bool} {drained : S × List LogCall}
    (put : S → App Configure VerifyScreen) (drains : Drains field coherent st ended drained)
    (holds : field st = some receiver)
    (shows : ∀ st, coherent st → (put st).Shows (field st))
    (quit : ∀ st, (put st).quit = app.quit) :
    App.Pulls (field st) app receiver ended (some (put drained.1, drained.2)) := by
  cases drains with
  | goesOn after calls kept same =>
      refine .goesOn holds rfl (put after) calls ?_ (quit after)
      rw [← same]
      exact shows after kept
  | ends after calls ok msg kept idle =>
      refine .ends holds rfl (put after) calls ok msg ?_ (quit after)
      rw [← idle]
      exact shows after kept

theorem BuildFlash.rx_of_waits {st : BuildFlash.BuildFlowScreen} (waits : st.Waits) :
    st.buildRx = decide (st.receiver = some .flowBuild) ∧
      st.flashRx = decide (st.receiver = some .flowFlash) := by
  refine ⟨Bool.eq_iff_iff.mpr (waits.build.trans ?_), Bool.eq_iff_iff.mpr (waits.flash.trans ?_)⟩
  · unfold BuildFlash.BuildFlowScreen.receiver
    cases st.stage <;> simp
  · unfold BuildFlash.BuildFlowScreen.receiver
    cases st.stage <;> simp

theorem pull_silent (shows : app.Shows held) (a : Answers) (events : List WorkerEvent)
    {receiver : Receiver} (other : held ≠ some receiver) : app.pull a events receiver = none := by
  cases shows with
  | home rest idle =>
      cases receiver <;> simp [App.pull, rest.buildflash, rest.build, rest.flash, rest.verify]
  | configure st _ _ buildflash build flash verify idle => cases receiver <;> simp [App.pull, *]
  | buildFlash st _ _ buildflash build flash verify waits holds =>
      rw [← holds] at other
      have hears := BuildFlash.rx_of_waits waits
      cases receiver <;> simp [App.pull, buildflash, build, flash, verify, hears, other]
  | build st _ _ buildflash build flash verify waits holds =>
      rw [← holds] at other
      have hears : st.rx = decide (st.receiver = some .build) := rx_of_waits .build waits
      cases receiver <;> simp [App.pull, buildflash, build, flash, verify, hears, other]
  | flash st _ _ buildflash build flash verify waits holds =>
      rw [← holds] at other
      have hears : st.rx = decide (st.receiver = some .flash) := rx_of_waits .flash waits
      cases receiver <;> simp [App.pull, buildflash, build, flash, verify, hears, other]
  | verify st _ _ buildflash build flash verify waits holds =>
      rw [← holds] at other
      have hears : st.rx = decide (st.receiver = some .verify) := rx_of_waits .verify waits
      cases receiver <;> simp [App.pull, buildflash, build, flash, verify, hears, other]

theorem pull_pulls (shows : app.Shows held) (a : Answers) (events : List WorkerEvent)
    (receiver : Receiver) :
    App.Pulls held app receiver (receiver.ends events) (app.pull a events receiver) := by
  by_cases mine : held = some receiver
  · cases shows with
    | home rest idle => simp [idle] at mine
    | configure st _ _ _ _ _ _ idle => simp [idle] at mine
    | buildFlash st shown configure buildflash build flash verify waits holds =>
        subst holds
        obtain ⟨hearsBuild, hearsFlash⟩ := BuildFlash.rx_of_waits waits
        cases receiver with
        | flowBuild =>
            have live : st.buildRx = true := by simpa [mine] using hearsBuild
            simp only [App.pull, buildflash, Option.filter_some, live, if_true, Option.map_some]
            refine pulls_of_drains (fun st => { app with buildflash := some st })
              (BuildFlash.drainsBuild a waits live (events.filterMap WorkerEvent.build?)) mine ?_ ?_
            · intro after waits
              exact .buildFlash after shown configure rfl build flash verify waits rfl
            · exact fun _ => rfl
        | flowFlash =>
            have live : st.flashRx = true := by simpa [mine] using hearsFlash
            simp only [App.pull, buildflash, Option.filter_some, live, if_true, Option.map_some]
            refine pulls_of_drains (fun st => { app with buildflash := some st })
              (BuildFlash.drainsFlash waits live (events.filterMap WorkerEvent.flash?)) mine ?_ ?_
            · intro after waits
              exact .buildFlash after shown configure rfl build flash verify waits rfl
            · exact fun _ => rfl
        | build | flash | verify =>
            unfold BuildFlash.BuildFlowScreen.receiver at mine
            split at mine <;> cases mine
    | build st shown configure buildflash build flash verify waits holds =>
        subst holds
        obtain rfl := held_eq mine
        have live : st.rx = true := (rx_of_waits .build waits).trans (decide_eq_true mine)
        simp only [App.pull, build, Option.filter_some, live, if_true, Option.map_some]
        refine pulls_of_drains (fun st => { app with build := some st })
          (Build.drains waits live (events.filterMap WorkerEvent.build?)) mine ?_ ?_
        · intro after waits
          exact .build after shown configure buildflash rfl flash verify waits rfl
        · exact fun _ => rfl
    | flash st shown configure buildflash build flash verify waits holds =>
        subst holds
        obtain rfl := held_eq mine
        have live : st.rx = true := (rx_of_waits .flash waits).trans (decide_eq_true mine)
        simp only [App.pull, flash, Option.filter_some, live, if_true, Option.map_some]
        refine pulls_of_drains (fun st => { app with flash := some st })
          (Flash.drains waits live (events.filterMap WorkerEvent.flash?)) mine ?_ ?_
        · intro after waits
          exact .flash after shown configure buildflash build rfl verify waits rfl
        · exact fun _ => rfl
    | verify st shown configure buildflash build flash verify waits holds =>
        subst holds
        obtain rfl := held_eq mine
        have live : st.rx = true := (rx_of_waits .verify waits).trans (decide_eq_true mine)
        simp only [App.pull, verify, Option.filter_some, live, if_true, Option.map_some]
        refine pulls_of_drains (fun st => { app with verify := some st })
          (Verify.drains waits live (events.filterMap WorkerEvent.verify?)) mine ?_ ?_
        · intro after waits
          exact .verify after shown configure buildflash build flash rfl waits rfl
        · exact fun _ => rfl
  · rw [pull_silent shows a events mine]
    exact .nothing mine

/-! ## The log -/

namespace SessionLog

/-- No file but `id`'s is open, and every line stands in its worker's file. -/
structure Follows (log : SessionLog) (id : Nat) : Prop where
  writer : log.writer = none ∨ log.writer = some id
  lines : ∀ line ∈ log.lines, line.1 = line.2

variable {log : SessionLog} {id : Nat}

theorem finish_follows (follows : log.Follows id) : log.finish.Follows id :=
  ⟨Or.inl rfl, follows.lines⟩

theorem write_follows (follows : log.Follows id) (succeeds : Bool) :
    (log.write id succeeds).Follows id := by
  unfold write
  rcases follows.writer with closed | mine
  · rw [closed]
    exact follows
  · rw [mine]
    dsimp only
    split
    · refine ⟨Or.inr rfl, ?_⟩
      intro line member
      rcases List.mem_cons.mp member with rfl | older
      · rfl
      · exact follows.lines line older
    · exact ⟨Or.inl rfl, follows.lines⟩

/-- What a worker's own calls leave is its own. -/
theorem tee_follows (opens : Bool) (calls : List LogCall) (writes : Nat)
    (follows : log.Follows id) : (log.tee opens id calls writes).Follows id := by
  induction calls generalizing log writes with
  | nil => exact follows
  | cons call rest ih =>
      cases call with
      | begin action =>
          apply ih
          refine ⟨?_, follows.lines⟩
          dsimp only
          split
          · exact Or.inr rfl
          · exact Or.inl rfl
      | done ok msg => exact ih (writes - 1) (finish_follows (write_follows follows _))
      | step name state => exact ih (writes - 1) (write_follows follows _)
      | line s => exact ih (writes - 1) (write_follows follows _)
      | phase title => exact ih (writes - 1) (write_follows follows _)

theorem tee_append (opens : Bool) (calls after : List LogCall) (writes : Nat) :
    log.tee opens id (calls ++ after) writes =
      (log.tee opens id calls writes).tee opens id after (writes - calls.length) := by
  induction calls generalizing log writes with
  | nil => rfl
  | cons call rest ih =>
      have fewer : writes - (call :: rest).length = writes - 1 - rest.length := by
        rw [List.length_cons]
        omega
      rw [fewer]
      cases call <;> exact ih (writes - 1)

/-- The verdict closes the file. -/
theorem tee_done (opens : Bool) (calls : List LogCall) (ok : Bool) (msg : String) (writes : Nat) :
    (log.tee opens id (calls ++ [.done ok msg]) writes).writer = none := by
  rw [tee_append]
  rfl

end SessionLog

/-! ## The workers -/

/-- The session has the worker that the screen waits for, and no other. -/
structure Session.Manned (s : Session Configure) (held : Option Receiver) : Prop where
  bounded : ∀ id thread, s.threads id = some thread → id < s.nextThread
  lines : ∀ line ∈ s.log.lines, line.1 = line.2
  idle : held = none → (∀ id, ¬ s.Running id) ∧ s.log.writer = none
  busy : ∀ receiver, held = some receiver →
    ∃ id, s.channel receiver = some id ∧ (∀ other, s.Running other ↔ other = id) ∧ s.log.Follows id

variable {s : Session Configure}

/-- Nobody waits for a worker: one may be spawned, and it opens its own file. -/
theorem manned_spawn (manned : s.Manned none) (next : App Configure VerifyScreen) (opens : Bool)
    (action : String) (writes : Nat) (field : Receiver) :
    Session.Manned ({ s with
      app := next
      log := s.log.tee opens s.nextThread [.begin action] writes }.spawn (some field))
      (some field) := by
  obtain ⟨nobody, closed⟩ := manned.idle rfl
  have follows : (s.log.tee opens s.nextThread [.begin action] writes).Follows s.nextThread :=
    SessionLog.tee_follows opens _ writes ⟨Or.inl closed, manned.lines⟩
  refine ⟨?_, follows.lines, ?_, ?_⟩
  · intro id thread found
    change Function.update s.threads s.nextThread (some ⟨field, [], false, false⟩) id = some thread
      at found
    change id < s.nextThread + 1
    by_cases fresh : id = s.nextThread
    · omega
    · rw [Function.update_of_ne fresh] at found
      have := manned.bounded id thread found
      omega
  · intro idle
    cases idle
  · intro receiver holds
    cases holds
    refine ⟨s.nextThread, Function.update_self _ _ _, ?_, ?_⟩
    · intro other
      constructor
      · rintro ⟨thread, found, unreported⟩
        by_contra older
        change Function.update s.threads s.nextThread (some ⟨field, [], false, false⟩) other =
          some thread at found
        rw [Function.update_of_ne older] at found
        exact nobody other ⟨thread, found, unreported⟩
      · rintro rfl
        exact ⟨⟨field, [], false, false⟩, Function.update_self _ _ _, rfl⟩
    · exact follows

/-- A worker that ran before and after. -/
theorem running_update {id : Nat} {thread changed : Thread} (found : s.threads id = some thread)
    (same : changed.reported = thread.reported) (app : App Configure VerifyScreen)
    (log : SessionLog) (other : Nat) :
    Session.Running { s with
      app := app, log := log, threads := Function.update s.threads id (some changed) } other ↔
      s.Running other := by
  unfold Session.Running
  dsimp only
  by_cases mine : other = id
  · subst mine
    rw [Function.update_self, found]
    simp [same]
  · rw [Function.update_of_ne mine]

/-- An update of a worker that is there. -/
theorem bounded_update {id : Nat} {thread changed : Thread}
    (bounded : ∀ id thread, s.threads id = some thread → id < s.nextThread)
    (found : s.threads id = some thread) (other : Nat) (after : Thread)
    (updated : Function.update s.threads id (some changed) other = some after) :
    other < s.nextThread := by
  by_cases mine : other = id
  · rw [mine]
    exact bounded id thread found
  · rw [Function.update_of_ne mine] at updated
    exact bounded other after updated

theorem drainReceiver_kept (shows : s.app.Shows held) (manned : s.Manned held) (a : Answers)
    (writes : Nat) (receiver : Receiver) :
    ∃ held', (s.drainReceiver a writes receiver).app.Shows held' ∧
      (s.drainReceiver a writes receiver).Manned held' ∧ (held = none → held' = none) ∧
      (s.drainReceiver a writes receiver).app.quit = s.app.quit := by
  unfold Session.drainReceiver
  split
  · exact ⟨held, shows, manned, id, rfl⟩
  · rename_i id channel
    split
    · exact ⟨held, shows, manned, fun idle => idle, rfl⟩
    · rename_i thread found
      have pulls := pull_pulls shows a thread.sent receiver
      generalize s.app.pull a thread.sent receiver = pulled at pulls
      cases pulls with
      | nothing other => exact ⟨held, shows, manned, fun idle => idle, rfl⟩
      | goesOn holds goes next calls nextShows quit =>
          obtain ⟨worker, hears, only, follows⟩ := manned.busy receiver holds
          rw [channel, Option.some.injEq] at hears
          subst hears
          have kept := SessionLog.tee_follows false calls writes follows
          have reported : (thread.reported || receiver.ends thread.sent) = thread.reported := by
            rw [goes, Bool.or_false]
          refine ⟨held, nextShows, ⟨?_, kept.lines, ?_, ?_⟩, fun idle => idle, quit⟩
          · exact bounded_update manned.bounded found
          · intro idle
            rw [idle] at holds
            cases holds
          · intro other same
            rw [holds, Option.some.injEq] at same
            subst same
            refine ⟨id, channel, ?_, kept⟩
            intro other
            rw [← only]
            exact running_update found reported next _ other
      | ends holds stops next calls ok msg nextShows quit =>
          obtain ⟨worker, hears, only, follows⟩ := manned.busy receiver holds
          rw [channel, Option.some.injEq] at hears
          subst hears
          have kept := SessionLog.tee_follows false (calls ++ [.done ok msg]) writes follows
          refine ⟨none, nextShows, ⟨?_, kept.lines, ?_, ?_⟩, fun _ => rfl, quit⟩
          · exact bounded_update manned.bounded found
          · intro _
            refine ⟨?_, SessionLog.tee_done _ _ _ _ _⟩
            rintro other ⟨after, updated, unreported⟩
            dsimp only at updated
            by_cases mine : other = id
            · subst mine
              rw [Function.update_self, Option.some.injEq] at updated
              rw [← updated] at unreported
              simp [stops] at unreported
            · rw [Function.update_of_ne mine] at updated
              exact mine ((only other).mp ⟨after, updated, unreported⟩)
          · intro other impossible
            cases impossible

/-! ## Runs -/

/-- What every step keeps. -/
structure Session.Orderly (s : Session Configure) (held : Option Receiver) : Prop where
  shows : s.app.Shows held
  manned : s.Manned held
  quit : s.app.quit = some .menu → held = none

theorem drain_orderly (orderly : s.Orderly held) (a : Answers) (writes : Receiver → Nat) :
    ∃ held', (s.drain a writes).Orderly held' := by
  unfold Session.drain
  generalize receivers = fields
  induction fields generalizing s held with
  | nil => exact ⟨held, orderly⟩
  | cons receiver rest ih =>
      obtain ⟨held', shows, manned, still, quit⟩ :=
        drainReceiver_kept orderly.shows orderly.manned a (writes receiver) receiver
      have kept : (s.drainReceiver a (writes receiver) receiver).Orderly held' := by
        refine ⟨shows, manned, ?_⟩
        intro left
        rw [quit] at left
        exact still (orderly.quit left)
      exact ih kept

/-- The exit prompt may close a file; nothing else about the workers changes. -/
theorem manned_quiet (manned : s.Manned held) (next : App Configure VerifyScreen) (closes : Bool) :
    Session.Manned
      { s with app := next, log := if closes then s.log.finish else s.log } held := by
  cases closes with
  | false => exact ⟨manned.bounded, manned.lines, manned.idle, manned.busy⟩
  | true =>
      refine ⟨manned.bounded, manned.lines, ?_, ?_⟩
      · intro idle
        exact ⟨(manned.idle idle).1, rfl⟩
      · intro receiver holds
        obtain ⟨id, hears, only, follows⟩ := manned.busy receiver holds
        exact ⟨id, hears, only, SessionLog.finish_follows follows⟩

theorem key_orderly (orderly : s.Orderly held) (open_ : s.app.quit = none)
    (configure : ConfigureModel Configure) (configDir : String) (a : Answers) (writes : Nat)
    (key : KeyCode) (control : Bool) :
    ∃ held', (s.onKey configure configDir a writes key control).Orderly held' := by
  unfold Session.onKey
  split
  · have manned := orderly.manned
    exact ⟨held, orderly.shows, ⟨manned.bounded, manned.lines, manned.idle, manned.busy⟩,
      orderly.quit⟩
  · rename_i app spawned taken
    unfold App.onKey at taken
    split
    · rename_i interrupt
      rw [if_pos interrupt] at taken
      cases taken
      refine ⟨held, ?_, ?_, ?_⟩
      · exact orderly.shows.frame rfl rfl rfl rfl rfl rfl
      · exact ⟨orderly.manned.bounded, orderly.manned.lines, orderly.manned.idle,
          orderly.manned.busy⟩
      · intro left
        cases left
    · rename_i interrupt
      rw [if_neg interrupt] at taken
      have reacts := screenKey_reacts orderly.shows taken
      have left : ∀ held', app.Shows held' → app.quit = some .menu → held' = none :=
        fun held' shows menu => (shows.atHome (home_of_menu open_ taken menu)).2
      generalize s.app.operation configDir a key = operation at reacts
      obtain ⟨calls, field⟩ := operation
      dsimp only at reacts ⊢
      cases reacts with
      | goesOn shows => exact ⟨held, shows, manned_quiet orderly.manned app _, left held shows⟩
      | starts idle action field shows =>
          subst idle
          have manned := manned_spawn orderly.manned app a.beginLog.isSome action writes field
          have closing := manned_quiet manned app (s.app.home.exitPrompt && app.quit.isSome)
          refine ⟨some field, shows, closing, left _ shows⟩

theorem send_orderly (orderly : s.Orderly held) {id : Nat} {event : WorkerEvent}
    {next : Session Configure} (sent : s.send id event = some next) : next.Orderly held := by
  unfold Session.send at sent
  obtain ⟨thread, found, sent⟩ := Option.bind_eq_some_iff.mp sent
  split at sent
  · cases sent
    have manned := orderly.manned
    have unheard : Thread.reported { thread with
        sent := thread.sent ++ [event], finished := event.isDone } = thread.reported := rfl
    have same := running_update found unheard s.app s.log
    refine ⟨orderly.shows, ⟨bounded_update manned.bounded found, manned.lines, ?_, ?_⟩, orderly.quit⟩
    · intro idle
      obtain ⟨nobody, closed⟩ := manned.idle idle
      exact ⟨fun other running => nobody other ((same other).mp running), closed⟩
    · intro receiver holds
      obtain ⟨id, hears, only, follows⟩ := manned.busy receiver holds
      exact ⟨id, hears, fun other => (same other).trans (only other), follows⟩
  · cases sent

theorem start_orderly (cfg : Config) : (Session.start cfg : Session Configure).Orderly none := by
  refine ⟨.home ⟨rfl, rfl, rfl, rfl, rfl, rfl⟩ rfl, ⟨?_, ?_, ?_, ?_⟩, fun _ => rfl⟩
  · intro id thread found
    cases found
  · intro line member
    cases member
  · intro _
    refine ⟨?_, rfl⟩
    rintro id ⟨thread, found, -⟩
    cases found
  · intro receiver holds
    cases holds

theorem step_orderly (orderly : s.Orderly held) (configure : ConfigureModel Configure)
    (configDir : String) {event : SessionEvent} {next : Session Configure}
    (taken : s.step configure configDir event = some next) : ∃ held', next.Orderly held' := by
  unfold Session.step at taken
  split at taken
  · cases taken
  · cases event with
    | key a writes key control =>
        dsimp only at taken
        split at taken
        · cases taken
        · rename_i open_
          cases taken
          exact key_orderly orderly (by simpa using open_) configure configDir a writes key control
    | drain a writes =>
        dsimp only at taken
        split at taken
        · cases taken
        · cases taken
          exact drain_orderly orderly a writes
    | picked a =>
        cases taken
        have manned := orderly.manned
        exact ⟨held, orderly.shows.frame rfl (by simp) rfl rfl rfl rfl,
          ⟨manned.bounded, manned.lines, manned.idle, manned.busy⟩, orderly.quit⟩
    | send id event => exact ⟨held, send_orderly orderly taken⟩

theorem Session.Orderly.coherent (orderly : s.Orderly held) : s.Coherent := by
  have manned := orderly.manned
  cases waiting : held with
  | none =>
      obtain ⟨nobody, closed⟩ := manned.idle waiting
      refine ⟨orderly.shows.oneSlot, ?_, ?_, ?_, manned.lines, fun _ => nobody⟩
      · intro one other running
        exact absurd running (nobody one)
      · rw [orderly.shows.opRunning, waiting]
        simp [nobody]
      · intro id open_
        rw [closed] at open_
        cases open_
  | some receiver =>
      obtain ⟨id, -, only, follows⟩ := manned.busy receiver waiting
      refine ⟨orderly.shows.oneSlot, ?_, ?_, ?_, manned.lines, ?_⟩
      · intro one other running runs
        rw [(only one).mp running, (only other).mp runs]
      · rw [orderly.shows.opRunning, waiting]
        exact ⟨fun _ => ⟨id, (only id).mpr rfl⟩, fun _ => rfl⟩
      · intro writer open_
        rcases follows.writer with closed | mine
        · rw [closed] at open_
          cases open_
        · rw [mine, Option.some.injEq] at open_
          exact (only writer).mpr open_.symm
      · intro left
        rw [orderly.quit left] at waiting
        cases waiting

/-- Whatever the operator presses and the workers send, the session is coherent. -/
theorem session_coherent (configure : ConfigureModel Configure) (configDir : String)
    (cfg : Config) (s : Session Configure)
    (reached : (Session.machine configure configDir cfg).Reachable s) : s.Coherent := by
  have orderly : ∀ s, (Session.machine configure configDir cfg).Reachable s →
      ∃ held, s.Orderly held := by
    apply Machine.invariant
    · rintro first rfl
      exact ⟨none, start_orderly cfg⟩
    · rintro before event next - ⟨held, orderly⟩ taken
      exact step_orderly orderly configure configDir taken
  obtain ⟨held, orderly⟩ := orderly s reached
  exact orderly.coherent

/-- A Configure screen that only goes back. -/
def plainConfigure : ConfigureModel Unit where
  fromConfig _ := ()
  onKey _ cfg _ _ := (.home, cfg)
  applyPicked _ st := st

/-- HOME, the Build entry and the passphrase twice; the worker reports a line. -/
def buildSession : List SessionEvent :=
  let a := { Process.plainAnswers with beginLog := some "build.log" }
  [.down, .down, .enter, .char 's', .enter, .char 's', .enter].map (.key a 1 · false) ++
    [.send 0 (.build (.log "unpacking")), .drain a fun _ => 1]

theorem session_coherent_build :
    ∃ s : Session Unit, s.log.writer = some 0 ∧ s.log.lines = [(0, 0)] ∧ s.Coherent := by
  have run : (Machine.replay (Session.step plainConfigure "") (.start .plain) buildSession).map
      (fun s => (s.log.writer, s.log.lines)) = some (some 0, [(0, 0)]) := by decide
  obtain ⟨s, replayed, log⟩ := Option.map_eq_some_iff.mp run
  rw [Prod.mk.injEq] at log
  have reached : (Session.machine plainConfigure "" .plain).Reachable s :=
    Machine.Reachable.steps (.initial rfl) (Machine.steps_of_replay buildSession _ s replayed)
  exact ⟨s, log.1, log.2, session_coherent plainConfigure "" .plain s reached⟩

end Nixnas.Ui
