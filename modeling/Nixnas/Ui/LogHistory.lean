import Nixnas.Ui.LogPane

/-!
# The log panes keep their place

However the lines of a worker arrive in batches, and whatever is trimmed, a pane
shows a part of all that was sent: the newest lines while it follows, and else
the same place from one frame to the next, until the reader scrolls or the lines
there are given up.
-/

set_option autoImplicit false

namespace Nixnas.Ui

open Nixnas.Logic
open Nixnas.Tui.Build (BuildEvent Config)

/-! ## A pane as a log read through a window -/

/-- The lines of the pane are those kept of the log, counted from the oldest. -/
structure Views (pane : LogPane) (log : Scrollback String) : Prop where
  lines : pane.log = log.kept
  top : log.top = log.oldest + pane.scroll
  follow : pane.follow = log.follow

def pulledLog (log : Scrollback String) (limit : Option Limit) :
    Option (List String) → Scrollback String
  | none => log
  | some lines =>
      match limit with
      | none => log.append lines
      | some limit => (log.append lines).bound limit.most limit.newest

def scrolledLog (log : Scrollback String) : KeyCode → Scrollback String
  | .up => log.up 1
  | .down => log.down 1
  | .pageUp => log.up 20
  | .pageDown => log.down 20
  | .«end» | .char 'f' => log.tail
  | _ => log

/-- What a log may have given up. -/
def Within (lost length : Nat) : Option Limit → Prop
  | none => lost = 0
  | some limit => length ≤ limit.most ∧ (lost = 0 ∨ limit.newest ≤ length)

variable {pane : LogPane} {log : Scrollback String} {limit : Option Limit}

theorem views_append (views : Views pane log) (lines : List String) :
    Views { pane with log := pane.log ++ lines } (log.append lines) where
  lines := by rw [Scrollback.append_kept, views.lines]
  top := views.top
  follow := views.follow

theorem views_bound (views : Views pane log) (limit : Limit) :
    Views (pane.trimmed (some limit)) (log.bound limit.most limit.newest) := by
  have length := log.kept_length
  have held := log.held
  have top := views.top
  rw [LogPane.trimmed, Scrollback.bound, views.lines]
  split
  next many =>
    refine ⟨?_, ?_, views.follow⟩
    · have cut : log.oldest + (log.kept.length - limit.newest) =
          max log.oldest (log.history.length - limit.newest) := by omega
      simp only [Scrollback.kept, Scrollback.forget, List.drop_drop] at cut ⊢
      rw [cut]
    · simp only [Scrollback.forget]
      omega
  next => exact ⟨views.lines, views.top, views.follow⟩

theorem views_pull (views : Views pane log) (limit : Option Limit) (lines : Option (List String)) :
    Views (pane.pull limit lines) (pulledLog log limit lines) := by
  cases lines with
  | none => exact views
  | some lines =>
      cases limit with
      | none => exact views_append views lines
      | some limit => exact views_bound (views_append views lines) limit

theorem views_drawn (views : Views pane log) (height : Nat) :
    Views (pane.drawn height) (log.draw height) := by
  have length := log.kept_length
  have held := log.held
  have top := views.top
  refine ⟨views.lines, ?_, views.follow⟩
  simp only [LogPane.drawn, Scrollback.draw, views.lines, views.follow]
  split <;> omega

theorem views_window (views : Views pane log) (height : Nat) :
    pane.window height = log.window height := by
  rw [LogPane.window, Scrollback.window, views.lines, views.top, Scrollback.kept, List.drop_drop]

theorem views_scrollKey (views : Views pane log) (key : KeyCode) :
    Views (pane.scrollKey key) (scrolledLog log key) := by
  have top := views.top
  have below := log.below
  have up : ∀ lines, Views { pane with follow := false, scroll := pane.scroll - lines }
      (log.up lines) := by
    intro lines
    refine ⟨views.lines, ?_, rfl⟩
    simp only [Scrollback.up]
    omega
  have down : ∀ lines, Views { pane with scroll := pane.scroll + lines } (log.down lines) := by
    intro lines
    refine ⟨views.lines, ?_, views.follow⟩
    simp only [Scrollback.down]
    omega
  cases key with
  | up => exact up 1
  | down => exact down 1
  | pageUp => exact up 20
  | pageDown => exact down 20
  | «end» => exact ⟨views.lines, views.top, rfl⟩
  | char c =>
      by_cases follows : c = 'f'
      · subst follows
        exact ⟨views.lines, views.top, rfl⟩
      · have pane_same : pane.scrollKey (.char c) = pane := by
          simp [LogPane.scrollKey, follows]
        have log_same : scrolledLog log (.char c) = log := by
          simp [scrolledLog, follows]
        rw [pane_same, log_same]
        exact views
  | enter | esc | backspace | delete | other => exact views

theorem pulledLog_history (log : Scrollback String) (limit : Option Limit)
    (lines : Option (List String)) :
    (pulledLog log limit lines).history = log.history ++ lines.getD [] := by
  cases lines with
  | none => exact (List.append_nil log.history).symm
  | some lines =>
      cases limit with
      | none => rfl
      | some limit => exact Scrollback.bound_history (log.append lines) limit.most limit.newest

theorem still_pull (log : Scrollback String) (limit : Option Limit)
    (lines : Option (List String)) : Scrollback.Still log (pulledLog log limit lines) := by
  cases lines with
  | none => exact .refl log
  | some lines =>
      cases limit with
      | none => exact Scrollback.still_append log lines
      | some limit =>
          exact (Scrollback.still_append log lines).trans
            (Scrollback.still_bound (log.append lines) limit.most limit.newest)

theorem within_pull (within : Within log.oldest log.kept.length limit)
    (lines : Option (List String)) :
    Within (pulledLog log limit lines).oldest (pulledLog log limit lines).kept.length limit := by
  cases lines with
  | none => exact within
  | some lines =>
      cases limit with
      | none => exact within
      | some limit =>
          exact ⟨Scrollback.bound_length limit.fits,
            Scrollback.recent_bound (Scrollback.recent_append within.2 lines) limit.fits⟩

/-- A key moves the reader, and nothing else. -/
theorem scrolledLog_kept (log : Scrollback String) (key : KeyCode) :
    (scrolledLog log key).history = log.history ∧ (scrolledLog log key).oldest = log.oldest := by
  rw [scrolledLog.eq_def]
  split <;> exact ⟨rfl, rfl⟩

/-! ## The runs of a screen -/

/-- A screen, all the lines it has pulled, and the body it showed last. -/
structure Watched (Screen : Type) where
  screen : Screen
  sent : List String
  shown : Option Body

namespace LogScreen

variable {Screen Batch : Type} (s : LogScreen Screen Batch)

def watch (w : Watched Screen) (f : Frame Batch) : Option (Watched Screen) :=
  (s.frame w.screen f).map fun (screen, shown) =>
    ⟨screen, w.sent ++ (s.pulled w.screen f.batch).getD [], shown⟩

def run (first : Screen) (frames : List (Frame Batch)) : Option (Watched Screen) :=
  Machine.replay s.watch ⟨first, [], none⟩ frames

/-- How many of the lines sent are trimmed. -/
def lost (w : Watched Screen) : Nat := w.sent.length - (s.pane w.screen).log.length

/-- Which of the lines sent is at the top of the window. -/
def top (w : Watched Screen) : Nat := s.lost w + (s.pane w.screen).scroll

/-- What the pane shows in a run from this screen. -/
structure PlaceKept (first : Screen) : Prop where
  /-- The newest lines are held. -/
  held : ∀ frames w, s.run first frames = some w →
    (s.pane w.screen).log = w.sent.drop (s.lost w) ∧
      Within (s.lost w) (s.pane w.screen).log.length s.limit
  /-- A reader who follows sees the newest of them. -/
  newest : ∀ frames w f next body, s.run first frames = some w →
    (s.pane w.screen).follow = true → s.watch w f = some next → next.shown = some body →
      body.window = (s.pane next.screen).log.rtake f.height
  /-- A reader who does not follow stays at the same line over frames of one height. -/
  still : ∀ frames w f seen here quiet last there, s.run first frames = some w →
    (s.pane w.screen).follow = false → f.key = none → s.watch w f = some seen →
      seen.shown = some here → (∀ g ∈ quiet, g.key = none ∧ g.height = f.height) →
        Machine.replay s.watch seen quiet = some last → last.shown = some there →
          there.window = (last.sent.drop (max (s.top seen) (s.lost last))).take f.height ∧
            (s.lost last ≤ s.top seen → here.window <+: there.window)

/-- The log that the pane of a watched screen views. -/
structure Mirrors (w : Watched Screen) (log : Scrollback String) : Prop where
  ready : s.ready w.screen
  views : Views (s.pane w.screen) log
  sent : log.history = w.sent
  within : Within log.oldest log.kept.length s.limit

variable {s} {w next : Watched Screen} {log : Scrollback String} {f : Frame Batch}

theorem Mirrors.lost (mirrors : s.Mirrors w log) : s.lost w = log.oldest := by
  have held := log.held
  rw [LogScreen.lost, mirrors.views.lines, log.kept_length, ← mirrors.sent]
  omega

theorem Mirrors.top (mirrors : s.Mirrors w log) : s.top w = log.top := by
  rw [LogScreen.top, mirrors.lost, mirrors.views.top]

/-- The log that a frame shows. -/
def drawnLog (s : LogScreen Screen Batch) (w : Watched Screen) (log : Scrollback String)
    (f : Frame Batch) (shown : Option Body) : Scrollback String :=
  match shown with
  | none => pulledLog log s.limit (s.pulled w.screen f.batch)
  | some _ => (pulledLog log s.limit (s.pulled w.screen f.batch)).draw f.height

/-- One frame on the log. -/
theorem mirrors_watch (mirrors : s.Mirrors w log) (taken : s.watch w f = some next) :
    ∃ moved, s.Mirrors next moved ∧
      (moved = s.drawnLog w log f next.shown ∨
        ∃ key, f.key = some key ∧ moved = scrolledLog (s.drawnLog w log f next.shown) key) ∧
      ∀ body, next.shown = some body →
        body.window = (s.drawnLog w log f next.shown).window f.height := by
  simp only [watch, Option.map_eq_some_iff] at taken
  obtain ⟨⟨screen, shown⟩, frame, rfl⟩ := taken
  have turned := s.turned _ _ _ _ mirrors.ready frame
  have ready := s.kept _ _ _ _ mirrors.ready frame
  have pulled := views_pull mirrors.views s.limit (s.pulled w.screen f.batch)
  have within := within_pull mirrors.within (s.pulled w.screen f.batch)
  have sent : (pulledLog log s.limit (s.pulled w.screen f.batch)).history =
      w.sent ++ (s.pulled w.screen f.batch).getD [] := by
    rw [pulledLog_history, mirrors.sent]
  cases shown with
  | none =>
      refine ⟨_, ⟨ready, ?_, sent, within⟩, .inl rfl, fun body is => by cases is⟩
      rw [turned.hidden rfl]
      exact pulled
  | some body =>
      obtain ⟨window, after⟩ := turned.drawn body rfl
      have drawn := views_drawn pulled f.height
      have seen : ∀ shown, some body = some shown → shown.window =
          (s.drawnLog w log f (some body)).window f.height := by
        intro shown is
        rw [← Option.some.inj is, window]
        exact views_window drawn f.height
      rcases after with same | ⟨key, is, scrolled⟩
      · refine ⟨s.drawnLog w log f (some body), ⟨ready, ?_, sent, within⟩, .inl rfl, seen⟩
        rw [same]
        exact drawn
      · have kept := scrolledLog_kept (s.drawnLog w log f (some body)) key
        refine ⟨scrolledLog (s.drawnLog w log f (some body)) key,
          ⟨ready, ?_, kept.1.trans sent, ?_⟩, .inr ⟨key, is, rfl⟩, seen⟩
        · rw [scrolled]
          exact views_scrollKey drawn key
        · rw [Scrollback.kept_length, kept.1, kept.2]
          rwa [Scrollback.kept_length] at within

theorem mirrors_run (mirrors : s.Mirrors w log) (frames : List (Frame Batch))
    (run : Machine.replay s.watch w frames = some next) : ∃ moved, s.Mirrors next moved := by
  induction frames generalizing w log with
  | nil =>
      simp only [Machine.replay, Option.some.injEq] at run
      subst run
      exact ⟨log, mirrors⟩
  | cons f rest ih =>
      simp only [Machine.replay] at run
      cases taken : s.watch w f with
      | none => simp [taken] at run
      | some middle =>
          simp only [taken] at run
          obtain ⟨moved, onward, _⟩ := mirrors_watch mirrors taken
          exact ih onward run

/-- What is shown is a window of this log. -/
def Shows (w : Watched Screen) (log : Scrollback String) (height : Nat) : Prop :=
  ∀ body, w.shown = some body → body.window = log.window height

/-- A frame without a key ends with the log that it shows. -/
theorem mirrors_quiet (mirrors : s.Mirrors w log) (taken : s.watch w f = some next)
    (quiet : f.key = none) :
    s.Mirrors next (s.drawnLog w log f next.shown) ∧
      Shows next (s.drawnLog w log f next.shown) f.height := by
  obtain ⟨moved, onward, same | ⟨key, pressed, _⟩, window⟩ := mirrors_watch mirrors taken
  · exact ⟨same ▸ onward, window⟩
  · rw [quiet] at pressed
    cases pressed

theorem still_drawnLog (w : Watched Screen) (f : Frame Batch) (shown : Option Body)
    (settled : log.Settled f.height) (reading : log.follow = false) :
    Scrollback.Still log (s.drawnLog w log f shown) := by
  have pulled := still_pull log s.limit (s.pulled w.screen f.batch)
  rw [drawnLog.eq_def]
  split
  · exact pulled
  · exact pulled.trans
      (Scrollback.still_draw (pulled.settled settled) (pulled.follow.trans reading))

/-- Frames without a key leave a settled reader where it was. -/
theorem still_run {height : Nat} (mirrors : s.Mirrors w log) (shows : Shows w log height)
    (settled : log.Settled height) (reading : log.follow = false) (quiet : List (Frame Batch))
    (silent : ∀ g ∈ quiet, g.key = none ∧ g.height = height)
    (run : Machine.replay s.watch w quiet = some next) :
    ∃ later, s.Mirrors next later ∧ Shows next later height ∧ Scrollback.Still log later := by
  induction quiet generalizing w log with
  | nil =>
      simp only [Machine.replay, Option.some.injEq] at run
      subst run
      exact ⟨log, mirrors, shows, .refl log⟩
  | cons f rest ih =>
      simp only [Machine.replay] at run
      obtain ⟨keyless, rfl⟩ := silent f List.mem_cons_self
      cases taken : s.watch w f with
      | none => simp [taken] at run
      | some middle =>
          simp only [taken] at run
          obtain ⟨onward, shown⟩ := mirrors_quiet mirrors taken keyless
          have still := still_drawnLog (s := s) w f middle.shown settled reading
          obtain ⟨later, mirrored, shows, after⟩ := ih onward shown (still.settled settled)
            (still.follow.trans reading) (fun g inside => silent g (List.mem_cons_of_mem f inside))
            run
          exact ⟨later, mirrored, shows, still.trans after⟩

theorem mirrors_first {first : Screen} (ready : s.ready first) (empty : (s.pane first).log = []) :
    s.Mirrors ⟨first, [], none⟩
      ⟨[], 0, (s.pane first).scroll, (s.pane first).follow, Nat.le_refl 0, Nat.zero_le _⟩ where
  ready := ready
  views := ⟨empty, (Nat.zero_add _).symm, rfl⟩
  sent := rfl
  within := by
    cases s.limit with
    | none => rfl
    | some limit => exact ⟨Nat.zero_le _, .inl rfl⟩

/-- A screen whose worker has sent nothing yet. -/
theorem place_kept {first : Screen} (ready : s.ready first) (empty : (s.pane first).log = []) :
    s.PlaceKept first where
  held frames w run := by
    obtain ⟨log, mirrors⟩ := mirrors_run (mirrors_first ready empty) frames run
    rw [mirrors.lost, mirrors.views.lines, ← mirrors.sent]
    exact ⟨rfl, mirrors.within⟩
  newest frames w f next body run following taken shown := by
    obtain ⟨log, mirrors⟩ := mirrors_run (mirrors_first ready empty) frames run
    obtain ⟨moved, onward, after, window⟩ := mirrors_watch mirrors taken
    have follow : (pulledLog log s.limit (s.pulled w.screen f.batch)).follow = true :=
      (still_pull log s.limit _).follow.trans (mirrors.views.follow.symm.trans following)
    have drawn : s.drawnLog w log f next.shown =
        (pulledLog log s.limit (s.pulled w.screen f.batch)).draw f.height := by
      rw [shown, drawnLog]
    have kept : moved.kept = (s.drawnLog w log f next.shown).kept := by
      rcases after with same | ⟨key, _, scrolled⟩
      · rw [same]
      · obtain ⟨history, oldest⟩ := scrolledLog_kept (s.drawnLog w log f next.shown) key
        rw [scrolled, Scrollback.kept, Scrollback.kept, history, oldest]
    rw [window body shown, onward.views.lines, kept, drawn, Scrollback.following_window follow]
    rfl
  still frames w f seen here quiet last there run reading keyless taken shown silent after
      later := by
    obtain ⟨log, mirrors⟩ := mirrors_run (mirrors_first ready empty) frames run
    obtain ⟨onward, shows⟩ := mirrors_quiet mirrors taken keyless
    have drawn : s.drawnLog w log f seen.shown =
        (pulledLog log s.limit (s.pulled w.screen f.batch)).draw f.height := by
      rw [shown, drawnLog]
    have settled : (s.drawnLog w log f seen.shown).Settled f.height := by
      rw [drawn]
      exact Scrollback.draw_settled _ f.height
    have reads : (s.drawnLog w log f seen.shown).follow = false := by
      rw [drawn]
      exact (still_pull log s.limit _).follow.trans (mirrors.views.follow.symm.trans reading)
    obtain ⟨final, mirrored, showsLast, still⟩ :=
      still_run onward shows settled reads quiet silent after
    rw [onward.top, mirrored.lost, shows here shown, showsLast there later]
    refine ⟨?_, fun kept => still.window_grows kept f.height⟩
    rw [Scrollback.window, mirrored.sent, still.top]

end LogScreen

/-! ## The three screens -/

/-- The panes of the three screens keep their place from the start of their
worker on. -/
theorem log_panes_keep_place (configDir : String) (cfg : Config) (a : Answers) :
    (buildLogScreen cfg).PlaceKept (.new cfg) ∧
      (∀ st passphrase, ∃ first,
        (BuildFlash.BuildFlowScreen.startBuild cfg a st passphrase).next = .stay first ∧
          (flowLogScreen configDir cfg).PlaceKept first) ∧
      verifyLogScreen.PlaceKept (Verify.VerifyScreen.newImage configDir a).1 ∧
      verifyLogScreen.PlaceKept (Verify.VerifyScreen.newInstall configDir a) := by
  refine ⟨LogScreen.place_kept trivial ?_, ?_, LogScreen.place_kept trivial ?_,
    LogScreen.place_kept trivial rfl⟩
  · change (Build.BuildScreen.new cfg).log = []
    rw [Build.BuildScreen.new]
  · intro st passphrase
    exact ⟨_, rfl, LogScreen.place_kept trivial rfl⟩
  · change (Verify.VerifyScreen.newImage configDir a).1.details = []
    rw [Verify.VerifyScreen.newImage]
    split <;> rfl

end Nixnas.Ui
