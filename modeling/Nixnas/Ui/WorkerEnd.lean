import Nixnas.Tui.Secrets
import Nixnas.Ui.BuildFlashGate
import Nixnas.Ui.LogRecords
import Nixnas.Ui.Session

/-!
# The end of a worker

The `drain_events` of the screens beside the threads they listen to.  A thread
ends after its last event, or by a panic anywhere before; either way the channel
is then disconnected, and `while let Ok(ev) = rx.try_recv()` stops there as it
stops at an empty one.  So the last event ends the running phase and closes the
log file, and a thread that dies before it is never noticed.
-/

set_option autoImplicit false

namespace Nixnas.Ui

open Nixnas.Logic
open Nixnas.Tui.Build (BuildEvent Config StepState stepNames)
open Nixnas.Tui.Flash (FlashEvent)
open Nixnas.Tui.Sudo (Elevation)
open Nixnas.Tui.Verify (VerifyEvent)

/-- A screen that listens to a worker: the functions of its source, and what it
shows of the events. -/
structure Listener where
  Screen : Type
  Event : Type
  Panes : Type
  isRunning : Screen → Bool
  /-- The receiver is held. -/
  rx : Screen → Bool
  /-- A turn that spawns the worker leaves this screen. -/
  Starts : Screen → Prop
  drain : Answers → Screen → List Event → Screen × List LogCall
  onKey : Answers → Screen → KeyCode → Next Screen
  /-- The result that a last event carries. -/
  result : Event → Option (Except String String)
  panes : Screen → Panes
  /-- One event on the panes, and in the log. -/
  apply : Panes → Event → Panes
  calls : Event → List LogCall
  Shows : Panes → Screen → Prop
  Tells : Screen → Except String String → Prop

namespace Listener

variable (w : Listener)

/-- The last of the results among the events. -/
def verdict (events : List w.Event) : Option (Except String String) :=
  (events.filterMap w.result).getLast?

/-- The worker goes on, and nothing is in the log beyond its events. -/
structure Listens (st : w.Screen) (events : List w.Event) (calls : List LogCall) : Prop where
  isRunning : w.isRunning st = true
  rx : w.rx st = true
  calls : calls = events.flatMap w.calls

/-- The worker has given its result; the screen and the log say so. -/
structure Ended (st : w.Screen) (events : List w.Event) (calls : List LogCall)
    (result : Except String String) : Prop where
  isRunning : w.isRunning st = false
  rx : w.rx st = false
  tells : w.Tells st result
  calls : ∃ ok msg, calls = events.flatMap w.calls ++ [.done ok msg]

/-- What the screen and the log have of these events. -/
def Heard (st : w.Screen) (events : List w.Event) (calls : List LogCall) : Prop :=
  match w.verdict events with
  | none => w.Listens st events calls
  | some result => w.Ended st events calls result

/-- What the functions of a screen keep. -/
structure Lawful : Prop where
  starts : ∀ st, w.Starts st → w.isRunning st = true ∧ w.rx st = true
  panes : ∀ st, w.Starts st → w.Shows (w.panes st) st
  drain : ∀ a st events panes, w.isRunning st = true → w.rx st = true → w.Shows panes st →
    w.Shows (events.foldl w.apply panes) (w.drain a st events).1 ∧
      w.Heard (w.drain a st events).1 events (w.drain a st events).2
  silent : ∀ a st events panes, w.rx st = false → w.Shows panes st →
    w.drain a st events = (st, [])
  /-- No key leaves a screen that is running. -/
  onKey : ∀ a st key panes, w.isRunning st = true → w.rx st = true → w.Shows panes st →
    ∃ next, w.onKey a st key = .stay next ∧
      w.isRunning next = true ∧ w.rx next = true ∧ w.Shows panes next

end Listener

/-! ## Runs -/

/-- The calls of one drain, each with what the environment answers to it. -/
def Logging.Logs.callEach (l : Logging.Logs) (a : Nat → Logging.Answers) :
    List LogCall → Logging.Logs
  | [] => l
  | c :: rest => (l.call c (a 0)).callEach (fun n => a (n + 1)) rest

/-- A screen, its worker's thread and the session log, since the worker was
spawned. -/
structure Hearing (w : Listener) where
  screen : w.Screen
  logs : Logging.Logs
  /-- The calls that the drains have made. -/
  calls : List LogCall
  pulled : List w.Event
  /-- What is in the channel. -/
  queue : List w.Event
  /-- The thread is gone, and its sender with it. -/
  ended : Bool
  /-- The screen has drained since. -/
  drained : Bool

inductive HearingLabel (w : Listener) where
  | send (event : w.Event)
  /-- The thread returns, or panics. -/
  | «end»
  | drain (a : Answers) (log : Nat → Logging.Answers)
  | key (a : Answers) (key : KeyCode)

namespace Hearing

variable {w : Listener}

def sent (s : Hearing w) : List w.Event := s.pulled ++ s.queue

/-- The worker has sent its last event. -/
def reported (s : Hearing w) : Bool := (w.verdict s.sent).isSome

/-- `begin` has been called for the action. -/
def start (screen : w.Screen) (logs : Logging.Logs) : Hearing w :=
  ⟨screen, logs, [], [], [], false, false⟩

def step (s : Hearing w) : HearingLabel w → Option (Hearing w)
  | .send event =>
      if s.ended || s.reported then none else some { s with queue := s.queue ++ [event] }
  | .end => if s.ended then none else some { s with ended := true }
  | .drain a log =>
      let after := w.drain a s.screen s.queue
      some
        { screen := after.1
          logs := s.logs.callEach log after.2
          calls := s.calls ++ after.2
          pulled := if w.rx s.screen then s.pulled ++ s.queue else s.pulled
          queue := if w.rx s.screen then [] else s.queue
          ended := s.ended
          drained := s.ended }
  | .key a key =>
      -- Later keys belong to what comes after this worker.
      if w.isRunning s.screen then
        match w.onKey a s.screen key with
        | .stay next => some { s with screen := next }
        | .home | .panic _ => none
      else none

def machine (w : Listener) (screen : w.Screen) (logs : Logging.Logs) (action : String)
    (a : Logging.Answers) : Machine (Hearing w) (HearingLabel w) :=
  Machine.ofStep (fun s => w.Starts screen ∧ s = start screen (logs.begin action a).1) step

/-- Everything the worker sent has been applied, in order, to the screen as it was
spawned, and has gone to the log. -/
structure Applied (s : Hearing w) (screen : w.Screen) : Prop where
  shows : w.Shows (s.sent.foldl w.apply (w.panes screen)) s.screen
  tells : ∀ result, w.verdict s.sent = some result → w.Tells s.screen result
  calls : s.sent.flatMap w.calls <+: s.calls

/-- The end of the worker has reached the screen and the log. -/
structure Noticed (s : Hearing w) (screen : w.Screen) : Prop where
  isRunning : w.isRunning s.screen = false
  applied : s.Applied screen
  closed : s.logs.log.writer = none

/-- The invariant of a run. -/
structure Follows (s : Hearing w) (screen : w.Screen) : Prop where
  shows : w.Shows (s.pulled.foldl w.apply (w.panes screen)) s.screen
  heard : w.Heard s.screen s.pulled s.calls
  finished : (w.verdict s.pulled).isSome = true → s.queue = [] ∧ s.logs.log.writer = none
  drained : s.drained = true → s.ended = true ∧ s.queue = []

end Hearing

theorem Listener.verdict_append (w : Listener) (first second : List w.Event) :
    w.verdict (first ++ second) = (w.verdict second).or (w.verdict first) := by
  simp [Listener.verdict, List.getLast?_append]

section Closing

open Logging (Logs)

theorem callEach_append (l : Logs) (calls after : List LogCall) (a : Nat → Logging.Answers) :
    l.callEach a (calls ++ after) =
      (l.callEach a calls).callEach (fun n => a (n + calls.length)) after := by
  induction calls generalizing l a with
  | nil => rfl
  | cons c rest ih =>
      simp only [List.cons_append, Logs.callEach, ih, List.length_cons]
      congr 1

theorem callEach_done (l : Logs) (calls : List LogCall) (ok : Bool) (msg : String)
    (a : Nat → Logging.Answers) :
    (l.callEach a (calls ++ [.done ok msg])).log.writer = none := by
  rw [callEach_append]
  exact Logging.finish_writer _ _

end Closing

namespace Hearing

variable {w : Listener} {screen : w.Screen} {s next : Hearing w}

theorem follows_start (lawful : w.Lawful) (starts : w.Starts screen) (logs : Logging.Logs) :
    (start screen logs).Follows screen where
  shows := lawful.panes screen starts
  heard := ⟨(lawful.starts screen starts).1, (lawful.starts screen starts).2, rfl⟩
  finished reported := by cases reported
  drained drained := by cases drained

/-- As long as nothing has been pulled that ends it, the worker is listened to. -/
theorem Follows.listens (follows : s.Follows screen) (open_ : w.verdict s.pulled = none) :
    w.Listens s.screen s.pulled s.calls := by
  have heard := follows.heard
  rwa [Listener.Heard, open_] at heard

theorem Follows.ended (follows : s.Follows screen) {result : Except String String}
    (told : w.verdict s.pulled = some result) : w.Ended s.screen s.pulled s.calls result := by
  have heard := follows.heard
  rwa [Listener.Heard, told] at heard

theorem Follows.send (follows : s.Follows screen) (event : w.Event) (alive : s.ended = false)
    (silent : s.reported = false) :
    ({ s with queue := s.queue ++ [event] } : Hearing w).Follows screen where
  shows := follows.shows
  heard := follows.heard
  finished told := by
    have reported : s.reported = true := by
      rw [reported, sent, Listener.verdict_append]
      cases w.verdict s.queue <;> simp [told]
    rw [silent] at reported
    cases reported
  drained drained := by
    have dead := (follows.drained drained).1
    rw [alive] at dead
    cases dead

theorem Follows.end (follows : s.Follows screen) :
    ({ s with ended := true } : Hearing w).Follows screen where
  shows := follows.shows
  heard := follows.heard
  finished := follows.finished
  drained drained := ⟨rfl, (follows.drained drained).2⟩

theorem Follows.key (lawful : w.Lawful) (follows : s.Follows screen) (a : Answers)
    (key : KeyCode) (runs : w.isRunning s.screen = true) {st : w.Screen}
    (stays : w.onKey a s.screen key = .stay st) :
    ({ s with screen := st } : Hearing w).Follows screen := by
  cases told : w.verdict s.pulled with
  | some result =>
      have idle := (follows.ended told).isRunning
      rw [runs] at idle
      cases idle
  | none =>
      have listens := follows.listens told
      obtain ⟨after, stays', running, rx, shows⟩ :=
        lawful.onKey a s.screen key _ runs listens.rx follows.shows
      rw [stays] at stays'
      cases stays'
      refine ⟨shows, ?_, follows.finished, follows.drained⟩
      rw [Listener.Heard, told]
      exact ⟨running, rx, listens.calls⟩

/-- A drain of a screen that still listens takes all there is. -/
theorem Follows.pull (lawful : w.Lawful) (follows : s.Follows screen) (a : Answers)
    (log : Nat → Logging.Answers) (open_ : w.verdict s.pulled = none) :
    (⟨(w.drain a s.screen s.queue).1, s.logs.callEach log (w.drain a s.screen s.queue).2,
      s.calls ++ (w.drain a s.screen s.queue).2, s.pulled ++ s.queue, [], s.ended, s.ended⟩ :
      Hearing w).Follows screen := by
  have listens := follows.listens open_
  obtain ⟨shows, heard⟩ :=
    lawful.drain a s.screen s.queue _ listens.isRunning listens.rx follows.shows
  have same : w.verdict (s.pulled ++ s.queue) = w.verdict s.queue := by
    rw [Listener.verdict_append, open_, Option.or_none]
  refine ⟨?_, ?_, ?_, fun ended => ⟨ended, rfl⟩⟩
  · rw [List.foldl_append]
    exact shows
  · rw [Listener.Heard] at heard ⊢
    rw [same]
    cases told : w.verdict s.queue with
    | none =>
        rw [told] at heard
        refine ⟨heard.isRunning, heard.rx, ?_⟩
        rw [listens.calls, heard.calls, List.flatMap_append]
    | some result =>
        rw [told] at heard
        obtain ⟨ok, msg, calls⟩ := heard.calls
        refine ⟨heard.isRunning, heard.rx, heard.tells, ok, msg, ?_⟩
        rw [listens.calls, calls, List.flatMap_append, List.append_assoc]
  · intro reported
    rw [same] at reported
    obtain ⟨result, told⟩ := Option.isSome_iff_exists.mp reported
    rw [Listener.Heard, told] at heard
    obtain ⟨ok, msg, calls⟩ := heard.calls
    refine ⟨rfl, ?_⟩
    rw [calls]
    exact callEach_done _ _ _ _ _

theorem Follows.drain (lawful : w.Lawful) (follows : s.Follows screen) (a : Answers)
    (log : Nat → Logging.Answers) (taken : s.step (.drain a log) = some next) :
    next.Follows screen := by
  simp only [step, Option.some.injEq] at taken
  subst taken
  cases told : w.verdict s.pulled with
  | none =>
      simp only [(follows.listens told).rx, if_true]
      exact follows.pull lawful a log told
  | some result =>
      have ended := follows.ended told
      have finished := follows.finished (by rw [told]; rfl)
      simp only [ended.rx, Bool.false_eq_true, if_false, lawful.silent a s.screen s.queue _ ended.rx
        follows.shows, List.append_nil, Logging.Logs.callEach]
      exact ⟨follows.shows, follows.heard, follows.finished, fun dead => ⟨dead, finished.1⟩⟩

theorem Follows.step (lawful : w.Lawful) (follows : s.Follows screen) (label : HearingLabel w)
    (taken : s.step label = some next) : next.Follows screen := by
  cases label with
  | send event =>
      rw [Hearing.step] at taken
      by_cases closed : s.ended || s.reported
      · simp [closed] at taken
      · rw [if_neg closed, Option.some.injEq] at taken
        subst taken
        simp only [Bool.or_eq_true, not_or, Bool.not_eq_true] at closed
        exact follows.send event closed.1 closed.2
  | «end» =>
      rw [Hearing.step] at taken
      by_cases dead : s.ended
      · simp [dead] at taken
      · rw [if_neg dead, Option.some.injEq] at taken
        subst taken
        exact follows.end
  | drain a log => exact follows.drain lawful a log taken
  | key a key =>
      rw [Hearing.step] at taken
      by_cases runs : w.isRunning s.screen
      · rw [if_pos runs] at taken
        cases turn : w.onKey a s.screen key with
        | stay st =>
            simp only [turn, Option.some.injEq] at taken
            subst taken
            exact follows.key lawful a key runs turn
        | home => simp [turn] at taken
        | panic message => simp [turn] at taken
      · simp [runs] at taken

theorem reachable_follows (lawful : w.Lawful) {logs : Logging.Logs} {action : String}
    {a : Logging.Answers} (reached : (machine w screen logs action a).Reachable s) :
    s.Follows screen := by
  induction reached with
  | initial first =>
      obtain ⟨starts, rfl⟩ := first
      exact follows_start lawful starts _
  | step label _ taken follows => exact follows.step lawful label taken

/-- A worker that has not sent its last event leaves the screen running, whether it
is still there or not. -/
theorem Follows.runs (follows : s.Follows screen) (silent : s.reported = false) :
    w.isRunning s.screen = true := by
  rw [reported, sent, Listener.verdict_append, Option.isSome_or, Bool.or_eq_false_iff] at silent
  have unpulled := Option.isNone_iff_eq_none.mp (Option.isSome_eq_false_iff.mp silent.2)
  exact (follows.listens unpulled).isRunning

/-- Once the end of the worker has been followed by a drain, it is noticed exactly
when the worker had sent its last event. -/
theorem Follows.noticed_iff (follows : s.Follows screen) (drained : s.drained = true) :
    s.Noticed screen ↔ s.reported = true := by
  have all : s.sent = s.pulled := by
    rw [sent, (follows.drained drained).2, List.append_nil]
  constructor
  · intro noticed
    by_contra silent
    have runs := follows.runs (Bool.eq_false_iff.mpr silent)
    rw [noticed.isRunning] at runs
    cases runs
  · intro reported
    rw [Hearing.reported, all] at reported
    obtain ⟨result, told⟩ := Option.isSome_iff_exists.mp reported
    have ended := follows.ended told
    refine ⟨ended.isRunning, ⟨?_, ?_, ?_⟩, (follows.finished reported).2⟩
    · rw [all]
      exact follows.shows
    · intro other same
      rw [all, told, Option.some.injEq] at same
      exact same ▸ ended.tells
    · obtain ⟨ok, msg, calls⟩ := ended.calls
      rw [all, calls]
      exact List.prefix_append _ _

end Hearing

/-! ## The screens -/

section Build

open Build

def buildResult : BuildEvent → Option (Except String String)
  | .done result => some result
  | _ => none

/-- The step states and every line of the log so far. -/
def applyBuild (panes : List StepState × List String) :
    BuildEvent → List StepState × List String
  | .step i state => (panes.1.set i state, panes.2)
  | .log line => (panes.1, panes.2 ++ [line])
  | .done _ => panes

def buildCalls : BuildEvent → List LogCall
  | .step i state => ((stepNames[i]?).map fun name => LogCall.step name state).toList
  | .log line => [.line line]
  | .done _ => []

/-- The pane has the end of the log, and all of it until it is first trimmed. -/
structure PaneShows (panes : List StepState × List String) (pane : Pane) : Prop where
  steps : pane.steps = panes.1
  log : ∃ cut, pane.log = panes.2.drop cut ∧
    (cut = 0 ∨ maxLogLines - trimChunk ≤ pane.log.length)

theorem foldBuildEvents_eq (steps : List StepState) (lines : List String)
    (events : List BuildEvent) :
    foldBuildEvents steps lines events =
      ((events.foldl applyBuild (steps, lines)).1, (events.foldl applyBuild (steps, lines)).2,
        events.flatMap buildCalls, (events.filterMap buildResult).getLast?) := by
  induction events generalizing steps lines with
  | nil => rfl
  | cons event rest ih =>
      cases event with
      | step i state => simp [foldBuildEvents, applyBuild, buildCalls, buildResult, ih]
      | log line => simp [foldBuildEvents, applyBuild, buildCalls, buildResult, ih]
      | done result =>
          simp only [foldBuildEvents, ih, List.foldl_cons, applyBuild, List.flatMap_cons, buildCalls,
            List.nil_append, buildResult, List.filterMap_cons, List.getLast?_cons]
          cases (rest.filterMap buildResult).getLast? <;> rfl

/-- What the events add does not depend on what is shown already. -/
theorem applyBuild_append (steps : List StepState)
    (events : List BuildEvent) :
    ∃ steps' added, ∀ shown,
      events.foldl applyBuild (steps, shown) = (steps', shown ++ added) := by
  induction events generalizing steps with
  | nil => exact ⟨steps, [], fun _ => by simp⟩
  | cons event rest ih =>
      cases event with
      | step i state => exact ih (steps.set i state)
      | done result => exact ih steps
      | log line =>
          obtain ⟨steps', added, same⟩ := ih steps
          refine ⟨steps', line :: added, fun _ => ?_⟩
          simp only [List.foldl_cons, applyBuild, same, List.append_assoc, List.singleton_append]

theorem PaneShows.trimmed {panes : List StepState × List String} {pane : Pane}
    (shows : PaneShows panes pane) : PaneShows panes pane.trimmed := by
  obtain ⟨steps, cut, log, few⟩ := shows
  unfold Pane.trimmed
  split
  · next many =>
      refine ⟨steps, cut + (pane.log.length - (maxLogLines - trimChunk)), ?_, ?_⟩
      · simp only [log, List.drop_drop]
      · right
        simp only [List.length_drop]
        omega
  · exact ⟨steps, cut, log, few⟩

theorem PaneShows.drain {panes : List StepState × List String} {pane : Pane}
    (shows : PaneShows panes pane) (events : List BuildEvent) :
    ∃ next, pane.drain events =
        (next, events.flatMap buildCalls, (events.filterMap buildResult).getLast?) ∧
      PaneShows (events.foldl applyBuild panes) next := by
  obtain ⟨steps, cut, log, few⟩ := shows
  obtain ⟨steps', added, same⟩ := applyBuild_append panes.1 events
  have folded : foldBuildEvents pane.steps pane.log events =
      (steps', pane.log ++ added, events.flatMap buildCalls,
        (events.filterMap buildResult).getLast?) := by
    rw [foldBuildEvents_eq, steps, same]
  simp only [Pane.drain, folded]
  refine ⟨_, rfl, ?_⟩
  apply PaneShows.trimmed
  rw [show events.foldl applyBuild panes = (steps', panes.2 ++ added) from same panes.2]
  refine ⟨rfl, cut, ?_, ?_⟩
  · have within : cut ≤ panes.2.length := by
      have length := congrArg List.length log
      simp only [List.length_drop] at length
      simp only [maxLogLines, trimChunk] at few
      omega
    simp only [log, List.drop_append_of_le_length within]
  · apply few.imp id
    intro many
    simp only [List.length_append]
    omega

theorem build_onKey {cfg : Config} {st : BuildScreen} (runs : st.isRunning = true) (a : Answers)
    (key : KeyCode) : ∃ follow scroll,
    (Build.onKey cfg a st key).next = .stay { st with follow := follow, scroll := scroll } := by
  have phase : st.phase = .running := of_decide_eq_true runs
  simp only [Build.onKey, phase, Turn.stay, BuildScreen.scrollKey]
  split <;> exact ⟨_, _, by rw [← phase]⟩

theorem PaneShows.scrolled {panes : List StepState × List String} {pane : Pane}
    (shows : PaneShows panes pane) (scroll : Nat) :
    PaneShows panes { pane with scroll := scroll } :=
  ⟨shows.steps, shows.log⟩

/-- The build screen and its `drain_events`. -/
def buildListener (cfg : Config) : Listener where
  Screen := BuildScreen
  Event := BuildEvent
  Panes := List StepState × List String
  isRunning := BuildScreen.isRunning
  rx := BuildScreen.rx
  Starts st := ∃ a before passphrase,
    (BuildScreen.startBuild cfg a before passphrase).next = .stay st
  drain _ := BuildScreen.drainEvents
  onKey a st key := (Build.onKey cfg a st key).next
  result := buildResult
  panes st := (st.steps, st.log)
  apply := applyBuild
  calls := buildCalls
  Shows panes st := PaneShows panes st.pane
  Tells st
    | .ok img => st.message = some ("Built image: " ++ img) ∧ st.phase = .done true
    | .error e => st.message = some e ∧ st.phase = .done false

theorem buildListener_lawful (cfg : Config) : (buildListener cfg).Lawful where
  starts := by
    rintro st ⟨a, before, passphrase, started⟩
    cases started
    exact ⟨rfl, rfl⟩
  panes _ _ := ⟨rfl, 0, rfl, Or.inl rfl⟩
  drain a st events panes runs live shows := by
    obtain ⟨pane, drained, shown⟩ := PaneShows.drain shows events
    simp only [buildListener, Listener.Heard, Listener.verdict] at runs live drained ⊢
    simp only [BuildScreen.drainEvents, live, if_true, drained]
    cases (events.filterMap buildResult).getLast? with
    | none => exact ⟨shown, runs, live, rfl⟩
    | some result =>
        cases result with
        | ok img => exact ⟨shown, rfl, rfl, ⟨rfl, rfl⟩, _, _, rfl⟩
        | error e => exact ⟨shown, rfl, rfl, ⟨rfl, rfl⟩, _, _, rfl⟩
  silent _ _ _ _ idle _ := if_neg (Bool.eq_false_iff.mp idle)
  onKey a st key panes runs live shows := by
    obtain ⟨follow, scroll, stays⟩ := build_onKey runs a key
    exact ⟨_, stays, runs, live, shows.scrolled scroll⟩

/-- The flow while it builds; only one of its two receivers ever has events. -/
def flowBuildListener (configDir : String) (cfg : Config) : Listener where
  Screen := BuildFlash.BuildFlowScreen
  Event := BuildEvent
  Panes := List StepState × List String
  isRunning := BuildFlash.BuildFlowScreen.isRunning
  rx := BuildFlash.BuildFlowScreen.buildRx
  Starts st := ∃ a before passphrase,
    (BuildFlash.BuildFlowScreen.startBuild cfg a before passphrase).next = .stay st
  drain a st events := st.drainEvents a (events, [])
  onKey a st key := (BuildFlash.onKey configDir cfg a st key).next
  result := buildResult
  panes st := (st.steps, st.log)
  apply := applyBuild
  calls := buildCalls
  Shows panes st := PaneShows panes st.pane
  Tells st
    | .ok img => st.built.map Prod.fst = some img ∧ st.stage = .flashReview
    | .error e => st.message = some e ∧ st.stage = .done false

theorem flow_onKey {configDir : String} {cfg : Config} {st : BuildFlash.BuildFlowScreen}
    (runs : st.isRunning = true) (a : Answers) (key : KeyCode) : ∃ follow scroll,
    (BuildFlash.onKey configDir cfg a st key).next =
      .stay { st with follow := follow, scroll := scroll } := by
  simp only [BuildFlash.BuildFlowScreen.isRunning, Bool.or_eq_true, decide_eq_true_eq] at runs
  cases runs with
  | inl building =>
      obtain ⟨follow, scroll, scrolls⟩ := BuildFlash.onKeyBuilding_scrolls st key
      have turn : BuildFlash.onKey configDir cfg a st key = BuildFlash.onKeyBuilding st key := by
        simp only [BuildFlash.onKey, building]
      exact ⟨follow, scroll, by rw [turn, scrolls]; rfl⟩
  | inr flashing =>
      have turn : BuildFlash.onKey configDir cfg a st key = .stay st := by
        simp only [BuildFlash.onKey, flashing]
      exact ⟨st.follow, st.scroll, by rw [turn]; rfl⟩

theorem drainEvents_build (a : Answers) (st : BuildFlash.BuildFlowScreen)
    (events : List BuildEvent) : st.drainEvents a (events, []) = st.drainBuild a events := by
  have none : ∀ st : BuildFlash.BuildFlowScreen, st.drainFlash [] = (st, []) := by
    intro st
    unfold BuildFlash.BuildFlowScreen.drainFlash
    split <;> rfl
  simp only [BuildFlash.BuildFlowScreen.drainEvents, none, List.append_nil]

theorem flowBuildListener_lawful (configDir : String) (cfg : Config) :
    (flowBuildListener configDir cfg).Lawful where
  starts := by
    rintro st ⟨a, before, passphrase, started⟩
    cases started
    exact ⟨rfl, rfl⟩
  panes _ _ := ⟨rfl, 0, rfl, Or.inl rfl⟩
  drain a st events panes runs live shows := by
    obtain ⟨pane, drained, shown⟩ := PaneShows.drain shows events
    rw [show (flowBuildListener configDir cfg).drain a st events =
      BuildFlash.BuildFlowScreen.drainBuild a st events from drainEvents_build a st events]
    simp only [flowBuildListener, Listener.Heard, Listener.verdict] at runs live drained ⊢
    simp only [BuildFlash.BuildFlowScreen.drainBuild, live, if_true, drained]
    cases (events.filterMap buildResult).getLast? with
    | none => exact ⟨shown, runs, live, rfl⟩
    | some result =>
        cases result with
        | ok img => exact ⟨shown, rfl, rfl, ⟨rfl, rfl⟩, _, _, rfl⟩
        | error e => exact ⟨shown, rfl, rfl, ⟨rfl, rfl⟩, _, _, rfl⟩
  silent a st events panes idle _ :=
    (drainEvents_build a st events).trans (if_neg (Bool.eq_false_iff.mp idle))
  onKey a st key panes runs live shows := by
    obtain ⟨follow, scroll, stays⟩ := flow_onKey runs a key
    exact ⟨_, stays, runs, live, shows.scrolled scroll⟩

end Build

/-! The gauge of a flash, on its own screen and in the flow. -/

section Flash

open Flash

def flashResult : FlashEvent → Option (Except String String)
  | .done result => some result
  | _ => none

def applyFlash (gauge : String × (Nat × Nat)) : FlashEvent → String × (Nat × Nat)
  | .phase title => (title, (0, 0))
  | .progress done total => (gauge.1, (done, total))
  | .done _ => gauge

/-- The progress is not logged. -/
def flashCalls : FlashEvent → List LogCall
  | .phase title => [.phase title]
  | _ => []

theorem foldFlash_eq (title : String) (progress : Nat × Nat) (events : List FlashEvent) :
    foldEvents title progress events =
      ((events.foldl applyFlash (title, progress)).1, (events.foldl applyFlash (title, progress)).2,
        events.flatMap flashCalls, (events.filterMap flashResult).getLast?) := by
  induction events generalizing title progress with
  | nil => rfl
  | cons event rest ih =>
      cases event with
      | phase next => simp [foldEvents, applyFlash, flashCalls, flashResult, ih]
      | progress done total => simp [foldEvents, applyFlash, flashCalls, flashResult, ih]
      | done result =>
          simp only [foldEvents, ih, List.foldl_cons, applyFlash, List.flatMap_cons, flashCalls,
            List.nil_append, flashResult, List.filterMap_cons, List.getLast?_cons]
          cases (rest.filterMap flashResult).getLast? <;> rfl

def flashListener (configDir : String) : Listener where
  Screen := FlashScreen
  Event := FlashEvent
  Panes := String × (Nat × Nat)
  isRunning := FlashScreen.isRunning
  rx := FlashScreen.rx
  Starts st := ∃ a before elev job,
    (FlashScreen.arm configDir a before elev).spawned = some job ∧
      (FlashScreen.arm configDir a before elev).next = .stay st
  drain _ := FlashScreen.drainEvents
  onKey a st key := (Flash.onKey configDir a st key).next
  result := flashResult
  panes st := (st.gaugeTitle, st.progress)
  apply := applyFlash
  calls := flashCalls
  Shows gauge st := (st.gaugeTitle, st.progress) = gauge
  Tells st
    | .ok msg => st.message = some msg ∧ st.phase = .done true
    | .error e => st.message = some e ∧ st.phase = .done false

theorem flashListener_lawful (configDir : String) : (flashListener configDir).Lawful where
  starts := by
    rintro st ⟨a, before, elev, job, spawned, started⟩
    unfold FlashScreen.arm at spawned started
    cases selected : before.selectedDisk with
    | none => simp [selected, Turn.stay] at spawned
    | some disk =>
        cases image : before.image with
        | none => simp [selected, image, Turn.panic] at spawned
        | some image =>
            simp only [selected, image] at started
            cases started
            exact ⟨rfl, rfl⟩
  panes _ _ := rfl
  drain a st events gauge runs live shows := by
    have folded := foldFlash_eq st.gaugeTitle st.progress events
    simp only [flashListener, Listener.Heard, Listener.verdict] at runs live shows ⊢
    subst shows
    simp only [FlashScreen.drainEvents, live, if_true, folded]
    cases (events.filterMap flashResult).getLast? with
    | none => exact ⟨rfl, runs, rfl, rfl⟩
    | some result =>
        cases result with
        | ok msg => exact ⟨rfl, rfl, rfl, ⟨rfl, rfl⟩, _, _, rfl⟩
        | error e => exact ⟨rfl, rfl, rfl, ⟨rfl, rfl⟩, _, _, rfl⟩
  silent _ _ _ _ idle _ := if_neg (Bool.eq_false_iff.mp idle)
  onKey a st key gauge runs live shows := by
    have phase : st.phase = .running := of_decide_eq_true runs
    have turn : Flash.onKey configDir a st key = .stay st := by
      simp only [Flash.onKey, phase]
    exact ⟨st, congrArg Turn.next turn, runs, live, shows⟩

/-- The flow while it flashes what it has built. -/
def flowFlashListener (configDir : String) (cfg : Config) : Listener where
  Screen := BuildFlash.BuildFlowScreen
  Event := FlashEvent
  Panes := String × (Nat × Nat)
  isRunning := BuildFlash.BuildFlowScreen.isRunning
  rx := BuildFlash.BuildFlowScreen.flashRx
  Starts st := ∃ a before elev job, before.buildRx = false ∧
    (BuildFlash.BuildFlowScreen.armFlash configDir a before elev).spawned = some job ∧
      (BuildFlash.BuildFlowScreen.armFlash configDir a before elev).next = .stay st
  drain a st events := st.drainEvents a ([], events)
  onKey a st key := (BuildFlash.onKey configDir cfg a st key).next
  result := flashResult
  panes st := (st.gaugeTitle, st.progress)
  apply := applyFlash
  calls := flashCalls
  Shows gauge st := (st.gaugeTitle, st.progress) = gauge ∧ st.buildRx = false
  Tells st
    | .ok msg => st.message = some msg ∧ st.stage = .done true
    | .error e => st.message = some e ∧ st.stage = .done false

theorem drainEvents_flash (a : Answers) {st : BuildFlash.BuildFlowScreen}
    (built : st.buildRx = false) (events : List FlashEvent) :
    st.drainEvents a ([], events) = st.drainFlash events := by
  have none : st.drainBuild a [] = (st, []) := if_neg (Bool.eq_false_iff.mp built)
  simp only [BuildFlash.BuildFlowScreen.drainEvents, none, List.nil_append]

theorem flowFlashListener_starts {configDir : String} {cfg : Config}
    {st : BuildFlash.BuildFlowScreen} (starts : (flowFlashListener configDir cfg).Starts st) :
    st.isRunning = true ∧ st.flashRx = true ∧ st.buildRx = false := by
  obtain ⟨a, before, elev, job, silent, spawned, started⟩ := starts
  unfold BuildFlash.BuildFlowScreen.armFlash at spawned started
  split at spawned
  · next picked built =>
      simp only [picked, built] at started
      cases started
      exact ⟨rfl, rfl, silent⟩
  · cases spawned

theorem flowFlashListener_lawful (configDir : String) (cfg : Config) :
    (flowFlashListener configDir cfg).Lawful where
  starts st starts :=
    ⟨(flowFlashListener_starts starts).1, (flowFlashListener_starts starts).2.1⟩
  panes st starts := ⟨rfl, (flowFlashListener_starts starts).2.2⟩
  drain a st events gauge runs live shows := by
    obtain ⟨shows, built⟩ := shows
    have folded := foldFlash_eq st.gaugeTitle st.progress events
    rw [show (flowFlashListener configDir cfg).drain a st events =
      BuildFlash.BuildFlowScreen.drainFlash st events from drainEvents_flash a built events]
    simp only [flowFlashListener, Listener.Heard, Listener.verdict] at runs live shows ⊢
    subst shows
    simp only [BuildFlash.BuildFlowScreen.drainFlash, live, if_true, folded]
    cases (events.filterMap flashResult).getLast? with
    | none => exact ⟨⟨rfl, built⟩, runs, rfl, rfl⟩
    | some result =>
        cases result with
        | ok msg => exact ⟨⟨rfl, built⟩, rfl, rfl, ⟨rfl, rfl⟩, _, _, rfl⟩
        | error e => exact ⟨⟨rfl, built⟩, rfl, rfl, ⟨rfl, rfl⟩, _, _, rfl⟩
  silent a st events gauge idle shows :=
    (drainEvents_flash a shows.2 events).trans (if_neg (Bool.eq_false_iff.mp idle))
  onKey a st key gauge runs live shows := by
    obtain ⟨follow, scroll, stays⟩ := flow_onKey runs a key
    exact ⟨_, stays, runs, live, shows⟩

end Flash

section Verify

open Verify

def verifyResult : VerifyEvent → Option (Except String String)
  | .done result => some result
  | _ => none

def applyVerify (panes : Findings) : VerifyEvent → Findings
  | .step i state => { panes with steps := panes.steps.set i state }
  | .detail line => { panes with details := panes.details ++ [line] }
  | .phase title => { panes with gaugeTitle := title, progress := (0, 0) }
  | .progress done total => { panes with progress := (done, total) }
  | .done _ => panes

/-- The progress is not logged. -/
def verifyCalls (names : List String) : VerifyEvent → List LogCall
  | .step i state => ((names[i]?).map fun name => LogCall.step name state).toList
  | .detail line => [.line line]
  | .phase title => [.phase title]
  | .progress _ _ | .done _ => []

theorem foldVerify_eq (names : List String) (panes : Findings) (events : List VerifyEvent) :
    foldEvents names panes events =
      (events.foldl applyVerify panes, events.flatMap (verifyCalls names),
        (events.filterMap verifyResult).getLast?) := by
  induction events generalizing panes with
  | nil => rfl
  | cons event rest ih =>
      cases event with
      | step i state => simp [foldEvents, applyVerify, verifyCalls, verifyResult, ih]
      | detail line => simp [foldEvents, applyVerify, verifyCalls, verifyResult, ih]
      | phase title => simp [foldEvents, applyVerify, verifyCalls, verifyResult, ih]
      | progress done total => simp [foldEvents, applyVerify, verifyCalls, verifyResult, ih]
      | done result =>
          simp only [foldEvents, ih, List.foldl_cons, applyVerify, List.flatMap_cons, verifyCalls,
            List.nil_append, verifyResult, List.filterMap_cons, List.getLast?_cons]
          cases (rest.filterMap verifyResult).getLast? <;> rfl

/-- The screen of an entry of HOME: the image is checked as soon as it is opened. -/
def verifyListener (configDir : String) (mode : VerifyMode) : Listener where
  Screen := VerifyScreen
  Event := VerifyEvent
  Panes := Findings
  isRunning := VerifyScreen.isRunning
  rx := VerifyScreen.rx
  Starts st :=
    match mode with
    | .image => ∃ a job, VerifyScreen.newImage configDir a = (st, some job)
    | .install => ∃ a before dev elev, before.mode = .install ∧
        (VerifyScreen.armInstall a before dev elev).next = .stay st
  drain _ := VerifyScreen.drainEvents
  onKey a st key := (Verify.onKey a st key).next
  result := verifyResult
  panes st := st.toFindings
  apply := applyVerify
  calls := verifyCalls (stepNames mode)
  Shows panes st := st.toFindings = panes ∧ st.mode = mode
  Tells st
    | .ok msg => st.message = some msg ∧ st.phase = .done true
    | .error e => st.message = some e ∧ st.phase = .done false

theorem newImage_starts {configDir : String} {a : Answers} {st : VerifyScreen} {job : VerifyJob}
    (started : VerifyScreen.newImage configDir a = (st, some job)) :
    st.mode = .image ∧ st.isRunning = true ∧ st.rx = true := by
  unfold VerifyScreen.newImage at started
  cases found : Tui.Flash.findImage configDir a.listing with
  | error e =>
      simp only [found] at started
      cases started
  | ok img =>
      simp only [found] at started
      cases started
      exact ⟨rfl, rfl, rfl⟩

theorem verifyListener_starts {configDir : String} {mode : VerifyMode} {st : VerifyScreen}
    (starts : (verifyListener configDir mode).Starts st) :
    st.mode = mode ∧ st.isRunning = true ∧ st.rx = true := by
  cases mode with
  | image =>
      obtain ⟨a, job, started⟩ := starts
      exact newImage_starts started
  | install =>
      obtain ⟨a, before, dev, elev, install, started⟩ := starts
      cases started
      exact ⟨install, rfl, rfl⟩

theorem verify_onKey {st : VerifyScreen} (runs : st.isRunning = true) (a : Answers)
    (key : KeyCode) : ∃ follow scroll skip,
    (Verify.onKey a st key).next =
      .stay { st with follow := follow, scroll := scroll, skip := skip } := by
  have phase : st.phase = .running := of_decide_eq_true runs
  simp only [Verify.onKey, phase]
  split
  · exact ⟨st.follow, st.scroll, true, by rw [← phase]; rfl⟩
  · simp only [VerifyTurn.stay, VerifyScreen.scrollKey]
    split <;> exact ⟨_, _, _, by rw [← phase]⟩

theorem verifyListener_lawful (configDir : String) (mode : VerifyMode) :
    (verifyListener configDir mode).Lawful where
  starts st starts := (verifyListener_starts starts).2
  panes st starts := ⟨rfl, (verifyListener_starts starts).1⟩
  drain a st events panes runs live shows := by
    obtain ⟨shows, same⟩ := shows
    have folded := foldVerify_eq (stepNames mode) st.toFindings events
    simp only [verifyListener, Listener.Heard, Listener.verdict] at runs live shows ⊢
    subst shows
    simp only [VerifyScreen.drainEvents, live, if_true, same, folded]
    cases (events.filterMap verifyResult).getLast? with
    | none => exact ⟨⟨rfl, rfl⟩, runs, rfl, rfl⟩
    | some result =>
        cases result with
        | ok msg => exact ⟨⟨rfl, rfl⟩, rfl, rfl, ⟨rfl, rfl⟩, _, _, rfl⟩
        | error e => exact ⟨⟨rfl, rfl⟩, rfl, rfl, ⟨rfl, rfl⟩, _, _, rfl⟩
  silent _ _ _ _ idle _ := if_neg (Bool.eq_false_iff.mp idle)
  onKey a st key panes runs live shows := by
    obtain ⟨follow, scroll, skip, stays⟩ := verify_onKey runs a key
    exact ⟨_, stays, runs, live, shows⟩

end Verify

/-! ## The workers -/

/-- What a worker can be spawned for. -/
inductive Operation where
  | flowBuild
  | flowFlash
  | build
  | flash
  | verify (mode : Verify.VerifyMode)

def Operation.listener (configDir : String) (cfg : Config) : Operation → Listener
  | .flowBuild => flowBuildListener configDir cfg
  | .flowFlash => flowFlashListener configDir cfg
  | .build => buildListener cfg
  | .flash => flashListener configDir
  | .verify mode => verifyListener configDir mode

theorem listener_lawful (configDir : String) (cfg : Config) (op : Operation) :
    (op.listener configDir cfg).Lawful := by
  cases op with
  | flowBuild => exact flowBuildListener_lawful configDir cfg
  | flowFlash => exact flowFlashListener_lawful configDir cfg
  | build => exact buildListener_lawful cfg
  | flash => exact flashListener_lawful configDir
  | verify mode => exact verifyListener_lawful configDir mode

section Noticing

variable {configDir : String} {cfg : Config} {op : Operation}

/-- However the events of a worker and the drains of its screen fall: after a drain
that follows the end of the worker, the screen has left its running phase with all
the events applied and the log file closed exactly when the worker had sent its last
event. -/
theorem end_noticed_iff {screen : (op.listener configDir cfg).Screen} {logs : Logging.Logs}
    {action : String} {a : Logging.Answers} {s : Hearing (op.listener configDir cfg)}
    (reached : (Hearing.machine _ screen logs action a).Reachable s) (drained : s.drained = true) :
    s.Noticed screen ↔ s.reported = true :=
  (Hearing.reachable_follows (listener_lawful configDir cfg op) reached).noticed_iff drained

end Noticing

/-! ## A build -/

section Build

open Build

def quietLog : Logging.Answers where
  finish := ⟨none, none⟩
  line := .never
  createDir := true
  now := 0
  refused _ := false
  removable _ := true

def buildBegun : Hearing (Operation.build.listener "" .plain) :=
  .start ({ BuildScreen.new .plain with phase := .running, rx := true } : BuildScreen)
    ((Logging.Session.new (fun _ => none) (some "/logs")).begin "build" quietLog).1

abbrev BuildHearing := Hearing (Operation.build.listener "" .plain)

/-- The worker sends a line, and its result if it gets that far, and is gone; then the
screen drains. -/
def buildRun (last : Option BuildEvent) :
    List (HearingLabel (Operation.build.listener "" .plain)) :=
  (BuildEvent.log "evaluating" :: last.toList).map (fun event => .send event) ++
    [.end, .drain Flash.oneDisk fun _ => quietLog]

def buildLogs : Logging.Logs :=
  (Logging.Session.new (fun _ => none) (some "/logs")).toLogs

theorem buildRun_reachable {last : Option BuildEvent} {s : BuildHearing}
    (run : Machine.replay Hearing.step buildBegun (buildRun last) = some s) :
    (Hearing.machine _ buildBegun.screen buildLogs "build" quietLog).Reachable s := by
  have first : (Hearing.machine _ buildBegun.screen buildLogs "build" quietLog).initial
      buildBegun := ⟨⟨Flash.oneDisk, .new .plain, "", rfl⟩, rfl⟩
  exact (Machine.Reachable.initial first).steps (Machine.steps_of_replay (buildRun last) _ s run)

theorem end_noticed_iff_build :
    ∃ s : BuildHearing, s.reported = true ∧ s.drained = true ∧ s.Noticed buildBegun.screen := by
  obtain ⟨s, run⟩ : ∃ s, Machine.replay Hearing.step buildBegun
      (buildRun (some (.done (.ok "/images/nas.raw")))) = some s := ⟨_, rfl⟩
  have ended : s.reported = true ∧ s.drained = true := by
    cases run
    exact ⟨rfl, rfl⟩
  exact ⟨s, ended.1, ended.2, (end_noticed_iff (buildRun_reachable run) ended.2).mpr ended.1⟩

/-- A panic after the first line: the screen goes on as if the build did, and the log
file stays open. -/
theorem lost_end_not_noticed :
    ¬ ∀ (configDir : String) (cfg : Config) (op : Operation)
      (screen : (op.listener configDir cfg).Screen) (logs : Logging.Logs) (action : String)
      (a : Logging.Answers) (s : Hearing (op.listener configDir cfg)),
      (Hearing.machine _ screen logs action a).Reachable s → s.drained = true →
        s.Noticed screen := by
  intro always
  obtain ⟨s, run⟩ : ∃ s, Machine.replay Hearing.step buildBegun (buildRun none) = some s :=
    ⟨_, rfl⟩
  have lost : s.drained = true ∧ Build.BuildScreen.isRunning s.screen = true := by
    cases run
    exact ⟨rfl, rfl⟩
  have noticed := always "" .plain .build _ _ _ _ s (buildRun_reachable run) lost.1
  exact absurd (noticed.isRunning.symm.trans lost.2) (by decide)

end Build

end Nixnas.Ui
