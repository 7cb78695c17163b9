import Mathlib.Logic.Function.Basic
import Nixnas.Logic.Machine
import Nixnas.Rust.BufWriter
import Nixnas.Ui.Screen

/-!
# The session log

`src/tui/src/logging.rs`: the log files of one session, and how they are kept or
removed at its end.

A file is opened only where there was none, so nothing that existed is ever
written to; what the screens pass while a file is open goes into that file in
order, up to the first write that fails.
-/

set_option autoImplicit false

namespace Nixnas.Ui.Logging

open Nixnas.Logic Nixnas.Rust
open Nixnas.Tui.Build (StepState)

/-- The capacity of a `BufWriter`. -/
def capacity : Nat := 8192

/-! ## Files -/

/-- An entry of a directory; directories on the way to it are left out. -/
inductive Node where
  | file (content : Bytes)
  | other
  deriving DecidableEq, Repr

abbrev Disk := String → Option Node

def Disk.put (disk : Disk) (path : String) (node : Option Node) : Disk :=
  Function.update disk path node

def Disk.content (disk : Disk) (path : String) : Bytes :=
  match disk path with
  | some (.file content) => content
  | _ => []

/-- `fs::remove_file`, where the file system lets it. -/
def removeFile (removable : String → Bool) (disk : Disk) (path : String) : Disk × Bool :=
  match disk path with
  | some (.file _) => if removable path then (disk.put path none, true) else (disk, false)
  | _ => (disk, false)

/-- The removals in their order, each with whether it succeeded. -/
def removeEach (removable : String → Bool) (disk : Disk) : List String → Disk × List (String × Bool)
  | [] => (disk, [])
  | path :: rest =>
      let (disk, ok) := removeFile removable disk path
      let (disk, tried) := removeEach removable disk rest
      (disk, (path, ok) :: tried)

/-- `Path::extension`. -/
def pathExtension (path : String) : Option String :=
  extension (String.ofList (path.toList.reverse.takeWhile (· ≠ '/')).reverse)

/-! ## The time stamp -/

/-- `{:0width}`. -/
def padZero (width : Nat) (n : Int) : String :=
  let digits := toString n.natAbs
  let sign := if n < 0 then "-" else ""
  sign ++ String.ofList (List.replicate (width - (sign.length + digits.length)) '0') ++ digits

/-- `timestamp`, at a time in seconds since the epoch; a time before it counts as zero. -/
def timestamp (now : Int) : String :=
  let secs := max now 0
  let h := (secs.tdiv 3600).tmod 24
  let m := (secs.tdiv 60).tmod 60
  let s := secs.tmod 60
  let z := secs.ediv 86400 + 719468
  let era := z.ediv 146097
  let doe := z.emod 146097
  let yoe := (doe - doe.tdiv 1460 + doe.tdiv 36524 - doe.tdiv 146096).tdiv 365
  let doy := doe - (365 * yoe + yoe.tdiv 4 - yoe.tdiv 100)
  let mp := (5 * doy + 2).tdiv 153
  let d := doy - (153 * mp + 2).tdiv 5 + 1
  let month := if mp < 10 then mp + 3 else mp - 9
  let y := yoe + era * 400 + (if month ≤ 2 then 1 else 0)
  padZero 4 y ++ padZero 2 month ++ padZero 2 d ++ "-" ++ padZero 2 h ++ padZero 2 m ++ padZero 2 s

/-! ## The log -/

/-- The open writer: the file that its descriptor is of, and its buffer. -/
structure Writer where
  path : String
  buffer : Bytes
  deriving DecidableEq, Repr

structure SessionLog where
  dir : Option String
  files : List String
  writer : Option Writer
  dirty : Bool
  deriving DecidableEq, Repr

/-- `logs_dir`, from the variables `XDG_STATE_HOME` and `HOME`. -/
def logsDir (stateHome home : Option String) : Option String :=
  ((stateHome.filter fun path => startsWith path "/") <|>
    home.map fun path => join path ".local/state").map fun state =>
      join (join state "nixnas") "logs"

/-- `SessionLog::new`. -/
def SessionLog.new (dir : Option String) : SessionLog := ⟨dir, [], none, false⟩

/-- Where the writes stop that close a writer. -/
structure FinishStops where
  flush : Option Nat
  drop : Option Nat
  deriving DecidableEq, Repr

/-- What the environment answers to one call. -/
structure Answers where
  finish : FinishStops
  line : Buffered.LineStops
  createDir : Bool
  now : Int
  /-- The attempts at a new file that fail otherwise than by its existence. -/
  refused : Nat → Bool
  removable : String → Bool

/-- The log and the files it works on. -/
structure Logs where
  log : SessionLog
  disk : Disk

/-- After a call of the writer; `ok` is whether it returned `Ok`. -/
structure Written where
  disk : Disk
  writer : Writer
  ok : Bool

def write (disk : Disk) (w : Writer) (run : Buffered → Buffered × Bool) : Written :=
  let after := run ⟨disk.content w.path, w.buffer⟩
  ⟨disk.put w.path (some (.file after.1.reached)), ⟨w.path, after.1.buffer⟩, after.2⟩

/-- A dropped writer tries once more to flush. -/
def dropWriter (disk : Disk) (w : Writer) (stop : Option Nat) : Disk :=
  (write disk w (·.flushBuf stop)).disk

def Logs.finish (l : Logs) (stops : FinishStops) : Logs :=
  match l.log.writer with
  | none => l
  | some w =>
      let flushed := write l.disk w (·.flushBuf stops.flush)
      ⟨{ l.log with writer := none }, dropWriter flushed.disk flushed.writer stops.drop⟩

def Logs.writeLine (l : Logs) (s : String) (stops : Buffered.LineStops) : Logs :=
  match l.log.writer with
  | none => l
  | some w =>
      let written := write l.disk w (·.writeLine capacity s stops)
      if written.ok then ⟨{ l.log with writer := some written.writer, dirty := true }, written.disk⟩
      else ⟨{ l.log with writer := none }, dropWriter written.disk written.writer stops.drop⟩

def Logs.flush (l : Logs) (stop : Option Nat) : Logs :=
  if l.log.dirty then
    match l.log.writer with
    | none => { l with log := { l.log with dirty := false } }
    | some w =>
        let flushed := write l.disk w (·.flushBuf stop)
        ⟨{ l.log with writer := some flushed.writer, dirty := false }, flushed.disk⟩
  else l

def logPath (dir action stamp : String) (n : Nat) : String :=
  join dir
    (if n = 0 then action ++ "-" ++ stamp ++ ".log"
    else action ++ "-" ++ stamp ++ "." ++ toString n ++ ".log")

/-- The attempts of `begin`, from the `n`th on: the path that is new. -/
def createNew (disk : Disk) (refused : Nat → Bool) (path : Nat → String) :
    Nat → Nat → Option String
  | 0, _ => none
  | attempts + 1, n =>
      if refused n then none
      else if (disk (path n)).isSome then createNew disk refused path attempts (n + 1)
      else some (path n)

/-- The file that `begin` creates. -/
def Logs.newFile (l : Logs) (action : String) (a : Answers) : Option String :=
  match l.log.dir with
  | none => none
  | some dir =>
      if a.createDir then
        createNew l.disk a.refused (logPath dir action (timestamp a.now)) 100 0
      else none

def Logs.open (l : Logs) (path : String) : Logs :=
  ⟨{ l.log with writer := some ⟨path, []⟩, files := l.log.files ++ [path] },
    l.disk.put path (some (.file []))⟩

def startText (action : String) (a : Answers) : String :=
  "[start] " ++ action ++ " — " ++ timestamp a.now

/-- `SessionLog::begin`, with the path it returns. -/
def Logs.begin (l : Logs) (action : String) (a : Answers) : Logs × Option String :=
  let l := l.finish a.finish
  match l.newFile action a with
  | none => (l, none)
  | some path => ((l.open path).writeLine (startText action a) a.line, some path)

def stateText : StepState → String
  | .pending => "Pending"
  | .running => "Running"
  | .ok => "Ok"
  | .skipped => "Skipped"
  | .fail => "Fail"

/-- The line that a call writes. -/
def callText : LogCall → Option String
  | .begin _ => none
  | .line s => some s
  | .step name state => some ("[step] " ++ name ++ ": " ++ stateText state)
  | .phase title => some ("[phase] " ++ title)
  | .done ok msg => some ("[done] " ++ (if ok then "OK" else "FAIL") ++ ": " ++ msg)

/-- `line`, `step`, `phase` and `done`, and `begin` without the path it returns. -/
def Logs.call (l : Logs) (c : LogCall) (a : Answers) : Logs :=
  match c, callText c with
  | .begin action, _ => (l.begin action a).1
  | .done _ _, some text => (l.writeLine text a.line).finish a.finish
  | _, some text => l.writeLine text a.line
  | _, none => l

/-- `SessionLog::clean`. -/
def Logs.clean (l : Logs) (a : Answers) : Logs :=
  let l := l.finish a.finish
  ⟨{ l.log with files := [] }, (removeEach a.removable l.disk l.log.files).1⟩

/-! ## Keeping and pruning -/

structure PruneAnswers where
  finish : FinishStops
  /-- The names that `read_dir` lists, `none` for an entry it cannot read. -/
  listing : Option (List (Option String))
  /-- The modification times that can be read. -/
  modified : String → Option Int
  removable : String → Bool
  /-- The last file of the session can be opened for appending. -/
  opens : Bool
  /-- Where the write of the note stops. -/
  note : Option Nat

/-- The logs of the directory with their times. -/
def logsIn (dir : String) (listing : List (Option String)) (modified : String → Option Int) :
    List (Int × String) :=
  let paths := (listing.filterMap id).map (join dir)
  (paths.filter fun path => pathExtension path = some "log").filterMap fun path =>
    (modified path).map fun time => (time, path)

inductive Op where
  | call (c : LogCall)
  | flush
  | clean

def Logs.apply (l : Logs) (a : Answers) : Op → Logs
  | .call c => l.call c a
  | .flush => l.flush a.finish.flush
  | .clean => l.clean a

/-- The log in a session, with what has happened so far: the files that were created,
over the session and since it was last cleaned, and what was passed while each of
them was open. -/
structure Session extends Logs where
  created : List String
  sinceClean : List String
  passed : String → Bytes
  /-- The file of the action in progress, until the action is done or the write of
  one of its lines fails. -/
  active : Option String
  /-- No write has failed since the last file was created. -/
  calm : Bool

/-- The file and the first line of a `begin` that creates one. -/
def Logs.created (l : Logs) (a : Answers) : Op → Option (String × String)
  | .call (.begin action) => (l.begin action a).2.map fun path => (path, startText action a)
  | _ => none

/-- The open file and the line that is passed to it. -/
def Logs.given (l : Logs) : Op → Option (String × String)
  | .call c => (callText c).bind fun text => l.log.writer.map fun w => (w.path, text)
  | _ => none

/-- No write of the call fails. -/
def Answers.complete (a : Answers) : Bool := a.line = .never ∧ a.finish.flush = none

/-- The action in progress after a call that begins none. -/
def activeAfter (active : Option String) (a : Answers) : Op → Option String
  | .flush => active
  | .clean | .call (.begin _) | .call (.done _ _) => none
  | .call (.line _) | .call (.step _ _) | .call (.phase _) =>
      if a.line = .never then active else none

def Session.step (s : Session) (op : Op) (a : Answers) : Session :=
  let logs := s.apply a op
  match s.toLogs.created a op with
  | some (path, text) =>
      { toLogs := logs
        created := s.created ++ [path]
        sinceClean := s.sinceClean ++ [path]
        passed := Function.update s.passed path (Buffered.lineBytes text)
        active := if a.line = .never then some path else none
        calm := a.line = .never }
  | none =>
      { toLogs := logs
        created := s.created
        sinceClean := match op with
          | .clean => []
          | _ => s.sinceClean
        passed := match s.given op with
          | some (path, text) =>
              Function.update s.passed path (s.passed path ++ Buffered.lineBytes text)
          | none => s.passed
        active := activeAfter s.active a op
        calm := s.calm && a.complete }

def Session.new (start : Disk) (dir : Option String) : Session where
  log := .new dir
  disk := start
  created := []
  sinceClean := []
  passed _ := []
  active := none
  calm := true

def machine (start : Disk) (dir : Option String) : Machine Session (Op × Answers) where
  initial s := s = .new start dir
  step s label next := next = s.step label.1 label.2

end Nixnas.Ui.Logging
