import Nixnas.Ui.Logging

/-!
# What the session's files hold

A session creates each of its files where there was none and writes to no other.
While a file is open, it and the writer's buffer hold what was passed, in order;
afterwards the file holds a beginning of that, and all of it if no write failed.
-/

set_option autoImplicit false

namespace Nixnas.Ui.Logging

open Nixnas.Logic Nixnas.Rust

/-! ## Files -/

@[simp] theorem put_same (disk : Disk) (path : String) (node : Option Node) :
    disk.put path node path = node := Function.update_self ..

theorem put_other {disk : Disk} {path other : String} (differs : other ≠ path)
    (node : Option Node) : disk.put path node other = disk other :=
  Function.update_of_ne differs ..

@[simp] theorem content_put (disk : Disk) (path : String) (content : Bytes) :
    (disk.put path (some (.file content))).content path = content := by
  simp [Disk.content]

def isFile : Option Node → Bool
  | some (.file _) => true
  | _ => false

theorem removeFile_eq (removable : String → Bool) (disk : Disk) (path : String) :
    removeFile removable disk path =
      if isFile (disk path) ∧ removable path then (disk.put path none, true) else (disk, false) := by
  rw [removeFile]
  cases node : disk path with
  | none => simp [isFile]
  | some entry =>
      cases entry with
      | file content => simp [isFile]
      | other => simp [isFile]

theorem isFile_none : isFile none = false := rfl

section Removing

variable {removable : String → Bool} {disk : Disk} {path : String}

theorem removeEach_gone (rest : List String) (file : isFile (disk path))
    (allowed : removable path) :
    removeEach removable disk (path :: rest) =
      ((removeEach removable (disk.put path none) rest).1,
        (path, true) :: (removeEach removable (disk.put path none) rest).2) := by
  rw [removeEach, removeFile_eq, if_pos ⟨file, allowed⟩]

theorem removeEach_kept (rest : List String) (kept : ¬ (isFile (disk path) ∧ removable path)) :
    removeEach removable disk (path :: rest) =
      ((removeEach removable disk rest).1, (path, false) :: (removeEach removable disk rest).2) := by
  rw [removeEach, removeFile_eq, if_neg kept]

variable (removable disk)

/-- What is gone after the removals. -/
theorem removeEach_disk (paths : List String) (p : String) :
    (removeEach removable disk paths).1 p =
      if p ∈ paths ∧ isFile (disk p) ∧ removable p then none else disk p := by
  induction paths generalizing disk with
  | nil => simp [removeEach]
  | cons path rest ih =>
      by_cases gone : isFile (disk path) ∧ removable path
      · rw [removeEach_gone rest gone.1 gone.2, ih]
        by_cases same : p = path
        · subst same
          simp [gone, isFile_none]
        · simp [put_other same, same]
      · rw [removeEach_kept rest gone, ih]
        by_cases same : p = path
        · subst same
          simp [gone]
        · simp [same]

end Removing

/-! ## What a call writes -/

/-- All that the writer was given and has not lost. -/
def Logs.whole (l : Logs) (w : Writer) : Bytes := l.disk.content w.path ++ w.buffer

/-- From `l`, where the writer is open, the log has come to `l'` while its file was
passed `bytes`. -/
structure Wrote (l : Logs) (w : Writer) (bytes : Bytes) (l' : Logs) : Prop where
  dir : l'.log.dir = l.log.dir
  files : l'.log.files = l.log.files
  others : ∀ p, p ≠ w.path → l'.disk p = l.disk p
  stored : ∃ content, l'.disk w.path = some (.file content) ∧ content <+: l.whole w ++ bytes
  writer : ∀ w', l'.log.writer = some w' →
    w'.path = w.path ∧ l'.whole w' = l.whole w ++ bytes

section Writing

variable {l : Logs} {w : Writer}

/-- The writer and what has reached its file. -/
def Logs.buffered (l : Logs) (w : Writer) : Buffered := ⟨l.disk.content w.path, w.buffer⟩

theorem write_other (disk : Disk) (w : Writer) (run : Buffered → Buffered × Bool) {p : String}
    (differs : p ≠ w.path) : (write disk w run).disk p = disk p :=
  put_other differs _

theorem write_same (disk : Disk) (w : Writer) (run : Buffered → Buffered × Bool) :
    (write disk w run).disk w.path =
      some (.file (run ⟨disk.content w.path, w.buffer⟩).1.reached) :=
  put_same ..

/-- A call can be followed by another one. -/
theorem write_buffered (disk : Disk) (w : Writer) (run : Buffered → Buffered × Bool) :
    (⟨(write disk w run).disk.content w.path, (write disk w run).writer.buffer⟩ : Buffered) =
      (run ⟨disk.content w.path, w.buffer⟩).1 := by
  have content : (write disk w run).disk.content w.path =
      (run ⟨disk.content w.path, w.buffer⟩).1.reached := content_put ..
  rw [content]
  rfl

theorem dropWriter_other (disk : Disk) (w : Writer) (stop : Option Nat) {p : String}
    (differs : p ≠ w.path) : dropWriter disk w stop p = disk p := write_other disk w _ differs

theorem dropWriter_same (disk : Disk) (w : Writer) (run : Buffered → Buffered × Bool)
    (stop : Option Nat) :
    dropWriter (write disk w run).disk (write disk w run).writer stop w.path =
      some (.file ((run ⟨disk.content w.path, w.buffer⟩).1.flushBuf stop).1.reached) := by
  rw [← write_buffered]
  exact write_same _ (write disk w run).writer _

/-- The writer is dropped after a call that left it with a beginning of the bytes. -/
theorem wrote_dropped {bytes : Bytes} {run : Buffered → Buffered × Bool}
    (came : Buffered.Came (l.buffered w) bytes (run (l.buffered w)).1) {log : SessionLog}
    (dir : log.dir = l.log.dir) (files : log.files = l.log.files) (closed : log.writer = none)
    (stop : Option Nat) :
    Wrote l w bytes
      ⟨log, dropWriter (write l.disk w run).disk (write l.disk w run).writer stop⟩ := by
  refine ⟨dir, files, ?_, ?_, ?_⟩
  · intro p differs
    exact (dropWriter_other _ (write l.disk w run).writer _ differs).trans (write_other _ _ _ differs)
  · refine ⟨_, dropWriter_same l.disk w run stop, ?_⟩
    have kept := Buffered.flushBuf_whole (run (l.buffered w)).1 stop
    have reached : ((run (l.buffered w)).1.flushBuf stop).1.reached <+:
        (run (l.buffered w)).1.whole := by
      rw [← kept.1]
      exact List.prefix_append _ _
    exact reached.trans came.ordered
  · intro w' shown
    rw [closed] at shown
    cases shown

/-- The writer has taken all the bytes. -/
theorem wrote_open {bytes : Bytes} {run : Buffered → Buffered × Bool}
    (taken : (run (l.buffered w)).1.whole = l.whole w ++ bytes) {log : SessionLog}
    (dir : log.dir = l.log.dir) (files : log.files = l.log.files)
    (shown : log.writer = some (write l.disk w run).writer) :
    Wrote l w bytes ⟨log, (write l.disk w run).disk⟩ := by
  refine ⟨dir, files, fun p differs => write_other _ _ _ differs, ?_, ?_⟩
  · refine ⟨_, write_same _ _ _, ?_⟩
    rw [← taken]
    exact List.prefix_append _ _
  · intro w' shown'
    rw [shown, Option.some.injEq] at shown'
    subst shown'
    refine ⟨rfl, ?_⟩
    rw [← taken]
    exact congrArg Buffered.whole (write_buffered l.disk w run)

theorem flushBuf_came (b : Buffered) (stop : Option Nat) :
    Buffered.Came b [] (b.flushBuf stop).1 := by
  obtain ⟨whole, grows⟩ := Buffered.flushBuf_whole b stop
  have same : (b.flushBuf stop).1.whole = b.whole ++ [] := by rw [whole, List.append_nil]
  exact ⟨grows, same ▸ List.prefix_refl _⟩

theorem finish_none (closed : l.log.writer = none) (stops : FinishStops) : l.finish stops = l := by
  rw [Logs.finish, closed]

theorem finish_some (shown : l.log.writer = some w) (stops : FinishStops) :
    l.finish stops =
      ⟨{ l.log with writer := none },
        dropWriter (write l.disk w (·.flushBuf stops.flush)).disk
          (write l.disk w (·.flushBuf stops.flush)).writer stops.drop⟩ := by
  rw [Logs.finish, shown]

theorem finish_writer (l : Logs) (stops : FinishStops) : (l.finish stops).log.writer = none := by
  cases shown : l.log.writer with
  | none => rw [finish_none shown, shown]
  | some w => rw [finish_some shown]

theorem finish_wrote (shown : l.log.writer = some w) (stops : FinishStops) :
    Wrote l w [] (l.finish stops) := by
  rw [finish_some shown]
  apply wrote_dropped (flushBuf_came _ _)
  all_goals rfl

theorem writeLine_none (closed : l.log.writer = none) (s : String) (stops : Buffered.LineStops) :
    l.writeLine s stops = l := by
  rw [Logs.writeLine, closed]

theorem writeLine_wrote (shown : l.log.writer = some w) (s : String)
    (stops : Buffered.LineStops) :
    Wrote l w (Buffered.lineBytes s) (l.writeLine s stops) := by
  have line := Buffered.writeLine_came capacity (l.buffered w) s stops
  rw [Logs.writeLine, shown]
  simp only
  split
  · rename_i ok
    exact wrote_open (line.2 ok) rfl rfl rfl
  · apply wrote_dropped line.1
    all_goals rfl

/-- Without a failed write the file stays open, and its writer has to be flushed. -/
theorem writeLine_complete (shown : l.log.writer = some w) (s : String) :
    ∃ w', (l.writeLine s .never).log.writer = some w' ∧ (l.writeLine s .never).log.dirty = true := by
  have ok : (write l.disk w (·.writeLine capacity s .never)).ok = true :=
    Buffered.writeLine_never capacity (l.buffered w) s
  rw [Logs.writeLine, shown]
  simp only
  rw [if_pos ok]
  exact ⟨_, rfl, rfl⟩

theorem flush_wrote (shown : l.log.writer = some w) (present : isFile (l.disk w.path))
    (stop : Option Nat) : Wrote l w [] (l.flush stop) := by
  rw [Logs.flush]
  by_cases dirty : l.log.dirty
  · rw [if_pos dirty, shown]
    refine wrote_open ?_ rfl rfl rfl
    rw [(Buffered.flushBuf_whole _ stop).1, List.append_nil]
    rfl
  · rw [if_neg dirty]
    refine ⟨rfl, rfl, fun _ _ => rfl, ?_, ?_⟩
    · cases node : l.disk w.path with
      | none => simp [node, isFile] at present
      | some entry =>
          cases entry with
          | other => simp [node, isFile] at present
          | file content =>
              refine ⟨content, rfl, ?_⟩
              rw [Logs.whole, Disk.content, node, List.append_nil]
              exact List.prefix_append _ _
    · intro w' shown'
      rw [shown, Option.some.injEq] at shown'
      subst shown'
      exact ⟨rfl, (List.append_nil _).symm⟩

/-- A flush leaves nothing behind, unless it stops. -/
theorem flush_complete (shown : l.log.writer = some w) (clean : l.log.dirty = false → w.buffer = [])
    {w' : Writer} (shown' : (l.flush none).log.writer = some w') : w'.buffer = [] := by
  rw [Logs.flush] at shown'
  by_cases dirty : l.log.dirty
  · rw [if_pos dirty, shown] at shown'
    cases shown'
    rfl
  · rw [if_neg dirty, shown, Option.some.injEq] at shown'
    subst shown'
    exact clean (Bool.eq_false_iff.mpr dirty)

theorem flush_open (shown : l.log.writer = some w) (stop : Option Nat) :
    ∃ w', (l.flush stop).log.writer = some w' ∧ w'.path = w.path := by
  rw [Logs.flush]
  split
  · rw [shown]
    exact ⟨_, rfl, rfl⟩
  · exact ⟨w, shown, rfl⟩

theorem flush_none (closed : l.log.writer = none) (stop : Option Nat) :
    (l.flush stop).disk = l.disk ∧ (l.flush stop).log.writer = none ∧
      (l.flush stop).log.files = l.log.files := by
  rw [Logs.flush]
  split
  · rw [closed]
    exact ⟨rfl, closed, rfl⟩
  · exact ⟨rfl, closed, rfl⟩

theorem Wrote.trans {l l' l'' : Logs} {w w' : Writer} {first second : Bytes}
    (wrote : Wrote l w first l') (shown : l'.log.writer = some w') (next : Wrote l' w' second l'') :
    Wrote l w (first ++ second) l'' := by
  obtain ⟨path, taken⟩ := wrote.writer w' shown
  obtain ⟨content, stored, ordered⟩ := next.stored
  refine ⟨next.dir.trans wrote.dir, next.files.trans wrote.files, ?_, ?_, ?_⟩
  · intro p differs
    exact (next.others p (path ▸ differs)).trans (wrote.others p differs)
  · refine ⟨content, path ▸ stored, ?_⟩
    rwa [taken, List.append_assoc] at ordered
  · intro w'' shown''
    obtain ⟨path', taken'⟩ := next.writer w'' shown''
    refine ⟨path'.trans path, ?_⟩
    rw [taken', taken, List.append_assoc]

end Writing

/-! ## The names of the files -/

/-- The text ends in a character that separates no path. -/
def EndsPlain (s : String) : Prop := ∃ front c, s.toList = front ++ [c] ∧ c ≠ '/'

theorem EndsPlain.append {s : String} (ends : EndsPlain s) (front : String) :
    EndsPlain (front ++ s) := by
  obtain ⟨inside, c, isEnd, noSlash⟩ := ends
  refine ⟨front.toList ++ inside, c, ?_, noSlash⟩
  rw [String.toList_append, isEnd, List.append_assoc]

theorem endsPlain_toString (n : Nat) : EndsPlain (toString n) := by
  have digits : (toString n).toList = Nat.toDigits 10 n := Nat.toList_repr
  have some : (toString n).toList ≠ [] := by
    rw [digits]
    exact Nat.toDigits_ne_nil
  refine ⟨_, _, (List.dropLast_append_getLast some).symm, ?_⟩
  have member := List.getLast_mem some
  intro slash
  rw [slash, digits] at member
  have digit := Nat.isDigit_of_mem_toDigits (by decide) (by decide) member
  revert digit
  decide

theorem endsPlain_timestamp (now : Int) : EndsPlain (timestamp now) := by
  rw [timestamp]
  apply EndsPlain.append
  rw [padZero]
  apply EndsPlain.append
  exact endsPlain_toString _

theorem join_ends (base path : String) : ∃ front, (join base path).toList = front ++ path.toList := by
  rw [join]
  split
  · exact ⟨[], rfl⟩
  · split
    · exact ⟨_, String.toList_append⟩
    · exact ⟨_, String.toList_append⟩

theorem pathExtension_log {s : String} (ends : EndsPlain s) (dir : String) :
    pathExtension (join dir (s ++ ".log")) = some "log" := by
  obtain ⟨front, whole⟩ := join_ends dir (s ++ ".log")
  obtain ⟨inside, c, isEnd, noSlash⟩ := ends
  have reversed : (join dir (s ++ ".log")).toList.reverse =
      'g' :: 'o' :: 'l' :: '.' :: c :: (front ++ inside).reverse := by
    rw [whole, String.toList_append, isEnd]
    simp
  rw [pathExtension, reversed]
  simp [extension, noSlash]

theorem logPath_log (dir action : String) (now : Int) (n : Nat) :
    pathExtension (logPath dir action (timestamp now) n) = some "log" := by
  rw [logPath]
  split
  · exact pathExtension_log ((endsPlain_timestamp now).append _) dir
  · exact pathExtension_log ((endsPlain_toString n).append _) dir

/-- `begin` creates its file where there was none, under a name of a log. -/
theorem createNew_some {disk : Disk} {refused : Nat → Bool} {path : Nat → String}
    {attempts n : Nat} {created : String}
    (opened : createNew disk refused path attempts n = some created) :
    disk created = none ∧ ∃ k, created = path k := by
  induction attempts generalizing n with
  | zero => cases opened
  | succ attempts ih =>
      rw [createNew] at opened
      split at opened
      · cases opened
      · split at opened
        · exact ih opened
        · rename_i free
          cases opened
          exact ⟨by simpa using free, n, rfl⟩

theorem newFile_some {l : Logs} {action : String} {a : Answers} {path : String}
    (opened : l.newFile action a = some path) :
    l.disk path = none ∧ pathExtension path = some "log" := by
  rw [Logs.newFile] at opened
  split at opened
  · cases opened
  · split at opened
    · obtain ⟨free, k, rfl⟩ := createNew_some opened
      exact ⟨free, logPath_log _ _ _ k⟩
    · cases opened

/-! ## What every run keeps -/

/-- What holds of a session that began with the files of `start`. -/
structure Records (start : Disk) (s : Session) : Prop where
  /-- What the session did not create is as it was. -/
  untouched : ∀ p, p ∉ s.created → s.disk p = start p
  /-- What it created was not there. -/
  fresh : ∀ p ∈ s.created, start p = none
  files : s.log.files = s.sinceClean
  distinct : s.log.files.Nodup
  listed : ∀ p ∈ s.log.files, p ∈ s.created ∧ pathExtension p = some "log"
  /-- A file holds a beginning of what was passed while it was open. -/
  stored : ∀ p ∈ s.log.files, ∃ content, s.disk p = some (.file content) ∧ content <+: s.passed p
  /-- The open file and its buffer hold all of it. -/
  opened : ∀ w, s.log.writer = some w → w.path ∈ s.log.files ∧ s.whole w = s.passed w.path
  /-- The file of the action in progress is the open one. -/
  active : ∀ p, s.active = some p → ∃ w, s.log.writer = some w ∧ w.path = p
  flushed : ∀ w, s.log.writer = some w → s.calm = true → s.log.dirty = false → w.buffer = []

/-- Writing to the open file keeps the records, when what was passed is added to them. -/
theorem Records.wrote {start : Disk} {s s' : Session} (records : Records start s) {w : Writer}
    {bytes : Bytes} (shown : s.log.writer = some w) (wrote : Wrote s.toLogs w bytes s'.toLogs)
    (created : s'.created = s.created) (sinceClean : s'.sinceClean = s.sinceClean)
    (passed : s'.passed = Function.update s.passed w.path (s.passed w.path ++ bytes))
    (active : ∀ p, s'.active = some p → ∃ w', s'.log.writer = some w' ∧ w'.path = p)
    (flushed : ∀ w', s'.log.writer = some w' → s'.calm = true → s'.log.dirty = false →
      w'.buffer = []) : Records start s' := by
  obtain ⟨inFiles, whole⟩ := records.opened w shown
  refine ⟨?_, ?_, ?_, ?_, ?_, ?_, ?_, active, flushed⟩
  · intro p other
    rw [created] at other
    have differs : p ≠ w.path := by
      rintro rfl
      exact other (records.listed _ inFiles).1
    rw [wrote.others p differs, records.untouched p other]
  · rw [created]
    exact records.fresh
  · rw [wrote.files, sinceClean, records.files]
  · rw [wrote.files]
    exact records.distinct
  · rw [wrote.files, created]
    exact records.listed
  · intro p member
    rw [wrote.files] at member
    by_cases same : p = w.path
    · subst same
      obtain ⟨content, stored, ordered⟩ := wrote.stored
      refine ⟨content, stored, ?_⟩
      rwa [passed, Function.update_self, ← whole]
    · obtain ⟨content, stored, ordered⟩ := records.stored p member
      refine ⟨content, (wrote.others p same).trans stored, ?_⟩
      rwa [passed, Function.update_of_ne same]
  · intro w' shown'
    obtain ⟨path, taken⟩ := wrote.writer w' shown'
    rw [path, wrote.files]
    refine ⟨inFiles, ?_⟩
    rw [passed, Function.update_self, ← whole]
    exact taken

/-- A call that passes nothing. -/
theorem Records.wrote_nil {start : Disk} {s s' : Session} (records : Records start s) {w : Writer}
    (shown : s.log.writer = some w) (wrote : Wrote s.toLogs w [] s'.toLogs)
    (created : s'.created = s.created) (sinceClean : s'.sinceClean = s.sinceClean)
    (passed : s'.passed = s.passed)
    (active : ∀ p, s'.active = some p → ∃ w', s'.log.writer = some w' ∧ w'.path = p)
    (flushed : ∀ w', s'.log.writer = some w' → s'.calm = true → s'.log.dirty = false →
      w'.buffer = []) : Records start s' := by
  refine records.wrote shown wrote created sinceClean ?_ active flushed
  rw [passed, List.append_nil, Function.update_eq_self]

theorem Records.finish {start : Disk} {s : Session} (records : Records start s)
    (stops : FinishStops) : Records start { s with toLogs := s.finish stops, active := none } := by
  cases shown : s.log.writer with
  | none =>
      rw [finish_none shown]
      exact ⟨records.untouched, records.fresh, records.files, records.distinct, records.listed,
        records.stored, records.opened, (fun p begun => by cases begun), records.flushed⟩
  | some w =>
      refine records.wrote_nil shown (finish_wrote shown stops) rfl rfl rfl ?_ ?_
      · exact fun p begun => by cases begun
      intro w' shown'
      rw [finish_writer] at shown'
      cases shown'

/-- A file that was not there, empty and open. -/
theorem Records.open {start : Disk} {s : Session} (records : Records start s) {path : String}
    (free : s.disk path = none) (isLog : pathExtension path = some "log") :
    Records start
      { toLogs := s.open path
        created := s.created ++ [path]
        sinceClean := s.sinceClean ++ [path]
        passed := Function.update s.passed path []
        active := some path
        calm := true } := by
  have notListed : path ∉ s.log.files := by
    intro member
    obtain ⟨content, stored, _⟩ := records.stored path member
    rw [free] at stored
    cases stored
  refine ⟨?_, ?_, ?_, ?_, ?_, ?_, ?_, ?_, ?_⟩
  · intro p other
    rw [List.mem_append, List.mem_singleton, not_or] at other
    exact (put_other other.2 _).trans (records.untouched p other.1)
  · intro p member
    rcases List.mem_append.mp member with old | new
    · exact records.fresh p old
    · rw [List.mem_singleton] at new
      subst new
      by_cases old : p ∈ s.created
      · exact records.fresh p old
      · rw [← records.untouched p old, free]
  · exact congrArg (· ++ [path]) records.files
  · have apart : ∀ p ∈ s.log.files, ∀ q ∈ [path], p ≠ q := by
      intro p old q new same
      rw [List.mem_singleton] at new
      exact notListed (new ▸ same ▸ old)
    exact List.nodup_append.mpr ⟨records.distinct, List.pairwise_singleton _ path, apart⟩
  · intro p member
    rcases List.mem_append.mp member with old | new
    · exact ⟨List.mem_append_left _ (records.listed p old).1, (records.listed p old).2⟩
    · rw [List.mem_singleton] at new
      subst new
      exact ⟨List.mem_append_right _ (List.mem_singleton_self _), isLog⟩
  · intro p member
    by_cases same : p = path
    · subst same
      exact ⟨[], put_same .., List.nil_prefix⟩
    · have old : p ∈ s.log.files := by
        rcases List.mem_append.mp member with old | new
        · exact old
        · exact absurd (List.mem_singleton.mp new) same
      obtain ⟨content, stored, ordered⟩ := records.stored p old
      refine ⟨content, (put_other same _).trans stored, ?_⟩
      change content <+: Function.update s.passed path [] p
      rwa [Function.update_of_ne same]
  · intro w shown
    cases shown
    refine ⟨List.mem_append_right _ (List.mem_singleton_self _), ?_⟩
    change (s.open path).whole ⟨path, []⟩ = Function.update s.passed path [] path
    rw [Function.update_self]
    exact congrArg (· ++ []) (content_put s.disk path [])
  · intro p begun
    cases begun
    exact ⟨⟨path, []⟩, rfl, rfl⟩
  · intro w shown _ _
    cases shown
    rfl

/-! ## One call -/

section Calls

variable {l : Logs} {w : Writer}

theorem call_wrote (shown : l.log.writer = some w) {c : LogCall} {text : String}
    (isText : callText c = some text) (a : Answers) :
    Wrote l w (Buffered.lineBytes text) (l.call c a) := by
  have line := writeLine_wrote shown text a.line
  cases c with
  | begin action => cases isText
  | line | step | phase =>
      cases isText
      exact line
  | done ok msg =>
      cases isText
      change Wrote l w _ ((l.writeLine _ a.line).finish a.finish)
      cases shown' : (l.writeLine _ a.line).log.writer with
      | none =>
          rw [finish_none shown']
          exact line
      | some w' =>
          have both := line.trans shown' (finish_wrote shown' a.finish)
          rwa [List.append_nil] at both

theorem call_none (closed : l.log.writer = none) {c : LogCall} {text : String}
    (isText : callText c = some text) (a : Answers) : l.call c a = l := by
  cases c with
  | begin action => cases isText
  | line | step | phase =>
      cases isText
      exact writeLine_none closed _ _
  | done ok msg =>
      cases isText
      change (l.writeLine _ a.line).finish a.finish = l
      rw [writeLine_none closed, finish_none closed]

/-- Without a failed write the line is kept whole, and the file stays open until it
is done. -/
theorem call_kept (shown : l.log.writer = some w) {c : LogCall} {text : String}
    (isText : callText c = some text) (goesOn : ∀ ok msg, c ≠ .done ok msg) {a : Answers}
    (complete : a.line = .never) :
    ∃ w', (l.call c a).log.writer = some w' ∧ w'.path = w.path ∧
      (l.call c a).whole w' = l.whole w ++ Buffered.lineBytes text := by
  have stays : ∃ w', (l.call c a).log.writer = some w' := by
    cases c with
    | begin action => cases isText
    | line | step | phase =>
        cases isText
        obtain ⟨w', shown', -⟩ := writeLine_complete shown (l := l) _
        refine ⟨w', ?_⟩
        rw [← complete] at shown'
        exact shown'
    | done ok msg => exact absurd rfl (goesOn ok msg)
  obtain ⟨w', shown'⟩ := stays
  exact ⟨w', shown', (call_wrote shown isText a).writer w' shown'⟩

theorem call_dirty (shown : l.log.writer = some w) {c : LogCall} {text : String}
    (isText : callText c = some text) {a : Answers} (complete : a.line = .never) {w' : Writer}
    (shown' : (l.call c a).log.writer = some w') : (l.call c a).log.dirty = true := by
  cases c with
  | begin action => cases isText
  | line | step | phase =>
      cases isText
      obtain ⟨_, _, dirty⟩ := writeLine_complete shown (l := l) _
      change (l.writeLine _ a.line).log.dirty = true
      rw [complete]
      exact dirty
  | done ok msg =>
      change ((l.writeLine _ a.line).finish a.finish).log.writer = some w' at shown'
      rw [finish_writer] at shown'
      cases shown'

theorem begin_none {action : String} {a : Answers}
    (refused : (l.finish a.finish).newFile action a = none) :
    l.begin action a = (l.finish a.finish, none) := by
  rw [Logs.begin]
  simp only [refused]

theorem begin_some {action : String} {a : Answers} {path : String}
    (opened : (l.finish a.finish).newFile action a = some path) :
    l.begin action a =
      (((l.finish a.finish).open path).writeLine (startText action a) a.line, some path) := by
  rw [Logs.begin]
  simp only [opened]

end Calls

theorem Records.present {start : Disk} {s : Session} (records : Records start s) (w : Writer)
    (shown : s.log.writer = some w) : isFile (s.disk w.path) := by
  obtain ⟨content, stored, _⟩ := records.stored _ (records.opened w shown).1
  rw [stored]
  rfl

/-- Nothing is open, and nothing has changed. -/
theorem Records.closed {start : Disk} {s s' : Session} (records : Records start s)
    (disk : s'.disk = s.disk) (files : s'.log.files = s.log.files) (writer : s'.log.writer = none)
    (created : s'.created = s.created) (sinceClean : s'.sinceClean = s.sinceClean)
    (passed : s'.passed = s.passed) (active : s'.active = none) : Records start s' := by
  refine ⟨?_, ?_, ?_, ?_, ?_, ?_, ?_, ?_, ?_⟩
  · rw [disk, created]
    exact records.untouched
  · rw [created]
    exact records.fresh
  · rw [files, sinceClean]
    exact records.files
  · rw [files]
    exact records.distinct
  · rw [files, created]
    exact records.listed
  · rw [files, disk, passed]
    exact records.stored
  · intro w shown
    rw [writer] at shown
    cases shown
  · intro p begun
    rw [active] at begun
    cases begun
  · intro w shown
    rw [writer] at shown
    cases shown

/-- No action is in progress while no file is open. -/
theorem Records.idle {start : Disk} {s : Session} (records : Records start s)
    (closed : s.log.writer = none) : s.active = none := by
  rw [Option.eq_none_iff_forall_not_mem]
  intro p begun
  obtain ⟨w, shown, -⟩ := records.active p begun
  rw [closed] at shown
  cases shown

theorem activeAfter_none (a : Answers) (op : Op) : activeAfter none a op = none := by
  cases op with
  | call c => cases c <;> simp [activeAfter]
  | flush => rfl
  | clean => rfl

/-- An action stays in progress only by a line that is no last one and whose writes
complete. -/
theorem activeAfter_text {active : Option String} {a : Answers} {c : LogCall} {text p : String}
    (isText : callText c = some text) (goesOn : activeAfter active a (.call c) = some p) :
    active = some p ∧ a.line = .never ∧ ∀ ok msg, c ≠ .done ok msg := by
  cases c with
  | begin action => cases isText
  | line | step | phase =>
      simp only [activeAfter] at goesOn
      split at goesOn
      · rename_i complete
        exact ⟨goesOn, complete, fun _ _ impossible => by cases impossible⟩
      · cases goesOn
  | done ok msg => cases goesOn

theorem created_text {l : Logs} {c : LogCall} {text : String} (isText : callText c = some text)
    (a : Answers) : l.created a (.call c) = none := by
  cases c with
  | begin action => cases isText
  | line | step | phase | done => rfl

/-- A line passed to the open file. -/
theorem step_given {s : Session} {w : Writer} (shown : s.log.writer = some w) {c : LogCall}
    {text : String} (isText : callText c = some text) (a : Answers) :
    s.step (.call c) a =
      { toLogs := s.call c a
        created := s.created
        sinceClean := s.sinceClean
        passed := Function.update s.passed w.path (s.passed w.path ++ Buffered.lineBytes text)
        active := activeAfter s.active a (.call c)
        calm := s.calm && a.complete } := by
  have given : s.given (.call c) = some (w.path, text) := by simp [Logs.given, isText, shown]
  simp only [Session.step, created_text isText, given]
  rfl

/-- A line passed while no file is open. -/
theorem step_dropped {s : Session} (closed : s.log.writer = none) {c : LogCall} {text : String}
    (isText : callText c = some text) (a : Answers) :
    s.step (.call c) a =
      { s with
        toLogs := s.call c a
        active := activeAfter s.active a (.call c)
        calm := s.calm && a.complete } := by
  have given : s.given (.call c) = none := by simp [Logs.given, closed]
  simp only [Session.step, created_text isText, given]
  rfl

theorem step_refused {s : Session} {action : String} {a : Answers}
    (refused : (s.finish a.finish).newFile action a = none) :
    s.step (.call (.begin action)) a =
      { s with toLogs := s.finish a.finish, active := none, calm := s.calm && a.complete } := by
  have created : s.toLogs.created a (.call (.begin action)) = none := by
    simp [Logs.created, begin_none refused]
  have logs : s.apply a (.call (.begin action)) = s.finish a.finish := by
    change (s.begin action a).1 = _
    rw [begin_none refused]
  simp only [Session.step, created, logs]
  rfl

theorem step_began {s : Session} {action : String} {a : Answers} {path : String}
    (opened : (s.finish a.finish).newFile action a = some path) :
    s.step (.call (.begin action)) a =
      { toLogs := ((s.finish a.finish).open path).writeLine (startText action a) a.line
        created := s.created ++ [path]
        sinceClean := s.sinceClean ++ [path]
        passed := Function.update s.passed path (Buffered.lineBytes (startText action a))
        active := if a.line = .never then some path else none
        calm := a.line = .never } := by
  have created : s.toLogs.created a (.call (.begin action)) =
      some (path, startText action a) := by
    simp [Logs.created, begin_some opened]
  have logs : s.apply a (.call (.begin action)) =
      ((s.finish a.finish).open path).writeLine (startText action a) a.line := by
    change (s.begin action a).1 = _
    rw [begin_some opened]
  simp only [Session.step, created, logs]

theorem Records.begin {start : Disk} {s : Session} (records : Records start s) (action : String)
    (a : Answers) : Records start (s.step (.call (.begin action)) a) := by
  cases opened : (s.finish a.finish).newFile action a with
  | none =>
      rw [step_refused opened]
      exact (records.finish a.finish).closed rfl rfl (finish_writer _ _) rfl rfl rfl rfl
  | some path =>
      rw [step_began opened]
      obtain ⟨free, isLog⟩ := newFile_some opened
      have fresh := (records.finish a.finish).open free isLog
      have line := writeLine_wrote (l := (s.finish a.finish).open path) (w := ⟨path, []⟩) rfl
        (startText action a) a.line
      apply fresh.wrote (w := ⟨path, []⟩)
      · rfl
      · dsimp only
        exact line
      · rfl
      · rfl
      · change Function.update s.passed path (Buffered.lineBytes (startText action a)) =
          Function.update (Function.update s.passed path []) path
            (Function.update s.passed path [] path ++ Buffered.lineBytes (startText action a))
        rw [Function.update_idem, Function.update_self, List.nil_append]
      · intro p begun
        have complete : a.line = .never ∧ path = p := by simpa using begun
        obtain ⟨w', shown', -⟩ := writeLine_complete (l := (s.finish a.finish).open path) rfl
          (startText action a)
        rw [← complete.1] at shown'
        exact ⟨w', shown', (line.writer w' shown').1.trans complete.2⟩
      · intro w' shown' calm clean
        have complete : a.line = .never := by simpa using calm
        obtain ⟨_, _, dirty⟩ := writeLine_complete (l := (s.finish a.finish).open path) rfl
          (startText action a)
        simp only [complete, dirty] at clean
        cases clean

theorem Records.text {start : Disk} {s : Session} (records : Records start s) {c : LogCall}
    {text : String} (isText : callText c = some text) (a : Answers) :
    Records start (s.step (.call c) a) := by
  cases shown : s.log.writer with
  | none =>
      rw [step_dropped shown isText]
      have same := call_none shown isText a
      refine records.closed ?_ ?_ ?_ rfl rfl rfl ?_
      · exact congrArg Logs.disk same
      · exact congrArg (fun l : Logs => l.log.files) same
      · exact (congrArg (fun l : Logs => l.log.writer) same).trans shown
      · rw [records.idle shown]
        exact activeAfter_none a (.call c)
  | some w =>
      rw [step_given shown isText]
      refine records.wrote shown (call_wrote shown isText a) rfl rfl rfl ?_ ?_
      · intro p begun
        obtain ⟨before, complete, goesOn⟩ := activeAfter_text isText begun
        obtain ⟨w', shown', path, -⟩ := call_kept shown isText goesOn complete
        obtain ⟨same, isOpen, isPath⟩ := records.active p before
        rw [shown, Option.some.injEq] at isOpen
        exact ⟨w', shown', path.trans (isOpen ▸ isPath)⟩
      intro w' shown' calm clean
      have complete : a.line = .never := by
        have both : s.calm = true ∧ a.complete = true := by simpa using calm
        have writes : a.line = .never ∧ a.finish.flush = none := by
          simpa [Answers.complete] using both.2
        exact writes.1
      have dirty := call_dirty shown isText complete shown'
      rw [show (s.call c a).log.dirty = false from clean] at dirty
      cases dirty

theorem Records.flush {start : Disk} {s : Session} (records : Records start s) (a : Answers) :
    Records start (s.step .flush a) := by
  cases shown : s.log.writer with
  | none =>
      obtain ⟨disk, writer, files⟩ := flush_none shown a.finish.flush
      exact records.closed disk files writer rfl rfl rfl (records.idle shown)
  | some w =>
      refine records.wrote_nil shown (flush_wrote shown (records.present w shown) a.finish.flush)
        rfl rfl rfl ?_ ?_
      · intro p begun
        obtain ⟨same, isOpen, isPath⟩ := records.active p begun
        rw [shown, Option.some.injEq] at isOpen
        obtain ⟨w', shown', path⟩ := flush_open shown a.finish.flush
        exact ⟨w', shown', path.trans (isOpen ▸ isPath)⟩
      intro w' shown' calm _
      have both : s.calm = true ∧ a.complete = true := by simpa [Session.step, Logs.created] using calm
      have complete : a.finish.flush = none := by
        have writes : a.line = .never ∧ a.finish.flush = none := by
          simpa [Answers.complete] using both.2
        exact writes.2
      change (s.flush a.finish.flush).log.writer = some w' at shown'
      rw [complete] at shown'
      exact flush_complete shown (records.flushed w shown both.1) shown'

theorem Records.clean {start : Disk} {s : Session} (records : Records start s) (a : Answers) :
    Records start (s.step .clean a) := by
  have finished := records.finish a.finish
  refine ⟨?_, records.fresh, rfl, List.nodup_nil, ?_, ?_, ?_, (fun p begun => by cases begun), ?_⟩
  · intro p other
    change (removeEach a.removable (s.finish a.finish).disk (s.finish a.finish).log.files).1 p = _
    rw [removeEach_disk, if_neg]
    · exact finished.untouched p other
    · rintro ⟨member, -⟩
      exact other (finished.listed p member).1
  · intro p member
    cases member
  · intro p member
    cases member
  · intro w shown
    change (s.finish a.finish).log.writer = some w at shown
    rw [finish_writer] at shown
    cases shown
  · intro w shown
    change (s.finish a.finish).log.writer = some w at shown
    rw [finish_writer] at shown
    cases shown

theorem Records.step {start : Disk} {s : Session} (records : Records start s) (op : Op)
    (a : Answers) : Records start (s.step op a) := by
  cases op with
  | call c =>
      cases c with
      | begin action => exact records.begin action a
      | line s => exact records.text rfl a
      | step name state => exact records.text rfl a
      | phase title => exact records.text rfl a
      | done ok msg => exact records.text rfl a
  | flush => exact records.flush a
  | clean => exact records.clean a

section Obeying

variable {start : Disk} {s : Session} (records : Records start s)
include records

end Obeying

/-- Every call succeeds, at the epoch. -/
def smooth : Answers := ⟨⟨none, none⟩, .never, true, 0, fun _ => false, fun _ => true⟩

/-- An action, a line of it and a flush. -/
def halfway : List (Op × Answers) :=
  [(.call (.begin "build"), smooth), (.call (.line "compiling"), smooth), (.flush, smooth)]

/-- Another line, and the end. -/
def finished : List (Op × Answers) :=
  halfway ++ [(.call (.phase "packing"), smooth), (.call (.done true "ok"), smooth)]

end Nixnas.Ui.Logging
