import Nixnas.Tui.Checklist
import Nixnas.Tui.VerifyRun

/-!
# The checklist of a verification

What `run_verify` of `src/tui/src/verify.rs` reports of its five steps.  The
image that a device is compared with is looked at in its own way here, so that
it may be missing, or end before the length it was found to have, while the
target is fine.
-/

set_option autoImplicit false

namespace Nixnas.Tui.Verify

open Nixnas.Logic Nixnas.Logic.Action
open Nixnas.Rust
open Nixnas.Tui.Build (StepState Mark history)
open Nixnas.Tui.Sudo

/-! ## Any way of looking at the image -/

structure ImageFile where
  path : String
  stat : Io VerifyWorld Nat
  «open» : Io VerifyWorld Unit
  readExact : DevReader → Nat → Io VerifyWorld (Bytes × DevReader)

/-- One turn of the comparison. -/
def ImageFile.compareTurn (img : ImageFile) (env : Env) (skip : Option (Nat → Bool)) (common : Nat)
    (st : Comparing) : Step VerifyEvent (Comparing ⊕ Option (Bytes × Bytes)) :=
  if common ≤ st.done then pure (.inr (some (st.devHasher, st.imgHasher)))
  else do
    if ← skipped env skip st.done then pure (.inr none)
    else do
      let want := min chunkSize (common - st.done)
      let (bufDev, file) ← ioContext "reading the device" (st.file.readExact env want)
      let (bufImg, imgFile) ← ioContext "reading the image" (img.readExact st.imgFile want)
      send (.progress (st.done + want) common)
      pure (.inl ⟨file, imgFile, st.devHasher ++ bufDev, st.imgHasher ++ bufImg, st.done + want⟩)

def ImageFile.checkFidelity (img : ImageFile) (env : Env) (lib : Crates) (file : DevReader)
    (targetLen : Nat) (skip : Option (Nat → Bool)) : Step VerifyEvent (List String) := do
  step 4 .running
  let imgLen ← ioContext ("stat " ++ img.path) img.stat
  send (.phase "Flash fidelity — hashing device vs image")
  ioContext ("opening " ++ img.path) img.open
  let file ← ioContext "rewinding the device" (file.seekStart env 0)
  match ← loop (img.compareTurn env skip (min imgLen targetLen))
      ⟨file, .file (.image img.path) 0, [], [], 0⟩ with
  | none => do
      detail "(fidelity compare skipped by operator)"
      step 4 .skipped
      pure (sizeIssues lib targetLen imgLen)
  | some (dev, image) => do
      let devDigest := hex (lib.sha256 dev)
      let imgDigest := hex (lib.sha256 image)
      detail ("device  sha256 " ++ devDigest)
      detail ("image   sha256 " ++ imgDigest)
      step 4 (if devDigest = imgDigest ∧ imgLen ≤ targetLen then .ok else .fail)
      pure (sizeIssues lib targetLen imgLen ++ digestIssues devDigest imgDigest)

/-- The last step. -/
def checkTarget (env : Env) (lib : Crates) (file : DevReader) (targetLen : Nat) (isDevice : Bool)
    (fidelityImage : Option ImageFile) (skip : Option (Nat → Bool)) :
    Step VerifyEvent (List String) := do
  if !isDevice then checkDigest env lib file targetLen
  else
    match fidelityImage with
    | some img => img.checkFidelity env lib file targetLen skip
    | none => do
        detail "(no built image — nothing to compare against)"
        step 4 .skipped
        pure []

/-- `run_verify`. -/
def runVerifyBy (env : Env) (lib : Crates) (target : Node) (isDevice : Bool)
    (fidelityImage : Option ImageFile) (skip : Option (Nat → Bool)) (elev : Elevation) :
    Step VerifyEvent String := do
  let file ← context ("opening " ++ target.path) (openReader env elev target)
  let (targetLen, file) ← ioContext ("sizing " ++ target.path) (file.seekEnd env)
  let ((found, table), file) ← checkTable env lib file
  let (boot, file) ← checkBoot env lib file found.esp
  let (header, file) ← checkHeader env file found.store
  let whole ← checkTarget env lib file targetLen isDevice fidelityImage skip
  let issues := table ++ boot ++ header ++ whole
  if issues.isEmpty then pure (passSummary isDevice)
  else fail (String.intercalate " · " issues)

/-- The worker thread: the run, then its result as the last event. -/
def spawnVerify (env : Env) (lib : Crates) (target : Node) (isDevice : Bool)
    (fidelityImage : Option ImageFile) (skip : Option (Nat → Bool)) (elev : Elevation) :
    Step VerifyEvent Unit := do
  let result ← attempt (runVerifyBy env lib target isDevice fidelityImage skip elev)
  send (.done result)

/-! ## The worker threads of the source are of this kind -/

def ImageFile.ofEnv (env : Env) (path : String) : ImageFile where
  path := path
  stat := ask env fun _ => (env.image path).length
  «open» := ask env fun _ => ()
  readExact reader size := reader.readExact env size

theorem runVerifyBy_ofEnv (env : Env) (lib : Crates) (target : Node) (isDevice : Bool)
    (fidelityImage : Option String) (skip : Option (Nat → Bool)) (elev : Elevation) :
    runVerifyBy env lib target isDevice (fidelityImage.map (.ofEnv env)) skip elev =
      runVerify env lib target isDevice fidelityImage skip elev := by
  cases fidelityImage <;> rfl

theorem spawnVerifyImage_eq (env : Env) (lib : Crates) (image : String) :
    spawnVerifyImage env lib image = spawnVerify env lib (.image image) false none none .root := rfl

theorem spawnVerifyInstall_eq (env : Env) (lib : Crates) (dev : String) (image : Option String)
    (skip : Nat → Bool) (elev : Elevation) :
    spawnVerifyInstall env lib dev image skip elev =
      spawnVerify env lib (.device dev) true (image.map (.ofEnv env)) (some skip) elev := by
  cases image <;> rfl

/-! ## An image that may be missing or cut short -/

structure Reference where
  path : String
  stat : Except IoError Nat
  «open» : Except IoError Unit
  /-- What can be read of it. -/
  bytes : Bytes
  /-- What a read past that meets. -/
  fault : IoError

def Reference.read (ref : Reference) (reader : DevReader) (size : Nat) :
    Except IoError (Bytes × DevReader) :=
  if reader.pos + size ≤ ref.bytes.length then
    .ok ((ref.bytes.drop reader.pos).take size, .file reader.node (reader.pos + size))
  else .error ref.fault

def Reference.file (env : Env) (ref : Reference) : ImageFile where
  path := ref.path
  stat := call env fun _ w => (ref.stat, w)
  «open» := call env fun _ w => (ref.open, w)
  readExact reader size := call env fun _ w => (ref.read reader size, w)

/-! ## What a run reports -/

def VerifyEvent.mark? : VerifyEvent → Option Mark
  | .step i state => some (i, state)
  | _ => none

def marks (events : List VerifyEvent) : List Mark := events.filterMap VerifyEvent.mark?

theorem marks_quiet {events : List VerifyEvent} {event : VerifyEvent} (unmarked : event.mark? = none) :
    marks (events ++ [event]) = marks events := by
  unfold marks
  rw [List.filterMap_append, List.filterMap_cons, unmarked]
  exact List.append_nil _

/-- How many steps there are. -/
def stepCount : Nat := 5

/-- Every step has come to an end, once, and there is an issue exactly when one of
them has failed. -/
structure Complete (marks : List Mark) (passed : Bool) : Prop where
  settled : ∀ i, i < stepCount → (history i marks).getLast?.any StepState.final = true
  once : ∀ i, i < stepCount → ((history i marks).filter StepState.final).length = 1
  verdict : passed = false ↔ ∃ i, i < stepCount ∧ StepState.fail ∈ history i marks

/-- The marks of steps that were given these states, one step after the other. -/
def report (i : Nat) : List (List StepState) → List Mark
  | [] => []
  | states :: rest => states.map (Prod.mk i) ++ report (i + 1) rest

/-- The states of a step that was run and ended, or was skipped. -/
def Closed (states : List StepState) : Prop :=
  ∃ s, s.final = true ∧ (states = [s] ∨ states = [.running, s])

theorem report_append (i : Nat) (first rest : List (List StepState)) :
    report i (first ++ rest) = report i first ++ report (i + first.length) rest := by
  induction first generalizing i with
  | nil => rfl
  | cons states others ih =>
      have shifted : i + 1 + others.length = i + (states :: others).length := by
        rw [List.length_cons]
        omega
      rw [List.cons_append, report, report, ih, List.append_assoc, shifted]

/-- A step is given its own states only. -/
theorem history_report (i : Nat) (states : List (List StepState)) : ∀ k,
    history (i + k) (report i states) = states.getD k [] := by
  induction states generalizing i with
  | nil => exact fun k => rfl
  | cons first rest ih =>
      intro k
      have others : ∀ {k} (states : List (List StepState)) {j}, k < j →
          history k (report j states) = [] := by
        intro k states
        induction states with
        | nil => exact fun _ => rfl
        | cons head tail ih =>
            intro j before
            rw [report, Build.history_append, Build.history_other (by omega), ih (by omega)]
            rfl
      rw [report, Build.history_append]
      cases k with
      | zero =>
          rw [Nat.add_zero, Build.history_same, others rest (by omega), List.append_nil]
          rfl
      | succ k =>
          have shifted : i + (k + 1) = i + 1 + k := by omega
          rw [Build.history_other (by omega), List.nil_append, shifted, ih]
          rfl

theorem Closed.settled {states : List StepState} (closed : Closed states) :
    states.getLast?.any StepState.final = true ∧ (states.filter StepState.final).length = 1 := by
  obtain ⟨s, final, rfl | rfl⟩ := closed
  · simp [final]
  · have running : StepState.final .running = false := rfl
    simp [final, running]

/-- A report of five closed steps is complete when its verdict is right. -/
theorem complete_report {states : List (List StepState)} {passed : Bool}
    (count : states.length = stepCount) (closed : ∀ s ∈ states, Closed s) :
    Complete (report 0 states) passed ↔
      (passed = false ↔ ∃ s ∈ states, StepState.fail ∈ s) := by
  have own (i : Nat) (below : i < stepCount) :
      ∃ s ∈ states, history i (report 0 states) = s := by
    have inside : i < states.length := by omega
    refine ⟨states[i], List.getElem_mem inside, ?_⟩
    have read := history_report 0 states i
    rw [Nat.zero_add] at read
    rw [read, List.getD_eq_getElem?_getD, List.getElem?_eq_getElem inside]
    rfl
  have failed : (∃ i, i < stepCount ∧ StepState.fail ∈ history i (report 0 states)) ↔
      ∃ s ∈ states, StepState.fail ∈ s := by
    constructor
    · intro found
      obtain ⟨i, below, isFail⟩ := found
      obtain ⟨s, member, same⟩ := own i below
      rw [same] at isFail
      exact ⟨s, member, isFail⟩
    · intro found
      obtain ⟨s, member, isFail⟩ := found
      obtain ⟨i, inside, rfl⟩ := List.mem_iff_getElem.mp member
      refine ⟨i, by omega, ?_⟩
      have read := history_report 0 states i
      rw [Nat.zero_add] at read
      rw [read, List.getD_eq_getElem?_getD, List.getElem?_eq_getElem inside]
      exact isFail
  constructor
  · intro complete
    exact complete.verdict.trans failed
  · intro right
    refine ⟨?_, ?_, right.trans failed.symm⟩
    · intro i below
      obtain ⟨s, member, same⟩ := own i below
      rw [same]
      exact (closed s member).settled.1
    · intro i below
      obtain ⟨s, member, same⟩ := own i below
      rw [same]
      exact (closed s member).settled.2

/-- A step that was left running is not settled. -/
theorem not_complete_running {marks : List Mark} {passed : Bool} {i : Nat} (below : i < stepCount)
    (left : history i marks = [.running]) : ¬ Complete marks passed := by
  intro complete
  have settled := complete.settled i below
  rw [left] at settled
  cases settled

/-! ## The target and the reports on it -/

section Steps

variable {env : Env} {lib : Crates} {content : Bytes} {file : DevReader} {node : Node} {α : Type}
  {ms : List Mark}

/-- The target is as it was, and these marks were sent. -/
def Held (env : Env) (content : Bytes) (node : Node) (ms : List Mark) (w : VerifyWorld) : Prop :=
  w.content env node = content ∧ marks w.events = ms

/-- The devices, and the marks that were sent. -/
def told (w : VerifyWorld) : (String → Bytes) × List Mark := (w.devices, marks w.events)

/-- An operation on the target that marks nothing. -/
theorem held_kept {Error : Type} {action : Action VerifyWorld Error α} (keeps : Preserves told action) :
    Spec (Held env content node ms) action
      (.onReturn (fun _ => Held env content node ms) fun _ => Held env content node ms) := by
  cases node with
  | device path =>
      exact (keeps.always fun part => part.1 path = content ∧ part.2 = ms).weaken
        (fun _ held => held) (fun _ _ held => held) (fun _ _ held => held) fun _ _ => trivial
  | image path =>
      exact (keeps.always fun part => env.image path = content ∧ part.2 = ms).weaken
        (fun _ held => held) (fun _ _ held => held) (fun _ _ held => held) fun _ _ => trivial

theorem Ends.held {Error : Type} {action : Action VerifyWorld Error α} {ok : α → VerifyWorld → Prop}
    (ends : Ends (fun w => w.content env node = content) action ok) (keeps : Preserves told action) :
    Ends (Held env content node ms) action fun value w => ok value w ∧ Held env content node ms w := by
  have apart : Ends (Held env content node ms) action ok :=
    ends.weaken (fun _ held => held.1) fun _ _ met => met
  exact apart.with_spec (held_kept keeps)

/-- An operation that cannot fail here, and what comes after it. -/
theorem Ends.tried {Error β : Type} {f : Error → String} {action : Action VerifyWorld Error β}
    {known : β → VerifyWorld → Prop} {met : β → Prop} {rest : β → Step VerifyEvent α}
    {post : Post VerifyWorld String α}
    (ends : Ends (fun w => w.content env node = content) action known)
    (spec : Spec (fun w => w.content env node = content) action
      (.onReturn (fun value w => met value ∧ w.content env node = content) fun _ _ => True))
    (keeps : Preserves told action)
    (finishes : ∀ value, met value → Finishes (Held env content node ms) (rest value) post) :
    Finishes (Held env content node ms) (mapError f action >>= rest) post := by
  have kept : Ends (Held env content node ms) action _ := Ends.held (ends.with_spec spec) keeps
  apply Finishes.bind _ (Ends.finishes (Ends.mapError kept))
  intro value w both
  obtain ⟨⟨-, isMet, -⟩, held⟩ := both
  exact finishes value isMet w held

/-- A step that is marked before the rest. -/
theorem mark_finishes {i : Nat} {s : StepState} {rest : Step VerifyEvent α}
    {post : Post VerifyWorld String α}
    (finishes : Finishes (Held env content node (ms ++ [(i, s)])) rest post) :
    Finishes (Held env content node ms) (step i s >>= fun _ => rest) post := by
  apply Finishes.bind _ _ fun _ => finishes
  apply Finishes.modify
  intro w held
  refine ⟨held.1, ?_⟩
  change (w.events ++ [VerifyEvent.step i s]).filterMap VerifyEvent.mark? = _
  rw [List.filterMap_append]
  exact congrArg (· ++ [(i, s)]) held.2

/-- An event that marks no step. -/
theorem Held.quiet {event : VerifyEvent} {w : VerifyWorld} (held : Held env content node ms w)
    (unmarked : event.mark? = none) :
    Held env content node ms { w with events := w.events ++ [event] } :=
  ⟨held.1, (marks_quiet unmarked).trans held.2⟩

theorem quiet_finishes {event : VerifyEvent} {rest : Step VerifyEvent α}
    {post : Post VerifyWorld String α} (unmarked : event.mark? = none)
    (finishes : Finishes (Held env content node ms) rest post) :
    Finishes (Held env content node ms) (send event >>= fun _ => rest) post := by
  apply Finishes.bind _ _ fun _ => finishes
  apply Finishes.modify
  exact fun _ held => held.quiet unmarked

/-- What a crate makes of the target when nothing fails. -/
theorem lend_held {β : Type} (reliable : env.Reliable) (sound : file.Sound content)
    (exact : file.Exact env content) (parse : Bytes → Except String β) :
    Ends (Held env content file.node ms) (file.lend env parse)
      fun result w => (file.Follows env content result.2 ∧ result.1 = parse content) ∧
        Held env content file.node ms w := by
  have heard : Ends (fun w : VerifyWorld => w.content env file.node = content) (file.lend env parse)
      fun result _ => file.Follows env content result.2 ∧ result.1 = parse content :=
    ((DevReader.lend_ends reliable file parse).with_spec (lend_heard sound parse)).weaken
      (fun _ held => held) fun _ _ met => ⟨met.2.1.1, (met.2.1.2 exact).calm reliable⟩
  exact Ends.held heard ((file.lend_still env parse).comp told)

/-! ### The table -/

/-- What the table check finds. -/
def tabled (lib : Crates) (content : Bytes) : Located × List String :=
  match lib.gpt content with
  | .ok partitions =>
      let used := partitions.filter Partition.used
      (noted used ⟨none, none⟩, tableIssues used (noted used ⟨none, none⟩))
  | .error e => (⟨none, none⟩, ["GPT unreadable: " ++ e])

/-- Every used partition has a byte range. -/
def TableRanged (lib : Crates) (content : Bytes) : Prop :=
  ∀ partitions, lib.gpt content = .ok partitions → Ranged (partitions.filter Partition.used)

theorem ranged_cons {p : Partition} {rest : List Partition} {range : Nat × Nat}
    (known : p.range = some range) : Ranged (p :: rest) ↔ Ranged rest := by
  constructor
  · exact fun ranged q member => ranged q (List.mem_cons_of_mem p member)
  · intro ranged q member
    rcases List.mem_cons.mp member with rfl | member
    · rw [known]
      exact Option.some_ne_none range
    · exact ranged q member

theorem noteRows_finishes (used : List Partition) : ∀ found : Located,
    Finishes (Held env content node ms) (noteRows lib used found)
      (.onReturn
        (fun result w => (Ranged used ∧ result = noted used found) ∧ Held env content node ms w)
        fun _ w => ¬ Ranged used ∧ Held env content node ms w) := by
  induction used with
  | nil =>
      intro found
      apply Finishes.pure
      intro w held
      exact ⟨⟨fun p member => absurd member List.not_mem_nil, rfl⟩, held⟩
  | cons p rest ih =>
      intro found
      have outside (unknown : p.range = none) : ¬ Ranged (p :: rest) :=
        fun ranged => ranged p List.mem_cons_self unknown
      unfold noteRows
      cases start : p.bytesStart with
      | error e =>
          apply Finishes.bind (fun _ _ => False)
          · exact Finishes.fail fun w held => ⟨outside (by rw [Partition.range, start]), held⟩
          · exact fun _ _ never => never.elim
      | ok first =>
          apply Finishes.bind (fun value w => value = first ∧ Held env content node ms w)
          · exact Finishes.pure fun _ held => ⟨rfl, held⟩
          intro value
          apply Finishes.assume
          intro isFirst
          subst isFirst
          cases length : p.bytesLen with
          | error e =>
              apply Finishes.bind (fun _ _ => False)
              · exact Finishes.fail fun w held => ⟨outside (by rw [Partition.range, start, length]), held⟩
              · exact fun _ _ never => never.elim
          | ok len =>
              apply Finishes.bind (fun value w => value = len ∧ Held env content node ms w)
              · exact Finishes.pure fun _ held => ⟨rfl, held⟩
              intro value'
              apply Finishes.assume
              intro isLen
              subst isLen
              have known : p.range = some (value, value') := by rw [Partition.range, start, length]
              apply quiet_finishes rfl
              refine (ih _).weaken (fun _ held => held) ?_ ?_
              · intro result w met
                obtain ⟨⟨ranged, same⟩, held⟩ := met
                refine ⟨⟨(ranged_cons known).mpr ranged, ?_⟩, held⟩
                rw [same, noted, known]
                rfl
              · intro e w met
                exact ⟨fun ranged => met.1 ((ranged_cons known).mp ranged), met.2⟩

/-- A check of one step, which the step stays running after when the check fails. -/
def afterCheck (env : Env) (content : Bytes) (node : Node) (ms : List Mark) (i : Nat) (able : Prop)
    (found : α → Prop) (states : α → List (List StepState)) : Post VerifyWorld String α :=
  .onReturn
    (fun result w => (able ∧ found result) ∧ Held env content node (ms ++ report i (states result)) w)
    fun _ w => ¬ able ∧ marks w.events = ms ++ [(i, .running)]

theorem checkTable_finishes (reliable : env.Reliable) (sound : file.Sound content)
    (exact : file.Exact env content) :
    Finishes (Held env content file.node ms) (checkTable env lib file)
      (afterCheck env content file.node ms 0 (TableRanged lib content)
        (fun result => file.Follows env content result.2 ∧ result.1 = tabled lib content)
        fun result => [[.running, ending result.1.2]]) := by
  unfold checkTable
  apply mark_finishes
  apply Finishes.bind _ (Ends.finishes (lend_held reliable sound exact lib.gpt))
  intro result
  obtain ⟨disk, next⟩ := result
  apply Finishes.assume
  intro heard
  obtain ⟨follows, (isDisk : disk = lib.gpt content)⟩ := heard
  subst isDisk
  dsimp only
  cases read : lib.gpt content with
  | error e =>
      apply quiet_finishes rfl
      apply mark_finishes
      apply Finishes.pure
      intro w held
      refine ⟨⟨?_, follows, ?_⟩, ?_⟩
      · intro partitions impossible
        rw [read] at impossible
        cases impossible
      · rw [tabled, read]
      · rw [List.append_assoc] at held
        exact held
  | ok partitions =>
      have able : TableRanged lib content ↔ Ranged (partitions.filter Partition.used) := by
        refine ⟨fun ranged => ranged partitions read, fun ranged others same => ?_⟩
        rw [read] at same
        cases same
        exact ranged
      apply Finishes.bind _
      · refine (noteRows_finishes (partitions.filter Partition.used) ⟨none, none⟩).imp_error ?_
        intro e w met
        exact ⟨fun ranged => met.1 (able.mp ranged), met.2.2⟩
      intro found
      apply Finishes.assume
      intro noting
      obtain ⟨ranged, rfl⟩ := noting
      apply mark_finishes
      apply Finishes.pure
      intro w held
      refine ⟨⟨able.mpr ranged, follows, ?_⟩, ?_⟩
      · rw [tabled, read]
      · rw [List.append_assoc] at held
        exact held

/-! ### The boot files -/

/-- The issues of the boot files, and what their two steps are given. -/
def booted (lib : Crates) (content : Bytes) : Option (Nat × Nat) → List String × List (List StepState)
  | none => ([], [[.skipped], [.skipped]])
  | some range =>
      match lib.fat (window range content) with
      | .ok fs => (loaderIssues fs ++ ukiIssues fs,
          [[.running, ending (loaderIssues fs)], [.running, ending (ukiIssues fs)]])
      | .error e => (["ESP not mountable as FAT: " ++ e], [[.running, .fail], [.skipped]])

theorem checkLoader_finishes {post : Post VerifyWorld String α} {fs : FatVolume}
    {rest : List String → Step VerifyEvent α}
    (finishes : Finishes (Held env content node (ms ++ [(1, ending (loaderIssues fs))]))
      (rest (loaderIssues fs)) post) :
    Finishes (Held env content node ms) (checkLoader lib fs >>= rest) post := by
  apply Finishes.bind fun issues w => issues = loaderIssues fs ∧
    Held env content node (ms ++ [(1, ending (loaderIssues fs))]) w
  · apply quiet_finishes rfl
    apply quiet_finishes rfl
    apply mark_finishes
    exact Finishes.pure fun _ held => ⟨rfl, held⟩
  · intro issues
    apply Finishes.assume
    intro same
    rw [same]
    exact finishes

theorem checkUkis_finishes {post : Post VerifyWorld String α} {fs : FatVolume}
    {rest : List String → Step VerifyEvent α}
    (finishes : Finishes
      (Held env content node (ms ++ [(2, .running)] ++ [(2, ending (ukiIssues fs))]))
      (rest (ukiIssues fs)) post) :
    Finishes (Held env content node ms) (checkUkis lib fs >>= rest) post := by
  apply Finishes.bind fun issues w => issues = ukiIssues fs ∧
    Held env content node (ms ++ [(2, .running)] ++ [(2, ending (ukiIssues fs))]) w
  · apply mark_finishes
    apply Finishes.bind fun _ => Held env content node (ms ++ [(2, .running)])
    · apply Ends.finishes
      apply Ends.forM
      intro uki
      exact Ends.modify fun _ held => held.quiet rfl
    intro _
    apply mark_finishes
    exact Finishes.pure fun _ held => ⟨rfl, held⟩
  · intro issues
    apply Finishes.assume
    intro same
    rw [same]
    exact finishes

theorem checkBoot_finishes (reliable : env.Reliable) (sound : file.Sound content)
    (exact : file.Exact env content) (esp : Option (Nat × Nat)) :
    Finishes (Held env content file.node ms) (checkBoot env lib file esp)
      (afterCheck env content file.node ms 1 True
        (fun result => file.Follows env content result.2 ∧ result.1 = (booted lib content esp).1)
        fun _ => (booted lib content esp).2) := by
  cases esp with
  | none =>
      apply mark_finishes
      apply mark_finishes
      apply Finishes.pure
      intro w held
      rw [List.append_assoc] at held
      exact ⟨⟨trivial, ⟨rfl, sound, fun same => same⟩, rfl⟩, held⟩
  | some range =>
      apply mark_finishes
      apply Finishes.bind _
        (Ends.finishes (lend_held reliable sound exact fun medium => lib.fat (window range medium)))
      intro result
      obtain ⟨mounted, next⟩ := result
      apply Finishes.assume
      intro heard
      obtain ⟨follows, (isMounted : mounted = lib.fat (window range content))⟩ := heard
      subst isMounted
      dsimp only
      cases mounts : lib.fat (window range content) with
      | error e =>
          have states : booted lib content (some range) =
              (["ESP not mountable as FAT: " ++ e], [[.running, .fail], [.skipped]]) := by
            rw [booted, mounts]
          apply mark_finishes
          apply mark_finishes
          apply Finishes.pure
          intro w held
          rw [states]
          rw [List.append_assoc, List.append_assoc] at held
          exact ⟨⟨trivial, follows, rfl⟩, held⟩
      | ok fs =>
          have states : booted lib content (some range) = (loaderIssues fs ++ ukiIssues fs,
              [[.running, ending (loaderIssues fs)], [.running, ending (ukiIssues fs)]]) := by
            rw [booted, mounts]
          apply checkLoader_finishes
          apply checkUkis_finishes
          apply Finishes.pure
          intro w held
          rw [states]
          simp only [List.append_assoc] at held
          exact ⟨⟨trivial, follows, rfl⟩, held⟩

/-! ### The header -/

/-- The issues of the header, and what its step is given. -/
def headed (content : Bytes) : Option (Nat × Nat) → List String × List StepState
  | none => ([], [.skipped])
  | some range => (headerIssues (window (range.1, 8) content),
      [.running, ending (headerIssues (window (range.1, 8) content))])

/-- The store starts with a whole header. -/
def HeaderInside (content : Bytes) (store : Option (Nat × Nat)) : Prop :=
  ∀ range, store = some range → range.1 + 8 ≤ content.length

theorem seekStart_finishes (reliable : env.Reliable) (sound : file.Sound content) (pos : Nat)
    (what : String) {post : Post VerifyWorld String α} {rest : DevReader → Step VerifyEvent α}
    (finishes : ∀ next, file.Follows env content next → next.pos = pos →
      Finishes (Held env content file.node ms) (rest next) post) :
    Finishes (Held env content file.node ms)
      (ioContext what (file.seekStart env pos) >>= rest) post := by
  apply Ends.tried (DevReader.seekStart_ends reliable file pos) (seekStart_held sound pos)
    ((file.seekStart_still env pos).comp told)
  intro next sought
  exact finishes next sought.1 sought.2

theorem readExact_held_finishes (reliable : env.Reliable) (sound : file.Sound content)
    (exact : file.Exact env content) (size : Nat) :
    Finishes (Held env content file.node ms) (file.readExact env size)
      (.onReturn
        (fun result w => file.Reads env content size result.1 result.2 ∧
          Held env content file.node ms w)
        fun _ w => content.length < file.pos + size ∧ Held env content file.node ms w) := by
  have reads : Finishes (fun w : VerifyWorld => w.content env file.node = content)
      (file.readExact env size) _ := DevReader.readExact_finishes reliable sound exact
  have kept : Spec (Held env content file.node ms) (file.readExact env size) _ :=
    held_kept ((file.readExact_still env size).comp told)
  exact (reads.with_spec kept).weaken (fun _ held => ⟨held.1, held⟩) (fun _ _ met => met)
    fun _ _ met => met

theorem checkHeader_finishes (reliable : env.Reliable) (sound : file.Sound content)
    (exact : file.Exact env content) (store : Option (Nat × Nat)) :
    Finishes (Held env content file.node ms) (checkHeader env file store)
      (afterCheck env content file.node ms 3 (HeaderInside content store)
        (fun result => file.Follows env content result.2 ∧ result.1 = (headed content store).1)
        fun _ => [(headed content store).2]) := by
  cases store with
  | none =>
      apply mark_finishes
      apply Finishes.pure
      intro w held
      refine ⟨⟨fun range impossible => ?_, ⟨rfl, sound, fun same => same⟩, rfl⟩, held⟩
      cases impossible
  | some range =>
      apply mark_finishes
      apply seekStart_finishes reliable sound range.1
      intro next follows start
      rw [← follows.node]
      apply Finishes.bind _
      · apply Finishes.mapError
        refine (readExact_held_finishes reliable follows.sound (follows.exact exact) 8).imp_error ?_
        intro e w met
        obtain ⟨(outside : content.length < next.pos + 8), held⟩ := met
        refine ⟨fun inside => ?_, held.2⟩
        have fits := inside range rfl
        omega
      intro result
      obtain ⟨hdr, last⟩ := result
      apply Finishes.assume
      intro read
      have isWindow : hdr = window (range.1, 8) content := by
        have bytes := read.bytes
        rw [start] at bytes
        exact bytes
      have inside : range.1 + 8 ≤ content.length := by
        have length := congrArg List.length isWindow
        rw [window, List.length_take, List.length_drop, read.length] at length
        omega
      apply quiet_finishes rfl
      apply quiet_finishes rfl
      apply mark_finishes
      apply Finishes.pure
      intro w held
      refine ⟨⟨?_, follows.trans read.follows, ?_⟩, ?_⟩
      · intro other same
        cases same
        exact inside
      · rw [isWindow]
        rfl
      · rw [isWindow, List.append_assoc] at held
        exact held

/-! ### The digest of an image -/

theorem sha256Range_told (len : Nat) :
    Preserves told (sha256Range env lib file len none : Step VerifyEvent (Option String)) := by
  apply Preserves.bind (Preserves.mapError ((file.seekStart_still env 0).comp told))
  intro src
  apply Preserves.loop
  intro state
  obtain ⟨src, hasher, done⟩ := state
  apply Preserves.ite (Preserves.pure _)
  apply Preserves.bind
  · apply call_preserves
    · exact fun _ => rfl
    · exact fun _ _ => rfl
  intro skip
  apply Preserves.ite (Preserves.pure _)
  apply Preserves.bind (Preserves.mapError ((src.readExact_still env _).comp told))
  intro result
  apply Preserves.bind
  · apply Preserves.modify
    exact fun w => congrArg (Prod.mk w.devices) (marks_quiet rfl)
  · exact fun _ => Preserves.pure _

theorem checkDigest_finishes (reliable : env.Reliable) (sound : file.Sound content)
    (exact : file.Exact env content) :
    Finishes (Held env content file.node ms) (checkDigest env lib file content.length)
      (.onReturn
        (fun issues w => issues = [] ∧
          Held env content file.node (ms ++ report 4 [[.running, .ok]]) w)
        fun _ _ => False) := by
  apply mark_finishes
  apply quiet_finishes rfl
  have hashed : Ends (Held env content file.node (ms ++ [(4, .running)]))
      (sha256Range env lib file content.length none)
      fun digest w => digest.isSome = true ∧ Held env content file.node (ms ++ [(4, .running)]) w :=
    (Ends.held (sha256Range_ends reliable sound exact) (sha256Range_told content.length)).weaken
      (fun _ held => held) fun _ _ met => ⟨met.1.1, met.2⟩
  apply Finishes.bind _ (Ends.finishes hashed)
  intro digest
  apply Finishes.assume
  intro present
  obtain ⟨text, rfl⟩ := Option.isSome_iff_exists.mp present
  apply quiet_finishes rfl
  apply mark_finishes
  apply Finishes.pure
  intro w held
  rw [List.append_assoc] at held
  exact ⟨rfl, held⟩

/-! ### The comparison with the image -/

/-- The flag is not set at any look up to that before chunk `k`. -/
def Unseen (skip : Option (Nat → Bool)) (k : Nat) : Prop :=
  ∀ flag j, skip = some flag → j ≤ k → flag (j * chunkSize) = false

/-- Every chunk that the comparison comes to can be read from the image. -/
def Reference.Covers (ref : Reference) (skip : Option (Nat → Bool)) (common : Nat) : Prop :=
  ∀ k, k * chunkSize < common → Unseen skip k → min ((k + 1) * chunkSize) common ≤ ref.bytes.length

/-- How far the comparison with the reference has got. -/
structure Tracked (env : Env) (content : Bytes) (file : DevReader) (ref : Reference)
    (skip : Option (Nat → Bool)) (common : Nat) (st : Comparing) : Prop where
  follows : file.Follows env content st.file
  pos : st.file.pos = st.done
  image : st.imgFile = .file (.image ref.path) st.done
  chunked : Chunked skip common st.done
  covered : st.done ≤ ref.bytes.length

variable {ref : Reference} {skip : Option (Nat → Bool)} {common : Nat}

theorem Tracked.full {st : Comparing} (tracked : Tracked env content file ref skip common st)
    (full : common ≤ st.done) : ref.Covers skip common := by
  intro k _ _
  have covered := tracked.covered
  omega

/-- The chunks before a look that finds the flag were read. -/
theorem Tracked.covers_seen {st : Comparing} (tracked : Tracked env content file ref skip common st)
    (more : st.done < common) (set : (skip.any fun flag => flag st.done) = true) :
    ref.Covers skip common := by
  obtain ⟨here, atHere⟩ := tracked.chunked.chunks more
  obtain ⟨flag, isFlag, set⟩ := (Option.any_eq_true _ _).mp set
  intro k _ unseen
  have before : k < here := by
    apply Nat.lt_of_not_le
    intro passed
    rw [atHere, unseen flag here isFlag passed] at set
    cases set
  have read : (k + 1) * chunkSize ≤ here * chunkSize := Nat.mul_le_mul_right chunkSize before
  have covered := tracked.covered
  omega

/-- A chunk that is not there was come to. -/
theorem Tracked.uncovered {st : Comparing} (tracked : Tracked env content file ref skip common st)
    (more : st.done < common) (unset : ∀ flag, skip = some flag → flag st.done = false)
    (short : ref.bytes.length < st.done + min chunkSize (common - st.done)) :
    ¬ ref.Covers skip common := by
  intro covers
  obtain ⟨here, atHere⟩ := tracked.chunked.chunks more
  have unseen : Unseen skip here := by
    intro flag j isFlag upTo
    rcases Nat.lt_or_eq_of_le upTo with before | rfl
    · apply tracked.chunked.unseen flag j isFlag
      rw [atHere]
      exact Nat.mul_lt_mul_of_pos_right before (by decide)
    · rw [← atHere]
      exact unset flag isFlag
  have read := covers here (by omega) unseen
  rw [Nat.succ_mul, ← atHere] at read
  omega

theorem Tracked.next {st : Comparing} (tracked : Tracked env content file ref skip common st)
    (more : st.done < common) (unset : ∀ flag, skip = some flag → flag st.done = false)
    {bufDev bufImg : Bytes} {src : DevReader}
    (read : st.file.Reads env content (min chunkSize (common - st.done)) bufDev src)
    (inside : st.done + min chunkSize (common - st.done) ≤ ref.bytes.length) :
    Tracked env content file ref skip common
      ⟨src, .file (.image ref.path) (st.done + min chunkSize (common - st.done)),
        st.devHasher ++ bufDev, st.imgHasher ++ bufImg,
        st.done + min chunkSize (common - st.done)⟩ where
  follows := tracked.follows.trans read.follows
  pos := by rw [read.pos, tracked.pos]
  image := rfl
  chunked := tracked.chunked.next more unset
  covered := inside

/-- What the state of the comparison is told to keep. -/
def tracking (env : Env) (content : Bytes) (file : DevReader) (ref : Reference)
    (skip : Option (Nat → Bool)) (common : Nat) (ms : List Mark) (st : Comparing) (w : VerifyWorld) :
    Prop :=
  Tracked env content file ref skip common st ∧ Held env content file.node ms w

/-- The comparison ends unless it comes to a chunk that is not there. -/
def afterCompare (env : Env) (content : Bytes) (node : Node) (ref : Reference)
    (skip : Option (Nat → Bool)) (common : Nat) (ms : List Mark) :
    Post VerifyWorld String (Option (Bytes × Bytes)) :=
  .onReturn
    (fun hashed w => (ref.Covers skip common ∧ (hashed = none ↔ Seen skip common)) ∧
      Held env content node ms w)
    fun _ w => ¬ ref.Covers skip common ∧ Held env content node ms w

theorem Reference.readExact_finishes (image : Node) (pos size : Nat) :
    Finishes (Held env content node ms) ((ref.file env).readExact (.file image pos) size)
      (.onReturn
        (fun result w => (result.2 = .file image (pos + size) ∧ pos + size ≤ ref.bytes.length) ∧
          Held env content node ms w)
        fun _ w => ref.bytes.length < pos + size ∧ Held env content node ms w) := by
  change Finishes _ (call env fun _ w => (ref.read (.file image pos) size, w)) _
  apply call_finishes
  intro w held
  by_cases covered : pos + size ≤ ref.bytes.length
  · have read : ref.read (.file image pos) size = .ok _ := if_pos covered
    rw [read]
    exact ⟨⟨rfl, covered⟩, held⟩
  · have read : ref.read (.file image pos) size = .error _ := if_neg covered
    rw [read]
    exact ⟨Nat.lt_of_not_le covered, held⟩

theorem referenceTurn_finishes (reliable : env.Reliable) (exact : file.Exact env content)
    (inside : common ≤ content.length) (st : Comparing) :
    Finishes (tracking env content file ref skip common ms st)
      ((ref.file env).compareTurn env skip common st)
      (Post.ofTurn (tracking env content file ref skip common ms) (fun st => common - st.done)
        (common - st.done) (afterCompare env content file.node ref skip common ms)) := by
  refine Finishes.assume fun tracked => ?_
  by_cases full : common ≤ st.done
  · simp only [ImageFile.compareTurn, if_pos full]
    apply Finishes.pure
    intro w held
    refine ⟨⟨tracked.full full, ?_⟩, held⟩
    constructor
    · intro impossible
      cases impossible
    · exact fun seen => absurd seen (tracked.chunked.full full)
  · simp only [ImageFile.compareTurn, if_neg full]
    have more : st.done < common := by omega
    apply Finishes.bind fun result w => (skip.any fun flag => flag st.done) = result ∧
      Held env content file.node ms w
    · apply call_finishes
      exact fun _ held => ⟨rfl, held⟩
    intro set
    apply Finishes.assume
    intro looked
    cases set with
    | true =>
        simp only [if_true]
        apply Finishes.pure
        intro w held
        refine ⟨⟨tracked.covers_seen more looked, ?_⟩, held⟩
        exact ⟨fun _ => tracked.chunked.seen more looked, fun _ => rfl⟩
    | false =>
        simp only [Bool.false_eq_true, if_false]
        have unset : ∀ flag, skip = some flag → flag st.done = false := by
          intro flag isFlag
          rw [isFlag] at looked
          exact looked
        have pos := tracked.pos
        have node := tracked.follows.node
        apply Finishes.bind fun result w =>
          st.file.Reads env content (min chunkSize (common - st.done)) result.1 result.2 ∧
            Held env content file.node ms w
        · apply Finishes.mapError
          rw [← node]
          refine (readExact_held_finishes reliable tracked.follows.sound (tracked.follows.exact exact)
            _).imp_error ?_
          intro e w met
          obtain ⟨(outside : content.length < st.file.pos + min chunkSize (common - st.done)), -⟩ := met
          omega
        intro result
        obtain ⟨bufDev, src⟩ := result
        apply Finishes.assume
        intro readDev
        apply Finishes.bind fun result w =>
          (result.2 = .file (.image ref.path) (st.done + min chunkSize (common - st.done)) ∧
            st.done + min chunkSize (common - st.done) ≤ ref.bytes.length) ∧
            Held env content file.node ms w
        · apply Finishes.mapError
          rw [tracked.image]
          refine (ref.readExact_finishes (.image ref.path) st.done _).imp_error ?_
          exact fun _ _ met => ⟨tracked.uncovered more unset met.1, met.2⟩
        intro result
        obtain ⟨bufImg, imgFile⟩ := result
        apply Finishes.assume
        intro read
        obtain ⟨(next : imgFile = _), covered⟩ := read
        subst next
        apply quiet_finishes rfl
        apply Finishes.pure
        intro w held
        refine ⟨⟨tracked.next more unset readDev covered, held⟩, ?_⟩
        have positive : 0 < chunkSize := by decide
        change common - (st.done + min chunkSize (common - st.done)) < common - st.done
        omega

theorem compareReference_finishes (reliable : env.Reliable) (exact : file.Exact env content)
    (inside : common ≤ content.length) {src : DevReader} (follows : file.Follows env content src)
    (start : src.pos = 0) :
    Finishes (Held env content file.node ms)
      (loop ((ref.file env).compareTurn env skip common) ⟨src, .file (.image ref.path) 0, [], [], 0⟩)
      (afterCompare env content file.node ref skip common ms) := by
  intro w held
  have tracked : Tracked env content file ref skip common
      ⟨src, .file (.image ref.path) 0, [], [], 0⟩ :=
    ⟨follows, start, rfl, Chunked.start skip common, Nat.zero_le _⟩
  exact Finishes.loop (tracking env content file ref skip common ms) (fun st => common - st.done)
    (referenceTurn_finishes reliable exact inside) _ w ⟨tracked, held⟩

end Steps

end Nixnas.Tui.Verify
