import Nixnas.Tui.VerifySteps

/-!
# When a verification reports all its checks

The report of a whole run of `run_verify`: a check that leaves it through `?`
leaves its step running, and a comparison that is skipped keeps the size of the
device to itself.  In all other runs every step ends, once, and the verdict is a
list of issues exactly when one of them has failed.
-/

set_option autoImplicit false

namespace Nixnas.Tui.Verify

open Nixnas.Logic Nixnas.Logic.Action
open Nixnas.Rust
open Nixnas.Tui.Build (StepState Mark history)
open Nixnas.Tui.Sudo

section Report

variable {env : Env} {lib : Crates} {content : Bytes} {file : DevReader} {node : Node}
  {ms : List Mark} {ref : Reference} {skip : Option (Nat → Bool)}

/-! ## The comparison with the image -/

/-- The image can be compared with, as far as the comparison goes. -/
def Reference.Comparable (ref : Reference) (skip : Option (Nat → Bool)) (targetLen : Nat) : Prop :=
  ∃ len, ref.stat = .ok len ∧ ref.open = .ok () ∧ ref.Covers skip (min len targetLen)

/-- The comparison of a target with an image that is larger is skipped. -/
def Reference.Waived (ref : Reference) (skip : Option (Nat → Bool)) (targetLen : Nat) : Prop :=
  ∃ len, ref.stat = .ok len ∧ targetLen < len ∧ Seen skip targetLen

theorem Reference.comparable_iff {len targetLen : Nat} (stat : ref.stat = .ok len) :
    ref.Comparable skip targetLen ↔ ref.open = .ok () ∧ ref.Covers skip (min len targetLen) := by
  constructor
  · intro comparable
    obtain ⟨other, found, rest⟩ := comparable
    rw [stat] at found
    cases found
    exact rest
  · exact fun rest => ⟨len, stat, rest⟩

theorem Reference.waived_iff {len targetLen : Nat} (stat : ref.stat = .ok len) :
    ref.Waived skip targetLen ↔ targetLen < len ∧ Seen skip (min len targetLen) := by
  have met (smaller : targetLen < len) : min len targetLen = targetLen :=
    Nat.min_eq_right (Nat.le_of_lt smaller)
  constructor
  · intro waived
    obtain ⟨other, found, smaller, seen⟩ := waived
    rw [stat] at found
    cases found
    exact ⟨smaller, (met smaller).symm ▸ seen⟩
  · intro both
    obtain ⟨smaller, seen⟩ := both
    exact ⟨len, stat, smaller, met smaller ▸ seen⟩

theorem Reference.not_comparable {e : IoError} {targetLen : Nat} (stat : ref.stat = .error e) :
    ¬ ref.Comparable skip targetLen := by
  intro comparable
  obtain ⟨len, found, -⟩ := comparable
  rw [stat] at found
  cases found

/-- How the issues of some steps go with their states: some step has failed exactly
when there is an issue, unless an issue is missed. -/
structure Judged (missed : Prop) (issues : List String) (states : List (List StepState)) : Prop where
  closed : ∀ s ∈ states, Closed s
  told : ¬ missed → (issues ≠ [] ↔ ∃ s ∈ states, StepState.fail ∈ s)
  untold : missed → issues ≠ [] ∧ ¬ ∃ s ∈ states, StepState.fail ∈ s

/-- A skipped comparison misses that the target is too small. -/
theorem judged_waived (targetLen imgLen : Nat) :
    Judged (targetLen < imgLen) (sizeIssues lib targetLen imgLen) [[.running, .skipped]] where
  closed s member := by
    rw [List.mem_singleton.mp member]
    exact ⟨.skipped, rfl, Or.inr rfl⟩
  told fits := by simp [sizeIssues, fits]
  untold smaller := by simp [sizeIssues, smaller]

theorem closed_ending (issues : List String) : Closed [.running, ending issues] := by
  refine ⟨ending issues, ?_, Or.inr rfl⟩
  cases issues <;> rfl

theorem fail_ending {issues : List String} :
    StepState.fail ∈ [.running, ending issues] ↔ issues ≠ [] := by
  cases issues with
  | nil => decide
  | cons first rest => simp [ending]

theorem Judged.single {issues : List String} {states : List StepState} (closed : Closed states)
    (told : issues ≠ [] ↔ StepState.fail ∈ states) : Judged False issues [states] where
  closed s member := by
    rw [List.mem_singleton.mp member]
    exact closed
  told _ := by
    rw [told]
    constructor
    · exact fun isFail => ⟨_, List.mem_singleton_self _, isFail⟩
    · intro found
      obtain ⟨s, member, isFail⟩ := found
      rw [List.mem_singleton.mp member] at isFail
      exact isFail
  untold impossible := impossible.elim

theorem Judged.ending (issues : List String) : Judged False issues [[.running, ending issues]] :=
  Judged.single (closed_ending issues) fail_ending.symm

theorem Judged.skipped : Judged False [] [[.skipped]] :=
  Judged.single ⟨.skipped, rfl, Or.inl rfl⟩ (by decide)

theorem Judged.unless {missed : Prop} {issues : List String} {states : List (List StepState)}
    (judged : Judged False issues states) (never : ¬ missed) : Judged missed issues states :=
  ⟨judged.closed, fun _ => judged.told id, fun isMissed => absurd isMissed never⟩

theorem Judged.append {missed : Prop} {front last : List String} {first rest : List (List StepState)}
    (judged : Judged False front first) (others : Judged missed last rest) :
    Judged (missed ∧ front = []) (front ++ last) (first ++ rest) where
  closed s member := (List.mem_append.mp member).elim (judged.closed s) (others.closed s)
  told told := by
    have apart : (∃ s ∈ first ++ rest, StepState.fail ∈ s) ↔
        (∃ s ∈ first, StepState.fail ∈ s) ∨ ∃ s ∈ rest, StepState.fail ∈ s := by
      simp only [List.mem_append, or_and_right, exists_or]
    rw [apart, ← judged.told id, ne_eq, List.append_eq_nil_iff, Classical.not_and_iff_not_or_not]
    by_cases isMissed : missed
    · have found : front ≠ [] := fun none => told ⟨isMissed, none⟩
      exact ⟨fun _ => Or.inl found, fun _ => Or.inl found⟩
    · rw [← others.told isMissed]
  untold both := by
    obtain ⟨isMissed, none⟩ := both
    obtain ⟨found, unmarked⟩ := others.untold isMissed
    subst none
    refine ⟨found, ?_⟩
    intro failed
    obtain ⟨s, member, isFail⟩ := failed
    rcases List.mem_append.mp member with early | late
    · exact (judged.told id).mpr ⟨s, early, isFail⟩ rfl
    · exact unmarked ⟨s, late, isFail⟩

/-- Neither part misses an issue. -/
theorem Judged.followed {front last : List String} {first rest : List (List StepState)}
    (judged : Judged False front first) (others : Judged False last rest) :
    Judged False (front ++ last) (first ++ rest) := by
  have both := judged.append others
  exact ⟨both.closed, fun _ => both.told fun impossible => impossible.1, fun never => never.elim⟩

theorem ending_fidelity (targetLen imgLen : Nat) (devDigest imgDigest : String) :
    ending (sizeIssues lib targetLen imgLen ++ digestIssues devDigest imgDigest) =
      if devDigest = imgDigest ∧ imgLen ≤ targetLen then .ok else .fail := by
  by_cases fits : imgLen ≤ targetLen
  · have noSize : sizeIssues lib targetLen imgLen = [] := if_neg (Nat.not_lt_of_le fits)
    rw [noSize, List.nil_append]
    by_cases same : devDigest = imgDigest
    · simp [digestIssues, ending, same, fits]
    · simp [digestIssues, ending, same]
  · have smaller : targetLen < imgLen := Nat.lt_of_not_le fits
    simp [sizeIssues, ending, smaller, fits]

theorem checkReference_finishes (reliable : env.Reliable) (sound : file.Sound content)
    (exact : file.Exact env content) :
    Finishes (Held env content file.node ms)
      ((ref.file env).checkFidelity env lib file content.length skip)
      (.onReturn
        (fun issues w => ref.Comparable skip content.length ∧ ∃ states,
          Judged (ref.Waived skip content.length) issues [states] ∧
            Held env content file.node (ms ++ report 4 [states]) w)
        fun _ w => ¬ ref.Comparable skip content.length ∧ marks w.events = ms ++ [(4, .running)]) := by
  apply mark_finishes
  apply Finishes.bind fun len w => ref.stat = .ok len ∧
    Held env content file.node (ms ++ [(4, .running)]) w
  · apply Finishes.mapError
    change Finishes _ (call env fun _ w => (ref.stat, w)) _
    apply call_finishes
    intro w held
    cases stat : ref.stat with
    | ok len => exact ⟨rfl, held⟩
    | error e => exact ⟨Reference.not_comparable stat, held.2⟩
  intro len
  apply Finishes.assume
  intro stat
  apply quiet_finishes rfl
  apply Finishes.bind fun _ w => ref.open = .ok () ∧
    Held env content file.node (ms ++ [(4, .running)]) w
  · apply Finishes.mapError
    change Finishes _ (call env fun _ w => (ref.open, w)) _
    apply call_finishes
    intro w held
    cases opened : ref.open with
    | ok _ => exact ⟨rfl, held⟩
    | error e =>
        refine ⟨fun comparable => ?_, held.2⟩
        have found := ((Reference.comparable_iff stat).mp comparable).1
        rw [opened] at found
        cases found
  intro _
  apply Finishes.assume
  intro opened
  apply seekStart_finishes reliable sound 0
  intro src follows start
  apply Finishes.bind fun hashed w => (ref.Covers skip (min len content.length) ∧
    (hashed = none ↔ Seen skip (min len content.length))) ∧
    Held env content file.node (ms ++ [(4, .running)]) w
  · refine (compareReference_finishes reliable exact (Nat.min_le_right _ _) follows start).imp_error ?_
    intro e w met
    exact ⟨fun comparable => met.1 ((Reference.comparable_iff stat).mp comparable).2, met.2.2⟩
  intro hashed
  apply Finishes.assume
  intro compared
  obtain ⟨covers, skips⟩ := compared
  have comparable := (Reference.comparable_iff stat).mpr ⟨opened, covers⟩
  cases hashed with
  | none =>
      have seen := skips.mp rfl
      apply quiet_finishes rfl
      apply mark_finishes
      apply Finishes.pure
      intro w held
      rw [List.append_assoc] at held
      refine ⟨comparable, [.running, .skipped], ?_, held⟩
      rw [Reference.waived_iff stat, and_iff_left seen]
      exact judged_waived content.length len
  | some hashed =>
      have told : ¬ ref.Waived skip content.length := by
        intro waived
        cases skips.mpr ((Reference.waived_iff stat).mp waived).2
      apply quiet_finishes rfl
      apply quiet_finishes rfl
      apply mark_finishes
      apply Finishes.pure
      intro w held
      rw [List.append_assoc, ← ending_fidelity] at held
      exact ⟨comparable, _, (Judged.ending _).unless told, held⟩

/-! ## The last step -/

/-- The last step can come to its end. -/
def Targetable (isDevice : Bool) (reference : Option Reference) (skip : Option (Nat → Bool))
    (targetLen : Nat) : Prop :=
  isDevice = true → ∀ ref, reference = some ref → ref.Comparable skip targetLen

/-- The last step keeps an issue to itself. -/
def Untold (isDevice : Bool) (reference : Option Reference) (skip : Option (Nat → Bool))
    (targetLen : Nat) : Prop :=
  isDevice = true ∧ ∃ ref, reference = some ref ∧ ref.Waived skip targetLen

theorem checkTarget_finishes (reliable : env.Reliable) (sound : file.Sound content)
    (exact : file.Exact env content) (isDevice : Bool) (reference : Option Reference) :
    Finishes (Held env content file.node ms)
      (checkTarget env lib file content.length isDevice (reference.map (Reference.file env)) skip)
      (.onReturn
        (fun issues w => Targetable isDevice reference skip content.length ∧ ∃ states,
          Judged (Untold isDevice reference skip content.length) issues [states] ∧
            Held env content file.node (ms ++ report 4 [states]) w)
        fun _ w => ¬ Targetable isDevice reference skip content.length ∧
          marks w.events = ms ++ [(4, .running)]) := by
  cases isDevice with
  | false =>
      have told : ¬ Untold false reference skip content.length := fun untold => by cases untold.1
      refine (checkDigest_finishes reliable sound exact).weaken (fun _ held => held) ?_ ?_
      · intro issues w met
        obtain ⟨rfl, held⟩ := met
        refine ⟨fun impossible => ?_, [.running, .ok], (Judged.ending []).unless told, held⟩
        cases impossible
      · exact fun _ _ never => never.elim
  | true =>
      cases reference with
      | none =>
          have told : ¬ Untold true none skip content.length := by
            intro untold
            obtain ⟨_, ref, impossible, _⟩ := untold
            cases impossible
          apply quiet_finishes rfl
          apply mark_finishes
          apply Finishes.pure
          intro w held
          refine ⟨fun _ ref impossible => ?_, [.skipped], Judged.skipped.unless told, held⟩
          cases impossible
      | some ref =>
          have able : Targetable true (some ref) skip content.length ↔
              ref.Comparable skip content.length := by
            refine ⟨fun all => all rfl ref rfl, fun comparable _ other same => ?_⟩
            cases same
            exact comparable
          have untold : Untold true (some ref) skip content.length ↔
              ref.Waived skip content.length := by
            constructor
            · intro untold
              obtain ⟨_, other, same, waived⟩ := untold
              cases same
              exact waived
            · exact fun waived => ⟨rfl, ref, rfl, waived⟩
          rw [able, untold]
          exact checkReference_finishes reliable sound exact

/-! ## The run -/

/-- The issues that the checks of the layout find, and what their steps are given. -/
def fronted (lib : Crates) (content : Bytes) : List String × List (List StepState) :=
  let found := tabled lib content
  let boot := booted lib content found.1.esp
  let header := headed content found.1.store
  (found.2 ++ boot.1 ++ header.1, [.running, ending found.2] :: boot.2 ++ [header.2])

theorem booted_judged (esp : Option (Nat × Nat)) :
    Judged False (booted lib content esp).1 (booted lib content esp).2 := by
  cases esp with
  | none => exact Judged.skipped.followed Judged.skipped
  | some range =>
      cases mounts : lib.fat (window range content) with
      | error e =>
          rw [booted, mounts]
          have failed : Judged False ["ESP not mountable as FAT: " ++ e] [[.running, .fail]] :=
            Judged.ending ["ESP not mountable as FAT: " ++ e]
          exact failed.followed Judged.skipped
      | ok fs =>
          rw [booted, mounts]
          exact (Judged.ending _).followed (Judged.ending _)

theorem headed_judged (store : Option (Nat × Nat)) :
    Judged False (headed content store).1 [(headed content store).2] := by
  cases store with
  | none => exact Judged.skipped
  | some range => exact Judged.ending _

theorem fronted_judged : Judged False (fronted lib content).1 (fronted lib content).2 :=
  ((Judged.ending _).followed (booted_judged _)).followed (headed_judged _)

theorem booted_count (esp : Option (Nat × Nat)) : (booted lib content esp).2.length = 2 := by
  cases esp with
  | none => rfl
  | some range =>
      rw [booted]
      cases lib.fat (window range content) <;> rfl

theorem fronted_count : (fronted lib content).2.length = 4 := by
  change ([_] ++ (booted lib content _).2 ++ [_]).length = 4
  rw [List.length_append, List.length_append, booted_count]
  rfl

/-- What the checks of the layout read is there. -/
structure Readable (lib : Crates) (content : Bytes) : Prop where
  table : TableRanged lib content
  header : HeaderInside content (tabled lib content).1.store

theorem tabled_eq {esp store : Nat × Nat} (table : Tabled lib content esp store) :
    tabled lib content = (⟨some esp, some store⟩, []) := by
  obtain ⟨partitions, read, two⟩ := table
  rw [tabled, read]
  dsimp only
  rw [(twoParts_noted two).2, tableIssues_two two]

theorem tabled_of_clean (ranged : TableRanged lib content) (clean : (tabled lib content).2 = []) :
    ∃ esp store, Tabled lib content esp store := by
  unfold tabled at clean
  cases read : lib.gpt content with
  | error e =>
      rw [read] at clean
      cases clean
  | ok partitions =>
      rw [read] at clean
      obtain ⟨esp, store, two, -⟩ := twoParts_of_noted (ranged partitions read) clean
      exact ⟨esp, store, partitions, read, two⟩

theorem booted_clean (esp : Nat × Nat) :
    (booted lib content (some esp)).1 = [] ↔ EspBoots lib content esp := by
  rw [booted]
  cases mounts : lib.fat (window esp content) with
  | error e =>
      constructor
      · intro impossible
        cases impossible
      · intro boots
        obtain ⟨fs, found, -⟩ := boots
        rw [mounts] at found
        cases found
  | ok fs =>
      rw [bootIssues_eq_nil]
      constructor
      · exact fun bootable => ⟨fs, mounts, bootable⟩
      · intro boots
        obtain ⟨other, found, bootable⟩ := boots
        rw [mounts] at found
        cases found
        exact bootable

theorem Layout.readable {esp store : Nat × Nat} (layout : Layout lib content esp store) :
    Readable lib content where
  table := by
    obtain ⟨partitions, read, two⟩ := layout.table
    intro others same
    rw [read] at same
    cases same
    exact (twoParts_noted two).1
  header := by
    rw [tabled_eq layout.table]
    intro range same
    cases same
    exact layout.inside

/-- The checks of the layout find nothing exactly when the layout is there. -/
theorem fronted_clean (readable : Readable lib content) :
    (fronted lib content).1 = [] ↔ LaidOut lib content := by
  have sized {store : Nat × Nat} (inside : store.1 + 8 ≤ content.length) :
      (window (store.1, 8) content).length = 8 := by
    rw [window, List.length_take, List.length_drop]
    omega
  unfold fronted
  dsimp only
  rw [List.append_eq_nil_iff, List.append_eq_nil_iff]
  constructor
  · intro clean
    obtain ⟨⟨noTable, noBoot⟩, noHeader⟩ := clean
    obtain ⟨esp, store, table⟩ := tabled_of_clean readable.table noTable
    have inside := readable.header
    rw [tabled_eq table] at noBoot noHeader inside
    refine ⟨esp, store, table, (booted_clean esp).mp noBoot, ?_⟩
    exact (headerIssues_eq_nil (sized (inside store rfl))).mp noHeader
  · intro laidOut
    obtain ⟨esp, store, layout⟩ := laidOut
    have found := tabled_eq layout.table
    have inside := readable.header
    rw [found] at inside ⊢
    refine ⟨⟨rfl, (booted_clean esp).mpr layout.boot⟩, ?_⟩
    exact (headerIssues_eq_nil (sized (inside store rfl))).mpr layout.header

/-- What a run reports that can look at everything or not, and that misses an issue
or not. -/
inductive Reported (able missed : Prop) (marks : List Mark) (passed : Bool) : Prop where
  | early (i : Nat) (below : i < stepCount) (unable : ¬ able) (left : history i marks = [.running])
  | whole (issues : List String) (states : List (List StepState)) (isAble : able)
      (count : states.length = stepCount) (judged : Judged missed issues states)
      (same : marks = report 0 states) (verdict : passed = issues.isEmpty)

theorem Reported.complete {able missed : Prop} {marks : List Mark} {passed : Bool}
    (reported : Reported able missed marks passed) :
    Complete marks passed ↔ able ∧ ¬ missed := by
  cases reported with
  | early i below unable left =>
      constructor
      · exact fun complete => absurd complete (not_complete_running below left)
      · exact fun met => absurd met.1 unable
  | whole issues states isAble count judged same verdict =>
      have failed : passed = false ↔ issues ≠ [] := by
        rw [verdict]
        cases issues <;> simp
      rw [same, complete_report count judged.closed, failed]
      constructor
      · intro right
        refine ⟨isAble, fun isMissed => ?_⟩
        obtain ⟨found, unmarked⟩ := judged.untold isMissed
        exact unmarked (right.mp found)
      · exact fun met => judged.told met.2

/-- How the rest of a run ends. -/
def afterRun (able missed : Prop) : Post VerifyWorld String String :=
  .onReturn (fun _ w => Reported able missed (marks w.events) true)
    fun _ w => Reported able missed (marks w.events) false

/-- A check that fails leaves its step running. -/
theorem Reported.left {able missed : Prop} {front : List (List StepState)} {w : VerifyWorld}
    (below : front.length < stepCount) (unable : ¬ able)
    (left : marks w.events = report 0 front ++ [(front.length, .running)]) :
    Reported able missed (marks w.events) false := by
  refine Reported.early front.length below unable ?_
  have whole : marks w.events = report 0 (front ++ [[.running]]) := by
    rw [left, report_append, Nat.zero_add]
    rfl
  have read := history_report 0 (front ++ [[.running]]) front.length
  rw [Nat.zero_add] at read
  rw [whole, read, List.getD_eq_getElem?_getD, List.getElem?_append_right (Nat.le_refl _), Nat.sub_self]
  rfl

/-- A check, and what comes after it. -/
theorem check_finishes {β : Type} {able needs missed : Prop} {found : β → Prop} {i : Nat}
    {states : β → List (List StepState)} {front : List (List StepState)}
    {check : Step VerifyEvent β} {rest : β → Step VerifyEvent String}
    (count : front.length = i) (below : i < stepCount) (part : able → needs)
    (head : Finishes (Held env content node (report 0 front)) check
      (afterCheck env content node (report 0 front) i needs found states))
    (tail : ∀ value, needs → found value →
      Finishes (Held env content node (report 0 (front ++ states value))) (rest value)
        (afterRun able missed)) :
    Finishes (Held env content node (report 0 front)) (check >>= rest) (afterRun able missed) := by
  subst count
  apply Finishes.bind _
  · refine head.imp_error ?_
    intro e w met
    exact Reported.left below (fun isAble => met.1 (part isAble)) met.2
  · intro value
    apply Finishes.assume
    intro known
    refine (tail value known.1 known.2).weaken ?_ (fun _ _ met => met) fun _ _ met => met
    intro w held
    rw [report_append, Nat.zero_add]
    exact held

theorem runVerifyBy_finishes {elev : Elevation} (reliable : env.Reliable)
    (trusted : elev ≠ .root → env.Honest) (sizes : elev ≠ .root → env.Sizes content.length)
    (target : Node) (isDevice : Bool) (reference : Option Reference) :
    Finishes (Held env content target [])
      (runVerifyBy env lib target isDevice (reference.map (Reference.file env)) skip elev)
      (afterRun (Readable lib content ∧ Targetable isDevice reference skip content.length)
        (Untold isDevice reference skip content.length ∧ (fronted lib content).1 = [])) := by
  apply Ends.tried (openReader_ends reliable elev target sizes) (openReader_exact trusted target)
    ((openReader_still env elev target).comp told)
  intro file opened
  obtain ⟨atFile, sound, exact⟩ := opened
  rw [← atFile]
  apply Ends.tried (DevReader.seekEnd_ends reliable file) (seekEnd_held sound exact)
    ((file.seekEnd_still env).comp told)
  intro result measured
  obtain ⟨targetLen, first⟩ := result
  obtain ⟨(isLength : content.length = targetLen), (one : file.Follows env content first)⟩ := measured
  subst isLength
  have exactFirst := one.exact exact
  rw [← one.node]
  apply check_finishes rfl (by decide) (fun isAble => isAble.1.table)
    (checkTable_finishes reliable one.sound exactFirst : Finishes (Held _ _ _ (report 0 [])) _ _)
  intro result ranged known
  obtain ⟨table, second⟩ := result
  obtain ⟨(two : first.Follows env content second), (isTable : table = tabled lib content)⟩ := known
  have exactSecond := two.exact exactFirst
  rw [← two.node]
  apply check_finishes (i := 1) rfl (by decide) (fun _ => trivial)
    (checkBoot_finishes reliable two.sound exactSecond table.1.esp)
  intro result _ known
  obtain ⟨boot, third⟩ := result
  obtain ⟨(three : second.Follows env content third),
    (isBoot : boot = (booted lib content table.1.esp).1)⟩ := known
  have exactThird := three.exact exactSecond
  have looked : ([[.running, ending table.2]] ++ (booted lib content table.1.esp).2).length = 3 := by
    rw [List.length_append, booted_count]
    rfl
  rw [← three.node]
  apply check_finishes looked (by decide) (fun isAble => isTable ▸ isAble.1.header)
    (checkHeader_finishes reliable three.sound exactThird table.1.store)
  intro result isInside known
  obtain ⟨header, last⟩ := result
  obtain ⟨(four : third.Follows env content last),
    (isHeader : header = (headed content table.1.store).1)⟩ := known
  have exactLast := four.exact exactThird
  have front : fronted lib content = (table.2 ++ boot ++ header,
      [[.running, ending table.2]] ++ (booted lib content table.1.esp).2 ++
        [(headed content table.1.store).2]) := by
    rw [isBoot, isHeader, isTable]
    rfl
  have judged : Judged False (fronted lib content).1 (fronted lib content).2 := fronted_judged
  have count : (fronted lib content).2.length = 4 := fronted_count
  rw [front] at judged count ⊢
  have readable : Readable lib content := ⟨ranged, isTable ▸ isInside⟩
  rw [← four.node]
  apply Finishes.bind _
  · refine (checkTarget_finishes reliable four.sound exactLast isDevice reference).imp_error ?_
    intro e w met
    rw [← count] at met
    exact Reported.left (by rw [count]; decide) (fun isAble => met.1 isAble.2) met.2
  intro whole
  apply Finishes.assume
  intro targetable
  have reported {passed : Bool} {w : VerifyWorld} (met : ∃ states,
      Judged (Untold isDevice reference skip content.length) whole [states] ∧ Held env content last.node
        (report 0 ([[.running, ending table.2]] ++ (booted lib content table.1.esp).2 ++
          [(headed content table.1.store).2]) ++ report 4 [states]) w)
      (verdict : passed = (table.2 ++ boot ++ header ++ whole).isEmpty) :
      Reported (Readable lib content ∧ Targetable isDevice reference skip content.length)
        (Untold isDevice reference skip content.length ∧ table.2 ++ boot ++ header = [])
        (marks w.events) passed := by
    obtain ⟨states, ended, held⟩ := met
    refine Reported.whole _ _ ⟨readable, targetable⟩ ?_ (judged.append ended) ?_ verdict
    · rw [List.length_append, count]
      rfl
    · rw [report_append, count]
      exact held.2
  by_cases clean : (table.2 ++ boot ++ header ++ whole).isEmpty
  · simp only [clean, if_true]
    exact Finishes.pure fun w met => reported met clean.symm
  · simp only [clean]
    exact Finishes.fail fun w met => reported met (Bool.eq_false_iff.mpr clean).symm

/-! ## The worker -/

/-- The worker comes to its end, with a report that is complete. -/
def ReportsAll (worker : Step VerifyEvent Unit) (w : VerifyWorld) : Prop :=
  ∃ after cost events result, Runs worker { w with events := [] } () after cost ∧
    after.events = events ++ [.done result] ∧ Complete (marks events) result.isOk

variable (lib skip) in
theorem spawnVerify_reported {elev : Elevation} (w : VerifyWorld) (reliable : env.Reliable)
    (target : Node)
    (trusted : elev ≠ .root → env.Honest ∧ env.Sizes (w.content env target).length)
    (isDevice : Bool) (reference : Option Reference) :
    ∃ after cost events result,
      Runs (spawnVerify env lib target isDevice (reference.map (Reference.file env)) skip elev)
        { w with events := [] } () after cost ∧
      after.events = events ++ [.done result] ∧
      Reported
        (Readable lib (w.content env target) ∧
          Targetable isDevice reference skip (w.content env target).length)
        (Untold isDevice reference skip (w.content env target).length ∧
          (fronted lib (w.content env target)).1 = [])
        (marks events) result.isOk := by
  obtain ⟨result, after, cost, run, met⟩ := runVerifyBy_finishes reliable
    (fun other => (trusted other).1) (fun other => (trusted other).2) target isDevice reference
    { w with events := [] } ⟨rfl, rfl⟩
  refine ⟨_, _, after.events, result, run.bind (Runs.modify _ after), rfl, ?_⟩
  cases result with
  | ok summary => exact met
  | error e => exact met

/-- The report of the one run decides. -/
theorem reportsAll_iff {worker : Step VerifyEvent Unit} {w after : VerifyWorld} {cost : Nat}
    {events : List VerifyEvent} {result : Except String String}
    (run : Runs worker { w with events := [] } () after cost)
    (sent : after.events = events ++ [.done result]) :
    ReportsAll worker w ↔ Complete (marks events) result.isOk := by
  constructor
  · intro reports
    obtain ⟨other, cost', events', result', run', sent', complete⟩ := reports
    obtain ⟨-, rfl⟩ := run'.unique run
    rw [sent] at sent'
    obtain ⟨same, last⟩ := List.append_inj' sent' rfl
    cases last
    rw [same]
    exact complete
  · exact fun complete => ⟨after, cost, events, result, run, sent, complete⟩

/-- A verification runs its five checks to their end exactly when what they read is
there, and no comparison with an image that is too large is skipped on a device that
has the layout. -/
theorem spawnVerify_reportsAll_iff {elev : Elevation} (w : VerifyWorld) (reliable : env.Reliable)
    (target : Node)
    (trusted : elev ≠ .root → env.Honest ∧ env.Sizes (w.content env target).length)
    (isDevice : Bool) (reference : Option Reference) :
    ReportsAll (spawnVerify env lib target isDevice (reference.map (Reference.file env)) skip elev) w ↔
      Readable lib (w.content env target) ∧ (isDevice = true → ∀ ref, reference = some ref →
        ref.Comparable skip (w.content env target).length ∧
          ¬ (ref.Waived skip (w.content env target).length ∧ LaidOut lib (w.content env target))) := by
  obtain ⟨after, cost, events, result, run, sent, reported⟩ :=
    spawnVerify_reported lib skip w reliable target trusted isDevice reference
  rw [reportsAll_iff run sent, reported.complete]
  constructor
  · intro met
    obtain ⟨⟨readable, targetable⟩, told⟩ := met
    rw [fronted_clean readable] at told
    refine ⟨readable, fun device ref isRef => ⟨targetable device ref isRef, fun both => ?_⟩⟩
    exact told ⟨⟨device, ref, isRef, both.1⟩, both.2⟩
  · intro met
    obtain ⟨readable, each⟩ := met
    rw [fronted_clean readable]
    refine ⟨⟨readable, fun device ref isRef => (each device ref isRef).1⟩, fun untold => ?_⟩
    obtain ⟨⟨device, ref, isRef, waived⟩, laidOut⟩ := untold
    exact (each device ref isRef).2 ⟨waived, laidOut⟩

end Report

namespace Small

def device : VerifyWorld :=
  ⟨0, fun _ => image ++ zeros 2048, fun _ => none, fun _ => false, [], [], false, [], false, []⟩

def reference : Reference := ⟨"image.raw", .ok image.length, .ok (), image, unexpectedEof⟩

/-- The image up to where the store starts. -/
def cut : Env := { still with image := fun _ => primary ++ espVolume }

end Small

theorem spawnVerify_reportsAll_small :
    ReportsAll (spawnVerify Small.still Small.crates (.device "/dev/sda") true
      ((some Small.reference).map (Reference.file Small.still)) (some fun _ => false) .root)
      Small.device := by
  apply (spawnVerify_reportsAll_iff Small.device Small.still_reliable (.device "/dev/sda")
    (fun other => absurd rfl other) true (some Small.reference)).mpr
  refine ⟨(Small.image_layout (Small.zeros 2048)).readable, fun _ ref same => ?_⟩
  cases same
  constructor
  · refine ⟨Small.image.length, rfl, rfl, fun k _ _ => ?_⟩
    change min _ (min Small.image.length _) ≤ Small.image.length
    omega
  · intro both
    obtain ⟨⟨len, same, smaller, -⟩, -⟩ := both
    cases same
    change (Small.image ++ Small.zeros 2048).length < Small.image.length at smaller
    rw [List.length_append] at smaller
    omega

/-- An image that ends where its store starts: the check of the LUKS2 header ends the
run, and leaves its step running. -/
theorem spawnVerifyImage_truncated :
    ¬ ∀ (env : Env) (lib : Crates), env.Reliable → ∀ (image : String) (w : VerifyWorld),
      ReportsAll (spawnVerifyImage env lib image) w := by
  intro always
  have calm : Small.cut.Reliable := ⟨fun _ => rfl, fun _ => rfl⟩
  obtain ⟨after, cost, events, result, run, sent, reported⟩ := spawnVerify_reported Small.crates none
    Small.device calm (.image "image.raw") (fun other => absurd rfl other) false none
  have reports := always Small.cut Small.crates calm "image.raw" Small.device
  rw [spawnVerifyImage_eq] at reports
  have complete := reported.complete.mp ((reportsAll_iff run sent).mp reports)
  have inside := complete.1.1.header
  have read : Small.crates.gpt (Small.primary ++ Small.espVolume) = .ok (Small.partitions 9) := by
    have front : (Small.primary ++ Small.espVolume).take 1536 = Small.primary :=
      List.take_left' Small.primary_length
    simp [Crates.gpt, Small.crates, front]
  have found : (tabled Small.crates (Small.primary ++ Small.espVolume)).1.store = some (4608, 512) := by
    rw [tabled, read]
    rfl
  have fits : 4608 + 8 ≤ (Small.primary ++ Small.espVolume).length := inside (4608, 512) found
  rw [List.length_append, Small.primary_length, Small.espVolume_length] at fits
  omega

end Nixnas.Tui.Verify
