import Nixnas.Tui.Checklist

/-!
# The steps of the build pipeline

`stages` is the table of all fallible calls of `run_pipeline`, step by step, as
they come out for given answers of the environment.  The pipeline sends the
marks of this table, and fails where the table does.
-/

set_option autoImplicit false

namespace Nixnas.Tui.Build

open Nixnas.Logic Nixnas.Logic.Action
open Nixnas.Rust

/-! ## The calls -/

/-- A call that the source leaves through `?`. -/
def unmarked (succeeds : Bool) : Operation := ⟨succeeds, false⟩

/-- A failure that the source marks before it bails out. -/
def marked (succeeds : Bool) : Operation := ⟨succeeds, true⟩

def Child.spawned : Child → Bool
  | .spawnError _ => false
  | .waitError _ _ | .exited _ _ => true

def Child.waited : Child → Bool
  | .exited _ _ => true
  | .spawnError _ | .waitError _ _ => false

def Child.success : Child → Bool
  | .exited _ success => success
  | .spawnError _ | .waitError _ _ => false

def WriteAll.isComplete : WriteAll → Bool
  | .complete => true
  | .failed _ _ => false

/-- A child that is run to its end and must exit well. -/
def childCalls (child : Child) : List Operation :=
  [unmarked child.spawned, unmarked child.waited, marked child.success]

def Output.isYescrypt (out : Output) : Bool := out.success && startsWith (trim out.stdout) "$y$"

/-- What a check finds in an answer that did arrive. -/
def answered {α : Type} (answer : Except String α) (check : α → Bool) : Bool :=
  match answer with
  | .ok value => check value
  | .error _ => false

def keyCalls (a : Answers) (w : World) : List Operation :=
  [unmarked ((w.files .key).isNone && a.createKey.isOk), unmarked a.writeKey.isComplete]

def hashCalls (a : Answers) (w : World) : List Operation :=
  [marked a.spawnMkpasswd.isOk, unmarked a.feedMkpasswd.isOk, unmarked a.waitMkpasswd.isOk,
    marked (answered a.waitMkpasswd Output.isYescrypt),
    unmarked ((w.files .hash).isNone && a.createHash.isOk), unmarked a.writeHash.isComplete,
    unmarked a.writeNewline.isComplete]

/-- The bundle root that the pipeline settles on. -/
def bundleOf (a : Answers) (dir : String) : String :=
  if a.isDir (join dir "keys") then dir
  else
    match a.listPki with
    | .ok [only] =>
        if a.isDir (join dir only) && a.isDir (join (join dir only) "keys") then join dir only
        else dir
    | _ => dir

/-- `sops` into `tar`. -/
def extractCalls (a : Answers) : List Operation :=
  [unmarked a.sops.isOk, marked (answered a.sops Output.success), unmarked a.spawnTar.isOk,
    unmarked a.feedTar.isOk, unmarked a.waitTar.isOk, marked (answered a.waitTar id)]

def pkiCalls (s : Setting) (a : Answers) (w : World) : List Operation :=
  [unmarked (!w.pkiDir && a.createPki.isOk), unmarked a.restrictPki.isOk] ++ extractCalls a ++
    [unmarked (a.isDir (join s.pkiPath "keys") || a.listPki.isOk),
      marked (requiredKeys.all fun required => a.isFile (join (bundleOf a s.pkiPath) required))]

def imageCalls (a : Answers) : List Operation :=
  unmarked a.createOutDir.isOk :: unmarked a.resolveScript.isOk :: childCalls a.script

def isRaw (name : String) : Bool := extension name = some "raw"

def rawCalls (a : Answers) : List Operation :=
  [unmarked a.readOutDir.isOk, marked (answered a.readOutDir fun names => names.any isRaw)]

def pkiStage (s : Setting) (a : Answers) (cfg : Config) (w : World) : Stage :=
  match cfg.sbKeysSops with
  | some _ => .run (pkiCalls s a w)
  | none => .skip

/-- Every fallible call of `run_pipeline`. -/
def stages (s : Setting) (a : Answers) (cfg : Config) (w : World) : List Stage :=
  [.run (childCalls a.nixBuild), .run (keyCalls a w), .run (hashCalls a w), pkiStage s a cfg w,
    .run (imageCalls a), .run (rawCalls a)]

/-! ## Programs that play items -/

abbrev Secrets := (SecretFile → Option Bytes) × Bool

/-- The program sends the marks of the items and fails where they do.  What it
needs and what it leaves are facts about the secret paths. -/
def Follows {α : Type} (before : Secrets → Prop) (items : List Item) (action : Step α)
    (after : α → Secrets → Prop) : Prop :=
  ∀ seen, Spec (fun w => marks w.events = seen ∧ before w.secrets) action
    (.onReturn
      (fun value w => (play items).2 = none ∧ marks w.events = seen ++ (play items).1 ∧
        after value w.secrets)
      fun _ w => (play items).2 ≠ none ∧ marks w.events = seen ++ (play items).1)

section Rules

variable {α β : Type} {before : Secrets → Prop} {xs ys : List Item}

theorem Follows.weaken {before' : Secrets → Prop} {action : Step α} {after after' : α → Secrets → Prop}
    (flow : Follows before' xs action after') (enter : ∀ secrets, before secrets → before' secrets)
    (leave : ∀ value secrets, after' value secrets → after value secrets) :
    Follows before xs action after := by
  intro seen
  refine (flow seen).weaken ?_ ?_ (fun _ _ holds => holds) fun _ _ => trivial
  · exact fun w holds => ⟨holds.1, enter _ holds.2⟩
  · exact fun value w holds => ⟨holds.1, holds.2.1, leave _ _ holds.2.2⟩

theorem Follows.pure (value : α) :
    Follows before [] (pure value : Step α) fun found secrets => found = value ∧ before secrets :=
  fun seen => Spec.pure fun _ holds => ⟨rfl, by rw [holds.1]; exact (List.append_nil seen).symm, rfl, holds.2⟩

theorem Follows.bind {first : Step β} {next : β → Step α} {mid : β → Secrets → Prop}
    {after : α → Secrets → Prop} (head : Follows before xs first mid)
    (tail : ∀ value, Follows (mid value) ys (next value) after) :
    Follows before (xs ++ ys) (first >>= next) after := by
  intro seen
  rw [play_append]
  refine Spec.bind (fun value w => (play xs).2 = none ∧ marks w.events = seen ++ (play xs).1 ∧
    mid value w.secrets) ?_ fun value => Spec.assume fun completes => ?_
  · refine (head seen).weaken (fun _ holds => holds) (fun _ _ holds => holds) ?_ fun _ _ => trivial
    rintro _ w ⟨fails, sent⟩
    rw [if_neg fails]
    exact ⟨fails, sent⟩
  · refine (tail value (seen ++ (play xs).1)).weaken (fun _ holds => holds) ?_ ?_ fun _ _ => trivial
    · rintro found w ⟨completes', sent, holds⟩
      rw [if_pos completes]
      exact ⟨completes', by rw [sent, List.append_assoc], holds⟩
    · rintro _ w ⟨fails, sent⟩
      rw [if_pos completes]
      exact ⟨fails, by rw [sent, List.append_assoc]⟩

/-- A fact that no secret decides. -/
theorem Follows.assume {fact : Prop} {action : Step α} {after : α → Secrets → Prop}
    (flow : fact → Follows before xs action after) :
    Follows (fun secrets => fact ∧ before secrets) xs action after :=
  fun seen w fuel holds => flow holds.2.1 seen w fuel ⟨holds.1, holds.2.2⟩

/-- One item, then the rest. -/
theorem Follows.next {item : Item} {first : Step β} {next : β → Step α} {mid : β → Secrets → Prop}
    {after : α → Secrets → Prop} (head : Follows before [item] first mid)
    (tail : ∀ value, Follows (mid value) ys (next value) after) :
    Follows before (item :: ys) (first >>= next) after :=
  Follows.bind head tail

/-- A part that plays no item. -/
theorem Follows.silent {first : Step β} {next : β → Step α} {mid : β → Secrets → Prop}
    {after : α → Secrets → Prop} (head : Follows before [] first mid)
    (tail : ∀ value, Follows (mid value) ys (next value) after) :
    Follows before ys (first >>= next) after :=
  Follows.bind head tail

/-- A part of the secrets that the program leaves alone. -/
theorem Follows.keeping {Part : Type} {action : Step α} {after : α → Secrets → Prop}
    (flow : Follows before xs action after) (part : Secrets → Part)
    (keeps : Preserves (fun w : World => part w.secrets) action) (kept : Part) :
    Follows (fun secrets => before secrets ∧ part secrets = kept) xs action
      fun value secrets => after value secrets ∧ part secrets = kept := by
  intro seen
  refine ((flow seen).and (keeps.spec kept)).weaken ?_ ?_ ?_ fun _ _ => trivial
  · exact fun w holds => ⟨⟨holds.1, holds.2.1⟩, holds.2.2⟩
  · exact fun value w holds => ⟨holds.1.1, holds.1.2.1, holds.1.2.2, holds.2⟩
  · exact fun _ w holds => holds.1

theorem Follows.step (i : Nat) (state : StepState) :
    Follows before [.mark i state] (step i state) fun _ => before := by
  intro seen
  refine Spec.modify ?_
  rintro w ⟨sent, holds⟩
  refine ⟨rfl, ?_, holds⟩
  change List.filterMap _ (w.events ++ _) = _
  rw [List.filterMap_append]
  exact congrArg (· ++ [(i, state)]) sent

theorem Follows.log (line : String) : Follows before [] (log line) fun _ => before := by
  intro seen
  refine Spec.modify ?_
  rintro w ⟨sent, holds⟩
  refine ⟨rfl, ?_, holds⟩
  change List.filterMap _ (w.events ++ _) = _
  rw [List.filterMap_append]
  exact congrArg (· ++ []) sent

/-- One operation that sends nothing, and whose success the facts decide. -/
theorem Follows.perform (i : Nat) {operation : World → Except String α × World} {succeeds : Bool}
    {after : α → Secrets → Prop}
    (quiet : ∀ w, marks (operation w).2.events = marks w.events)
    (decides : ∀ w, before w.secrets → (operation w).1.isOk = succeeds)
    (leaves : ∀ w value, before w.secrets → (operation w).1 = .ok value →
      after value (operation w).2.secrets) :
    Follows before [.call i (unmarked succeeds)] (perform operation) after := by
  intro seen
  refine Spec.perform (fun _ _ => trivial) ?_ ?_ <;> rintro w answer next ⟨sent, holds⟩ run
  · have same := quiet w
    have decided := decides w holds
    have left := leaves w answer holds
    rw [run] at same decided left
    subst decided
    exact ⟨rfl, by rw [same, sent]; exact (List.append_nil seen).symm, left rfl⟩
  · have same := quiet w
    have decided := decides w holds
    rw [run] at same decided
    subst decided
    exact ⟨Option.some_ne_none _, by rw [same, sent]; exact (List.append_nil seen).symm⟩

theorem Follows.call (i : Nat) (what : String) (answer : Except String α) :
    Follows before [.call i (unmarked answer.isOk)] (call what answer)
      fun value secrets => answer = .ok value ∧ before secrets := by
  cases answer with
  | error e => exact Follows.perform i (fun _ => rfl) (fun _ _ => rfl) fun _ _ _ never => by cases never
  | ok found =>
      refine Follows.perform i (fun _ => rfl) (fun _ _ => rfl) fun w value holds same => ?_
      cases same
      exact ⟨rfl, holds⟩

theorem Follows.fail (i : Nat) (message : String) {after : α → Secrets → Prop} :
    Follows before (.call i (unmarked false) :: ys) (Action.fail message : Step α) after := by
  intro seen
  refine Spec.fail ?_
  rintro w ⟨sent, _⟩
  exact ⟨Option.some_ne_none _, by rw [sent]; exact (List.append_nil seen).symm⟩

/-- The step is marked, then the pipeline bails out. -/
theorem Follows.bail (i : Nat) (message : String) {after : α → Secrets → Prop} :
    Follows before (.call i (marked false) :: ys)
      (Build.step i .fail >>= fun _ => Action.fail message) after := by
  intro seen
  have marks_then_fails : Follows before ([.mark i .fail] ++ .call i (unmarked false) :: ys) _ after :=
    Follows.bind (Follows.step i .fail) fun _ => Follows.fail i message
  exact marks_then_fails seen

/-- A call that succeeds. -/
theorem Follows.passed (i : Nat) (mark : Bool) {action : Step α} {after : α → Secrets → Prop}
    (flow : Follows before ys action after) : Follows before (.call i ⟨true, mark⟩ :: ys) action after :=
  flow

theorem Follows.check (i : Nat) (success : Bool) (message : String) :
    Follows before [.call i (marked success)] (check i success message) fun _ => before := by
  cases success with
  | true => exact (Follows.pure ()).weaken (fun _ holds => holds) fun _ _ holds => holds.2
  | false => exact Follows.bail i message

/-- A destructor sends nothing and swallows its errors. -/
theorem Follows.guarded {destructor : Step Unit} {body : Step α} {after : α → Secrets → Prop}
    (run : Follows before xs body after) (quiet : Preserves (fun w => marks w.events) destructor) :
    Follows before xs (guarded destructor body) fun value _ => ∃ secrets, after value secrets := by
  intro seen
  have dropped : ∀ (sent : List Mark) (fact : Prop),
      Spec (fun w => fact ∧ marks w.events = sent) destructor
        (.finally fun w => fact ∧ marks w.events = sent) := by
    intro sent fact
    refine Spec.assume fun holds => ?_
    exact (quiet.spec sent).weaken (fun _ same => same) (fun _ _ same => ⟨holds, same⟩)
      (fun _ _ same => ⟨holds, same⟩) fun _ _ => trivial
  refine Spec.guarded _ _ (run seen) (fun value => ?_) fun _ => ?_
  · refine (dropped (seen ++ (play xs).1)
      ((play xs).2 = none ∧ ∃ secrets, after value secrets)).weaken ?_ ?_ ?_ fun _ _ => trivial
    · exact fun w holds => ⟨⟨holds.1, w.secrets, holds.2.2⟩, holds.2.1⟩
    · exact fun _ _ holds => ⟨holds.1.1, holds.2, holds.1.2⟩
    · exact fun _ _ holds => ⟨holds.1.1, holds.2, holds.1.2⟩
  · exact (dropped (seen ++ (play xs).1) ((play xs).2 ≠ none)).weaken (fun _ holds => holds)
      (fun _ _ holds => holds) (fun _ _ holds => holds) fun _ _ => trivial

theorem Follows.logs (lines : List String) :
    Follows before [] (lines.forM Build.log) fun _ => before := by
  induction lines with
  | nil => exact (Follows.pure _).weaken (fun _ holds => holds) fun _ _ holds => holds.2
  | cons line rest ih => exact Follows.bind (Follows.log line) fun _ => ih

theorem Follows.runStreamed (i : Nat) (what : String) (child : Child) :
    Follows before [.call i (unmarked child.spawned), .call i (unmarked child.waited)]
      (runStreamed what child) fun success secrets => success = child.success ∧ before secrets := by
  cases child with
  | spawnError e =>
      intro seen
      exact (Follows.call i ("running " ++ what) (.error e : Except String Bool) seen).weaken
        (fun _ holds => holds) (fun _ _ holds => by cases holds.1) (fun _ _ holds => holds)
        fun _ _ => trivial
  | waitError lines e =>
      have logged : Follows before [] (lines.forM Build.log) fun _ => before := Follows.logs lines
      have waits := Follows.bind logged fun _ =>
        Follows.call i ("waiting for " ++ what) (.error e : Except String Bool)
      refine (Follows.bind (Follows.call i ("running " ++ what) (.ok ())) fun _ =>
        waits.weaken (fun _ holds => holds.2) ?_)
      rintro value secrets ⟨impossible, _⟩
      cases impossible
  | exited lines success =>
      have logged : Follows before [] (lines.forM Build.log) fun _ => before := Follows.logs lines
      have waits := Follows.bind logged fun _ =>
        Follows.call i ("waiting for " ++ what) (.ok success)
      refine (Follows.bind (Follows.call i ("running " ++ what) (.ok ())) fun _ =>
        waits.weaken (fun _ holds => holds.2) ?_)
      rintro value secrets ⟨same, holds⟩
      cases same
      exact ⟨rfl, holds⟩

/-- A child that must exit well. -/
theorem Follows.child (i : Nat) (what : String) (child : Child) (message : String) {rest : Step α}
    {after : α → Secrets → Prop} (tail : Follows before ys rest after) :
    Follows before (.call i (unmarked child.spawned) :: .call i (unmarked child.waited) ::
      .call i (marked child.success) :: ys)
      (Tui.Build.runStreamed what child >>= fun success =>
        Tui.Build.check i success message >>= fun _ => rest) after := by
  refine Follows.bind (Follows.runStreamed i what child) fun success => Follows.assume fun same => ?_
  subst same
  exact Follows.next (Follows.check i child.success message) fun _ => tail

end Rules

/-! ## The operations on the secrets -/

theorem createNew_follows (i : Nat) (file : SecretFile) (what : String) (answer : Except String Unit)
    (content : Option Bytes) :
    Follows (fun secrets => secrets.1 file = content)
      [.call i (unmarked (content.isNone && answer.isOk))] (createNew file what answer)
      fun _ _ => True := by
  refine Follows.perform i (fun w => ?_) (fun w holds => ?_) fun _ _ _ _ => trivial
  · split <;> rfl
  · change w.files file = content at holds
    rw [← holds]
    cases w.files file with
    | some bytes => rfl
    | none => cases answer <;> rfl

theorem writeAll_follows (i : Nat) (file : SecretFile) (what : String) (bytes : Bytes)
    (answer : WriteAll) {before : Secrets → Prop} :
    Follows before [.call i (unmarked answer.isComplete)] (writeAll file what bytes answer)
      fun _ _ => True := by
  refine Follows.perform i (fun w => ?_) (fun w _ => ?_) fun _ _ _ _ => trivial <;>
  · cases answer <;> rfl

theorem createPkiDir_follows (i : Nat) (answer : Except String Unit) (present : Bool) :
    Follows (fun secrets => secrets.2 = present) [.call i (unmarked (!present && answer.isOk))]
      (createPkiDir answer) fun _ _ => True := by
  refine Follows.perform i (fun w => ?_) (fun w holds => ?_) fun _ _ _ _ => trivial
  · split
    · rfl
    · split <;> rfl
  · change w.pkiDir = present at holds
    rw [← holds]
    cases w.pkiDir with
    | true => rfl
    | false => cases answer <;> rfl

/-! ## The steps -/

def calls (i : Nat) (operations : List Operation) : List Item := operations.map (Item.call i)

section Steps

variable (s : Setting) (a : Answers) (cfg : Config) {before : Secrets → Prop}

theorem buildScript_follows (size : SizeOverride) :
    Follows before ((Stage.run (childCalls a.nixBuild)).items 0) (buildScript a cfg size)
      fun _ => before := by
  refine Follows.next (Follows.step 0 .running) fun _ => Follows.silent (Follows.log _) fun _ => ?_
  exact Follows.child 0 _ a.nixBuild _ (Follows.step 0 .ok)

theorem writeKeyFile_follows (passphrase : String) (w : World) :
    Follows (fun secrets => secrets = w.secrets) (calls 1 (keyCalls a w))
      (writeKeyFile s a passphrase)
      fun _ secrets => (secrets.1 .hash, secrets.2) = (w.files .hash, w.pkiDir) := by
  have create := createNew_follows 1 .key ("creating temp passphrase file " ++ s.keyPath) a.createKey
    (w.files .key)
  have flow := Follows.bind create fun _ =>
    writeAll_follows 1 .key "writing passphrase to temp file" (asBytes passphrase) a.writeKey
  have kept := flow.keeping (fun secrets => (secrets.1 .hash, secrets.2))
    (writeKeyFile_preserves s a keepsOthers_key passphrase) (w.files .hash, w.pkiDir)
  refine kept.weaken ?_ fun _ _ holds => holds.2
  rintro secrets rfl
  exact ⟨rfl, rfl⟩

theorem spawnMkpasswd_follows :
    Follows before [.call 2 (marked a.spawnMkpasswd.isOk)] (spawnMkpasswd a) fun _ => before := by
  have asked : Follows before [] (ask a.spawnMkpasswd) fun value secrets =>
      value = a.spawnMkpasswd ∧ before secrets := by
    intro seen
    refine Spec.perform (fun _ _ => trivial) ?_ ?_ <;> rintro w _ _ ⟨sent, holds⟩ ⟨⟩
    exact ⟨rfl, by rw [sent]; exact (List.append_nil seen).symm, rfl, holds⟩
  refine Follows.silent asked fun answer => Follows.assume fun same => ?_
  rw [← same]
  cases answer with
  | ok found => exact (Follows.pure ()).weaken (fun _ holds => holds) fun _ _ holds => holds.2
  | error e => cases e <;> exact Follows.bail 2 _

/-- The spawn, the feeding, the wait and the check of the hash. -/
theorem runMkpasswd_follows :
    Follows before (calls 2 [marked a.spawnMkpasswd.isOk, unmarked a.feedMkpasswd.isOk,
      unmarked a.waitMkpasswd.isOk, marked (answered a.waitMkpasswd Output.isYescrypt)])
      (runMkpasswd a) fun _ => before := by
  refine Follows.next (spawnMkpasswd_follows a) fun _ =>
    Follows.next (Follows.call 2 _ a.feedMkpasswd) fun _ => Follows.assume fun _ =>
      Follows.next (Follows.call 2 _ a.waitMkpasswd) fun out => Follows.assume fun waited => ?_
  rw [waited]
  refine Follows.next (Follows.check 2 out.isYescrypt _) fun _ => ?_
  exact (Follows.pure (trim out.stdout)).weaken (fun _ holds => holds) fun _ _ holds => holds.2

theorem writeHashFile_follows (w : World) :
    Follows (fun secrets => (secrets.1 .hash, secrets.2) = (w.files .hash, w.pkiDir))
      (calls 2 (hashCalls a w)) (writeHashFile s a) fun _ secrets => secrets.2 = w.pkiDir := by
  have derive : Follows (fun secrets => secrets.1 .hash = w.files .hash) _ (runMkpasswd a) _ :=
    runMkpasswd_follows a
  have create := createNew_follows 2 .hash ("creating temp hash file " ++ s.hashPath) a.createHash
    (w.files .hash)
  have flow := Follows.bind derive fun hash => Follows.next create fun _ =>
    Follows.next (writeAll_follows 2 .hash "writing the auth hash to the temp file" (asBytes hash)
      a.writeHash) fun _ =>
        writeAll_follows 2 .hash "writing the auth hash to the temp file" (asBytes "\n") a.writeNewline
  have kept := flow.keeping Prod.snd
    (writeHashFile_preserves s a (fun _ _ _ => rfl) fun _ _ => rfl) w.pkiDir
  refine kept.weaken ?_ fun _ _ holds => holds.2
  intro secrets same
  exact ⟨congrArg Prod.fst same, congrArg Prod.snd same⟩

theorem makePkiDir_follows (present : Bool) :
    Follows (fun secrets => secrets.2 = present)
      (calls 3 [unmarked (!present && a.createPki.isOk), unmarked a.restrictPki.isOk])
      (makePkiDir a) fun _ _ => True := by
  refine Follows.next (createPkiDir_follows 3 a.createPki present) fun _ => ?_
  exact (Follows.call 3 _ a.restrictPki).weaken (fun _ holds => holds) fun _ _ _ => trivial

theorem extractPki_follows (sopsPath : String) :
    Follows before (calls 3 (extractCalls a)) (extractPki a sopsPath) fun _ => before := by
  unfold extractCalls
  refine Follows.next (Follows.call 3 _ a.sops) fun decrypted => Follows.assume fun answer => ?_
  rw [answer]
  refine Follows.next (Follows.check 3 decrypted.success _) fun _ =>
    Follows.next (Follows.call 3 _ a.spawnTar) fun _ => Follows.assume fun _ =>
      Follows.next (Follows.call 3 _ a.feedTar) fun _ => Follows.assume fun _ =>
        Follows.next (Follows.call 3 _ a.waitTar) fun extracted => Follows.assume fun waited => ?_
  rw [waited]
  exact Follows.check 3 extracted _

theorem bundleRoot_follows (dir : String) :
    Follows before [.call 3 (unmarked (a.isDir (join dir "keys") || a.listPki.isOk))]
      (bundleRoot a dir) fun bundle secrets => bundle = bundleOf a dir ∧ before secrets := by
  unfold bundleRoot bundleOf
  cases a.isDir (join dir "keys") with
  | true => exact Follows.pure dir
  | false =>
      refine Follows.next (Follows.call 3 _ a.listPki) fun names => Follows.assume fun listed => ?_
      rw [listed]
      rcases names with _ | ⟨only, _ | ⟨second, more⟩⟩
      · exact Follows.pure dir
      · dsimp only
        cases wrapped : a.isDir (join dir only) && a.isDir (join (join dir only) "keys") with
        | true => exact Follows.silent (Follows.log _) fun _ => Follows.pure (join dir only)
        | false => exact Follows.pure dir
      · exact Follows.pure dir

theorem checkBundle_follows (sopsPath bundle : String) :
    Follows before [.call 3 (marked (requiredKeys.all fun required =>
      a.isFile (join bundle required)))] (checkBundle a sopsPath bundle) fun _ => before := by
  unfold checkBundle
  cases missing : requiredKeys.find? fun required => !a.isFile (join bundle required) with
  | none =>
      have complete : (requiredKeys.all fun required => a.isFile (join bundle required)) = true := by
        simpa using List.find?_eq_none.mp missing
      rw [complete]
      exact (Follows.pure ()).weaken (fun _ holds => holds) fun _ _ holds => holds.2
  | some required =>
      have lacking : (requiredKeys.all fun required => a.isFile (join bundle required)) = false := by
        have found := List.find?_some missing
        have member := List.mem_of_find?_eq_some missing
        exact List.all_eq_false.mpr ⟨required, member, by simpa using found⟩
      rw [lacking]
      exact Follows.bail 3 _

/-- The image that a run returns is the first `.raw` of the listing. -/
def FirstRaw (image : String) : Prop :=
  ∃ names name, a.readOutDir = .ok names ∧ names.find? isRaw = some name ∧ image = join s.outDir name

theorem buildImage_follows :
    Follows before (items 4 [.run (imageCalls a), .run (rawCalls a)]) (buildImage s a)
      fun image _ => FirstRaw s a image := by
  refine Follows.next (Follows.step 4 .running) fun _ =>
    Follows.next (Follows.call 4 _ a.createOutDir) fun _ => Follows.assume fun _ =>
      Follows.next (Follows.call 4 _ a.resolveScript) fun _ => Follows.assume fun _ =>
        Follows.child 4 _ a.script _ ?_
  refine Follows.next (Follows.step 4 .ok) fun _ => Follows.next (Follows.step 5 .running) fun _ =>
    Follows.next (Follows.call 5 _ a.readOutDir) fun names => Follows.assume fun listed => ?_
  split
  · rename_i found
    have missing : names.find? isRaw = none := found
    have absent : (answered a.readOutDir fun names => names.any isRaw) = false := by
      rw [listed]
      simpa [answered] using List.find?_eq_none.mp missing
    change Follows before [.call 5 (marked (answered a.readOutDir fun names => names.any isRaw)),
      .mark 5 .ok] _ _
    rw [absent]
    exact Follows.bail 5 _
  · rename_i name found
    have first : names.find? isRaw = some name := found
    have present : (answered a.readOutDir fun names => names.any isRaw) = true := by
      rw [listed]
      exact List.any_eq_true.mpr ⟨name, List.mem_of_find?_eq_some first, List.find?_some first⟩
    change Follows before [.call 5 (marked (answered a.readOutDir fun names => names.any isRaw)),
      .mark 5 .ok] _ _
    rw [present]
    refine Follows.passed 5 true (Follows.next (Follows.step 5 .ok) fun _ =>
      Follows.silent (Follows.log _) fun _ => ?_)
    refine (Follows.pure (join s.outDir name)).weaken (fun _ holds => holds) ?_
    rintro image _ ⟨rfl, _⟩
    exact ⟨names, name, listed, first, rfl⟩

/-- From the armed guard of the PKI directory on. -/
theorem bundleAndBuild_follows (sopsPath : String) :
    Follows before (calls 3 (extractCalls a) ++
      .call 3 (unmarked (a.isDir (join s.pkiPath "keys") || a.listPki.isOk)) ::
      .call 3 (marked (requiredKeys.all fun required => a.isFile (join (bundleOf a s.pkiPath) required))) ::
      .mark 3 .ok :: items 4 [.run (imageCalls a), .run (rawCalls a)])
      (extractPki a sopsPath >>= fun _ => bundleRoot a s.pkiPath >>= fun bundle =>
        checkBundle a sopsPath bundle >>= fun _ => step 3 .ok >>= fun _ => buildImage s a)
      fun image _ => FirstRaw s a image := by
  refine Follows.bind (extractPki_follows a sopsPath) fun _ =>
    Follows.next (bundleRoot_follows a s.pkiPath) fun bundle => Follows.assume fun same => ?_
  subst same
  exact Follows.next (checkBundle_follows a sopsPath (bundleOf a s.pkiPath)) fun _ =>
    Follows.next (Follows.step 3 .ok) fun _ => buildImage_follows s a

/-- What a run leaves of the secrets does not matter for the rest. -/
theorem injectPki_follows (w : World) :
    Follows (fun secrets => secrets.2 = w.pkiDir)
      (items 3 [pkiStage s a cfg w, .run (imageCalls a), .run (rawCalls a)]) (injectPki s a cfg)
      fun image _ => FirstRaw s a image := by
  unfold pkiStage injectPki
  cases cfg.sbKeysSops with
  | none =>
      exact Follows.silent (Follows.log _) fun _ => Follows.next (Follows.step 3 .skipped) fun _ =>
        buildImage_follows s a
  | some sopsFile =>
      have quiet : Preserves (fun w => marks w.events) (shredDirOnDrop a.removePki) :=
        shredDirOnDrop_preserves (fun _ _ => rfl) a.removePki
      have body : Follows (fun _ => True) _ _ fun image _ => FirstRaw s a image :=
        ((bundleAndBuild_follows s a (join s.base sopsFile)).guarded quiet).weaken
          (fun _ holds => holds) fun _ _ ⟨_, first⟩ => first
      have made := Follows.bind (makePkiDir_follows a w.pkiDir) fun _ => body
      exact Follows.next (Follows.step 3 .running) fun _ => made

theorem deriveHash_follows (w : World) :
    Follows (fun secrets => (secrets.1 .hash, secrets.2) = (w.files .hash, w.pkiDir))
      (items 2 [.run (hashCalls a w), pkiStage s a cfg w, .run (imageCalls a), .run (rawCalls a)])
      (deriveHash s a cfg) fun image _ => FirstRaw s a image := by
  have quiet : Preserves (fun w => marks w.events) (shredOnDrop .hash (a.shred .hash)) :=
    shredOnDrop_preserves (fun _ _ => rfl) _
  have rest := Follows.next (Follows.step 2 .ok) fun _ => injectPki_follows s a cfg w
  have body : Follows _ _ _ fun image _ => FirstRaw s a image :=
    (rest.guarded quiet).weaken (fun _ holds => holds) fun _ _ ⟨_, first⟩ => first
  have made := Follows.bind (writeHashFile_follows s a w) fun _ => body
  exact Follows.next (Follows.step 2 .running) fun _ => made

/-- The pipeline plays its table. -/
theorem runPipeline_follows (passphrase : String) (size : SizeOverride) (w : World) :
    Follows (fun secrets => secrets = w.secrets) (items 0 (stages s a cfg w))
      (runPipeline s a cfg passphrase size) fun image _ => FirstRaw s a image := by
  have quiet : Preserves (fun w => marks w.events) (shredOnDrop .key (a.shred .key)) :=
    shredOnDrop_preserves (fun _ _ => rfl) _
  have rest := Follows.next (Follows.step 1 .ok) fun _ => deriveHash_follows s a cfg w
  have body : Follows _ _ _ fun image _ => FirstRaw s a image :=
    (rest.guarded quiet).weaken (fun _ holds => holds) fun _ _ ⟨_, first⟩ => first
  have made := Follows.bind (writeKeyFile_follows s a passphrase w) fun _ => body
  exact Follows.bind (buildScript_follows a cfg size) fun _ =>
    Follows.next (Follows.step 1 .running) fun _ => made

end Steps

/-- A run that returns reports the trace of its table, and fails where the table does. -/
theorem runPipeline_trace (s : Setting) (a : Answers) (cfg : Config) (passphrase : String)
    (size : SizeOverride) (w : World) :
    Spec (fun world => world = w) (runPipeline s a cfg passphrase size)
      (.onReturn
        (fun image after => failedStep 0 (stages s a cfg w) = none ∧
          marks after.events = marks w.events ++ trace 0 (stages s a cfg w) ∧ FirstRaw s a image)
        fun _ after => failedStep 0 (stages s a cfg w) ≠ none ∧
          marks after.events = marks w.events ++ trace 0 (stages s a cfg w)) := by
  have flow := runPipeline_follows s a cfg passphrase size w (marks w.events)
  rw [play_items] at flow
  refine flow.weaken ?_ (fun _ _ holds => holds) (fun _ _ holds => holds) fun _ _ => trivial
  rintro _ rfl
  exact ⟨rfl, rfl⟩

end Nixnas.Tui.Build
