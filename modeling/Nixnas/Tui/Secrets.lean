import Nixnas.Tui.Build

/-!
# The secrets of a build

Which of the three secret paths a pipeline run leaves behind.  A guard protects
a secret from the operation after the one that arms it: the write after a
successful create, and the `chmod` after a successful `mkdir`, come before the
guard.  A run leaves nothing exactly when none of these fails and every armed
guard manages to remove its path.
-/

set_option autoImplicit false

namespace Nixnas.Tui.Build

open Nixnas.Logic Nixnas.Logic.Action
open Nixnas.Rust

/-! ## What a run reaches -/

def ScriptBuilt (a : Answers) : Prop := ∃ lines, a.nixBuild = .exited lines true

def HashDerived (a : Answers) : Prop :=
  a.spawnMkpasswd = .ok () ∧ a.feedMkpasswd = .ok () ∧
    ∃ out, a.waitMkpasswd = .ok out ∧
      (out.success && startsWith (trim out.stdout) "$y$") = true

def KeyCreated (a : Answers) (w : World) : Prop :=
  ScriptBuilt a ∧ w.files .key = none ∧ a.createKey = .ok ()

def HashCreated (a : Answers) (w : World) : Prop :=
  KeyCreated a w ∧ a.writeKey = .complete ∧ HashDerived a ∧ w.files .hash = none ∧
    a.createHash = .ok ()

def PkiCreated (a : Answers) (cfg : Config) (w : World) : Prop :=
  HashCreated a w ∧ a.writeHash = .complete ∧ a.writeNewline = .complete ∧
    cfg.sbKeysSops.isSome ∧ w.pkiDir = false ∧ a.createPki = .ok ()

/-- Every secret the run creates is finished before its guard is armed, and the
guard removes it. -/
structure Covered (a : Answers) (cfg : Config) (w : World) : Prop where
  key : KeyCreated a w → a.writeKey = .complete ∧ (a.shred .key).remove = true
  hash : HashCreated a w → a.writeHash = .complete ∧ a.writeNewline = .complete ∧
    (a.shred .hash).remove = true
  pki : PkiCreated a cfg w → a.restrictPki = .ok () ∧ a.removePki = true

/-- A secret path that was free is free. -/
structure CleansUp (before after : World) : Prop where
  files : ∀ file, before.files file = none → after.files file = none
  pki : before.pkiDir = false → after.pkiDir = false

/-! ## Operations that touch no secret -/

def World.secrets (w : World) : (SecretFile → Option Bytes) × Bool := (w.files, w.pkiDir)

/-- No event but the last one changes the part. -/
def Quiet {Part : Type} (part : World → Part) : Prop :=
  ∀ (event : BuildEvent) (w : World), event.isDone = false →
    part { w with events := w.events ++ [event] } = part w

theorem secrets_quiet : Quiet World.secrets := fun _ _ _ => rfl

section Touching

variable {Part : Type} {part : World → Part}

theorem send_preserves (quiet : Quiet part) {event : BuildEvent} (goesOn : event.isDone = false) :
    Preserves part (send event) :=
  Preserves.modify fun w => quiet event w goesOn

theorem ask_preserves {α : Type} (answer : α) : Preserves part (ask answer) :=
  Preserves.perform fun _ => rfl

theorem call_preserves {α : Type} (what : String) (answer : Except String α) :
    Preserves part (call what answer) :=
  Preserves.perform fun _ => rfl

theorem runStreamed_preserves (quiet : Quiet part) (what : String) (child : Child) :
    Preserves part (runStreamed what child) := by
  have logged : ∀ lines : List String, Preserves part (lines.forM log) := fun lines =>
    Preserves.forM fun line => send_preserves quiet rfl
  cases child with
  | spawnError e => exact call_preserves _ _
  | waitError lines e | exited lines success =>
      exact Preserves.bind (call_preserves _ _) fun _ =>
        Preserves.bind (logged lines) fun _ => call_preserves _ _

theorem check_preserves (quiet : Quiet part) (i : Nat) (success : Bool) (message : String) :
    Preserves part (check i success message) :=
  Preserves.ite (Preserves.pure _)
    (Preserves.bind (send_preserves quiet rfl) fun _ => Preserves.fail _)

theorem buildScript_preserves (quiet : Quiet part) (a : Answers) (cfg : Config)
    (size : SizeOverride) : Preserves part (buildScript a cfg size) :=
  Preserves.bind (send_preserves quiet rfl) fun _ =>
    Preserves.bind (send_preserves quiet rfl) fun _ =>
      Preserves.bind (runStreamed_preserves quiet _ _) fun _ =>
        Preserves.bind (check_preserves quiet _ _ _) fun _ => send_preserves quiet rfl

theorem spawnMkpasswd_preserves (quiet : Quiet part) (a : Answers) :
    Preserves part (spawnMkpasswd a) := by
  refine Preserves.bind (ask_preserves _) fun answer => ?_
  rcases answer with (_ | e) | _
  · exact Preserves.bind (send_preserves quiet rfl) fun _ => Preserves.fail _
  · exact Preserves.bind (send_preserves quiet rfl) fun _ => Preserves.fail _
  · exact Preserves.pure _

theorem runMkpasswd_preserves (quiet : Quiet part) (a : Answers) : Preserves part (runMkpasswd a) :=
  Preserves.bind (spawnMkpasswd_preserves quiet a) fun _ =>
    Preserves.bind (call_preserves _ _) fun _ => Preserves.bind (call_preserves _ _) fun _ =>
      Preserves.bind (check_preserves quiet _ _ _) fun _ => Preserves.pure _

theorem extractPki_preserves (quiet : Quiet part) (a : Answers) (sopsPath : String) :
    Preserves part (extractPki a sopsPath) :=
  Preserves.bind (call_preserves _ _) fun _ => Preserves.bind (check_preserves quiet _ _ _) fun _ =>
    Preserves.bind (call_preserves _ _) fun _ => Preserves.bind (call_preserves _ _) fun _ =>
      Preserves.bind (call_preserves _ _) fun _ => check_preserves quiet _ _ _

theorem bundleRoot_preserves (quiet : Quiet part) (a : Answers) (dir : String) :
    Preserves part (bundleRoot a dir) := by
  refine Preserves.ite (Preserves.pure _) (Preserves.bind (call_preserves _ _) fun names => ?_)
  split
  · exact Preserves.ite (Preserves.bind (send_preserves quiet rfl) fun _ => Preserves.pure _)
      (Preserves.pure _)
  · exact Preserves.pure _

theorem checkBundle_preserves (quiet : Quiet part) (a : Answers) (sopsPath bundle : String) :
    Preserves part (checkBundle a sopsPath bundle) := by
  unfold checkBundle
  split
  · exact Preserves.pure _
  · exact Preserves.bind (send_preserves quiet rfl) fun _ => Preserves.fail _

theorem buildImage_preserves (quiet : Quiet part) (s : Setting) (a : Answers) :
    Preserves part (buildImage s a) := by
  refine Preserves.bind (send_preserves quiet rfl) fun _ =>
    Preserves.bind (call_preserves _ _) fun _ => Preserves.bind (call_preserves _ _) fun _ =>
      Preserves.bind (runStreamed_preserves quiet _ _) fun _ =>
        Preserves.bind (check_preserves quiet _ _ _) fun _ =>
          Preserves.bind (send_preserves quiet rfl) fun _ =>
            Preserves.bind (send_preserves quiet rfl) fun _ =>
              Preserves.bind (call_preserves _ _) fun names => ?_
  split
  · exact Preserves.bind (send_preserves quiet rfl) fun _ => Preserves.fail _
  · exact Preserves.bind (send_preserves quiet rfl) fun _ =>
      Preserves.bind (send_preserves quiet rfl) fun _ => Preserves.pure _

end Touching

/-! ## What the operations decide -/

section Operations

variable {before : World → Prop} {P : Prop}

theorem call_spec {α : Type} (what : String) (answer : Except String α) :
    Spec before (call what answer) (.onReturn (fun value w => before w ∧ answer = .ok value)
      fun _ w => before w ∧ ∀ value, answer ≠ .ok value) := by
  refine Spec.perform (fun _ _ => trivial) (fun w value next holds run => ?_)
    fun w e next holds run => ?_
  · cases answer with
    | error e => cases run
    | ok found =>
        cases run
        exact ⟨holds, rfl⟩
  · cases answer with
    | error e =>
        cases run
        exact ⟨holds, fun _ impossible => by cases impossible⟩
    | ok found => cases run

theorem send_spec (event : BuildEvent) :
    Spec (fun _ => P) (send event) (.onReturn (fun _ _ => P) fun _ _ => False) :=
  Spec.modify fun _ holds => holds

theorem check_spec (i : Nat) (success : Bool) (message : String) :
    Spec (fun _ => P) (check i success message)
      (.onReturn (fun _ _ => P ∧ success = true) fun _ _ => P ∧ success = false) := by
  cases success with
  | true => exact Spec.pure fun _ holds => ⟨holds, rfl⟩
  | false =>
      refine Spec.bind (fun _ _ => P) ?_ fun _ => Spec.fail fun _ holds => ⟨holds, rfl⟩
      exact Spec.modify fun _ holds => holds

theorem runStreamed_spec (what : String) (child : Child) :
    Spec (fun _ => True) (runStreamed what child)
      (.onReturn (fun success _ => ∃ lines, child = .exited lines success)
        fun _ _ => ∀ lines success, child ≠ .exited lines success) := by
  have logged : ∀ (lines : List String) (fact : Prop),
      Spec (fun _ => True) (lines.forM log) (.onReturn (fun _ _ => True) fun _ _ => fact) := by
    intro lines fact
    exact Spec.forM (fun line => Spec.modify fun _ _ => trivial) fun _ _ => trivial
  cases child with
  | spawnError e =>
      refine (call_spec _ _).weaken (fun _ holds => holds) ?_ ?_ fun _ _ => trivial
      · exact fun _ _ ⟨_, impossible⟩ => by cases impossible
      · exact fun _ _ _ _ _ impossible => by cases impossible
  | waitError lines e =>
      refine Spec.bind (fun _ _ => True) ?_ fun _ => Spec.bind (fun _ _ => True) (logged lines _) ?_
      · refine (call_spec _ _).weaken (fun _ holds => holds) (fun _ _ _ => trivial) ?_
          fun _ _ => trivial
        exact fun _ _ _ _ _ impossible => by cases impossible
      · intro _
        refine (call_spec _ _).weaken (fun _ holds => holds) ?_ ?_ fun _ _ => trivial
        · exact fun _ _ ⟨_, impossible⟩ => by cases impossible
        · exact fun _ _ _ _ _ impossible => by cases impossible
  | exited lines success =>
      refine Spec.bind (fun _ _ => True) ?_ fun _ => Spec.bind (fun _ _ => True) (logged lines _) ?_
      · refine (call_spec _ _).weaken (fun _ holds => holds) (fun _ _ _ => trivial) ?_
          fun _ _ => trivial
        exact fun _ _ ⟨_, impossible⟩ => absurd rfl (impossible ())
      · intro _
        refine (call_spec _ _).weaken (fun _ holds => holds) ?_ ?_ fun _ _ => trivial
        · rintro value _ ⟨_, same⟩
          cases same
          exact ⟨lines, rfl⟩
        · exact fun _ _ ⟨_, impossible⟩ => absurd rfl (impossible success)

end Operations

theorem buildScript_spec (a : Answers) (cfg : Config) (size : SizeOverride) :
    Spec (fun _ => True) (buildScript a cfg size)
      (.onReturn (fun _ _ => ScriptBuilt a) fun _ _ => ¬ ScriptBuilt a) := by
  refine Spec.bind (fun _ _ => True) (Spec.modify fun _ _ => trivial) fun _ =>
    Spec.bind (fun _ _ => True) (Spec.modify fun _ _ => trivial) fun _ =>
      Spec.bind (fun success _ => ∃ lines, a.nixBuild = .exited lines success) ?_ fun success =>
        Spec.bind (fun _ _ => ScriptBuilt a) ?_ fun _ => ?_
  · refine (runStreamed_spec _ _).weaken (fun _ holds => holds) (fun _ _ holds => holds) ?_
      fun _ _ => trivial
    rintro _ _ never ⟨lines, built⟩
    exact never lines true built
  · refine (check_spec _ _ _).weaken (fun _ holds => holds) ?_ ?_ fun _ _ => trivial
    · rintro _ _ ⟨⟨lines, exited⟩, rfl⟩
      exact ⟨lines, exited⟩
    · rintro _ _ ⟨⟨lines, exited⟩, rfl⟩ ⟨others, built⟩
      rw [exited] at built
      cases built
  · exact (send_spec _).weaken (fun _ holds => holds) (fun _ _ holds => holds)
      (fun _ _ impossible => impossible.elim) fun _ _ => trivial

theorem spawnMkpasswd_spec (a : Answers) :
    Spec (fun _ => True) (spawnMkpasswd a)
      (.onReturn (fun _ _ => a.spawnMkpasswd = .ok ()) fun _ _ => a.spawnMkpasswd ≠ .ok ()) := by
  refine Spec.bind (fun answer _ => answer = a.spawnMkpasswd) ?_ fun answer => ?_
  · refine Spec.perform (fun _ _ => trivial) ?_ ?_ <;> rintro _ _ _ _ ⟨⟩
    rfl
  · have bailed : ∀ (e : SpawnError) (message : String),
        Spec (fun _ => Except.error e = a.spawnMkpasswd) (step 2 .fail >>= fun _ => fail message)
          (.onReturn (fun (_ : Unit) _ => a.spawnMkpasswd = .ok ())
            fun _ _ => a.spawnMkpasswd ≠ .ok ()) := by
      intro e message
      refine Spec.bind (fun _ _ => Except.error e = a.spawnMkpasswd)
        (Spec.modify fun _ holds => holds) fun _ => Spec.fail fun _ failed spawned => ?_
      rw [← failed] at spawned
      cases spawned
    rcases answer with (_ | e) | _
    · exact bailed .notFound _
    · exact bailed (.other e) _
    · exact Spec.pure fun _ holds => holds.symm

theorem runMkpasswd_spec (a : Answers) :
    Spec (fun _ => True) (runMkpasswd a)
      (.onReturn (fun _ _ => HashDerived a) fun _ _ => ¬ HashDerived a) := by
  refine Spec.bind (fun _ _ => a.spawnMkpasswd = .ok ()) ?_ fun _ =>
    Spec.bind (fun _ _ => a.spawnMkpasswd = .ok () ∧ a.feedMkpasswd = .ok ()) ?_ fun _ =>
      Spec.bind (fun out _ => (a.spawnMkpasswd = .ok () ∧ a.feedMkpasswd = .ok ()) ∧
        a.waitMkpasswd = .ok out) ?_ fun out => Spec.bind (fun _ _ => HashDerived a) ?_ fun _ => ?_
  · refine (spawnMkpasswd_spec a).weaken (fun _ holds => holds) (fun _ _ holds => holds) ?_
      fun _ _ => trivial
    exact fun _ _ failed derived => failed derived.1
  · refine (call_spec _ _).weaken (fun _ holds => holds) (fun _ _ holds => holds) ?_
      fun _ _ => trivial
    exact fun _ _ failed derived => failed.2 () derived.2.1
  · refine (call_spec _ _).weaken (fun _ holds => holds) (fun _ _ holds => holds) ?_
      fun _ _ => trivial
    rintro _ _ ⟨_, failed⟩ ⟨_, _, out, waited, _⟩
    exact failed out waited
  · refine (check_spec _ _ _).weaken (fun _ holds => holds) ?_ ?_ fun _ _ => trivial
    · rintro _ _ ⟨⟨⟨spawned, fed⟩, waited⟩, isHash⟩
      exact ⟨spawned, fed, out, waited, isHash⟩
    · rintro _ _ ⟨⟨_, waited⟩, noHash⟩ ⟨_, _, other, waitedOther, isHash⟩
      rw [waited] at waitedOther
      cases waitedOther
      rw [noHash] at isHash
      contradiction
  · exact Spec.pure fun _ holds => holds

/-! ## The secret a stage owns -/

theorem setFile_files (w : World) (file : SecretFile) (content : Option Bytes) :
    (w.setFile file content).files file = content := if_pos rfl

theorem setFile_other (w : World) {file other : SecretFile} (content : Option Bytes)
    (different : other ≠ file) : (w.setFile file content).files other = w.files other :=
  if_neg different

theorem createNew_spec (file : SecretFile) (what : String) (answer : Except String Unit)
    (content : Option Bytes) :
    Spec (fun w => w.files file = content) (createNew file what answer)
      (.onReturn (fun _ w => w.files file ≠ none ∧ content = none ∧ answer = .ok ())
        fun _ w => w.files file = content ∧ ¬ (content = none ∧ answer = .ok ())) := by
  refine Spec.perform (fun _ _ => trivial) (fun w value next holds run => ?_)
    fun w e next holds run => ?_
  · split at run <;> cases run
    rename_i free
    exact ⟨by simp [setFile_files], holds.symm.trans free, rfl⟩
  · split at run <;> cases run
    · rename_i taken
      refine ⟨holds, fun created => ?_⟩
      rw [← holds, taken] at created
      cases created.1
    · exact ⟨holds, fun created => by cases created.2⟩

theorem writeAll_spec (file : SecretFile) (what : String) (bytes : Bytes) (answer : WriteAll)
    (P : Prop) :
    Spec (fun w => w.files file ≠ none ∧ P) (writeAll file what bytes answer)
      (.onReturn (fun _ w => w.files file ≠ none ∧ P ∧ answer = .complete)
        fun _ w => w.files file ≠ none ∧ P ∧ answer ≠ .complete) := by
  refine Spec.perform (fun _ _ => trivial) (fun w value next holds run => ?_)
    fun w e next holds run => ?_
  · split at run <;> cases run
    exact ⟨by simpa [setFile_files] using holds.1, holds.2, rfl⟩
  · split at run <;> cases run
    exact ⟨by simpa [setFile_files] using holds.1, holds.2, by simp⟩

theorem shredOnDrop_spec (file : SecretFile) (answer : Shred) :
    Spec (fun w => w.files file ≠ none) (shredOnDrop file answer)
      (.finally fun w => w.files file = none ↔ answer.remove = true) := by
  refine Spec.bind (fun seen w => seen = w ∧ w.files file ≠ none)
    (Spec.get fun _ holds => ⟨rfl, holds⟩) fun seen => ?_
  cases present : seen.files file with
  | none =>
      refine Spec.pure ?_
      rintro w ⟨rfl, holds⟩
      exact absurd present holds
  | some content =>
      refine Spec.bind (fun _ w => w.files file ≠ none) ?_ fun _ => ?_
      · unfold overwrite
        split
        · refine Spec.perform (fun _ _ => trivial) ?_ ?_ <;> rintro w _ _ _ ⟨⟩
          change (w.setFile file _).files file ≠ none
          rw [setFile_files]
          exact Option.some_ne_none _
        · exact Spec.pure fun _ holds => holds.2
      · refine Spec.perform (fun _ _ => trivial) ?_ ?_ <;> rintro w _ _ holds ⟨⟩
        cases remove : answer.remove with
        | true => exact ⟨fun _ => rfl, fun _ => setFile_files w file none⟩
        | false => exact ⟨fun gone => absurd gone holds, fun impossible => by cases impossible⟩

theorem createPkiDir_spec (answer : Except String Unit) (present : Bool) :
    Spec (fun w => w.pkiDir = present) (createPkiDir answer)
      (.onReturn (fun _ w => w.pkiDir = true ∧ present = false ∧ answer = .ok ())
        fun _ w => w.pkiDir = present ∧ ¬ (present = false ∧ answer = .ok ())) := by
  refine Spec.perform (fun _ _ => trivial) (fun w value next holds run => ?_)
    fun w e next holds run => ?_
  · split at run
    · cases run
    · rename_i free
      split at run <;> cases run
      exact ⟨rfl, by simpa [holds] using free, rfl⟩
  · split at run
    · rename_i taken
      cases run
      refine ⟨holds, fun created => ?_⟩
      rw [← holds, taken] at created
      cases created.1
    · split at run <;> cases run
      exact ⟨holds, fun created => by cases created.2⟩

theorem shredDirOnDrop_spec (removed : Bool) :
    Spec (fun w => w.pkiDir = true) (shredDirOnDrop removed)
      (.finally fun w => w.pkiDir = false ↔ removed = true) := by
  refine Spec.perform (fun _ _ => trivial) ?_ ?_ <;> rintro w _ _ holds ⟨⟩
  cases removed with
  | true => exact ⟨fun _ => rfl, fun _ => rfl⟩
  | false =>
      constructor
      · intro gone
        exact absurd (holds.symm.trans gone) (by decide)
      · intro impossible
        cases impossible

/-! ## What a stage leaves alone -/

section Frame

variable {Part : Type} {part : World → Part} {file : SecretFile}

def KeepsFile (part : World → Part) (file : SecretFile) : Prop :=
  ∀ (w : World) (content : Option Bytes), part (w.setFile file content) = part w

def KeepsDir (part : World → Part) : Prop :=
  ∀ (w : World) (present : Bool), part { w with pkiDir := present } = part w

theorem createNew_preserves (keeps : KeepsFile part file) (what : String)
    (answer : Except String Unit) : Preserves part (createNew file what answer) := by
  apply Preserves.perform
  intro w
  split <;> simp [keeps w]

theorem writeAll_preserves (keeps : KeepsFile part file) (what : String) (bytes : Bytes)
    (answer : WriteAll) : Preserves part (writeAll file what bytes answer) := by
  apply Preserves.perform
  intro w
  split <;> simp [keeps w]

theorem shredOnDrop_preserves (keeps : KeepsFile part file) (answer : Shred) :
    Preserves part (shredOnDrop file answer) := by
  refine Preserves.bind Preserves.get fun w => ?_
  split
  · exact Preserves.pure _
  · refine Preserves.bind (Preserves.ite (Preserves.perform fun w => keeps w _) (Preserves.pure _))
      fun _ => Preserves.perform fun w => ?_
    split
    · exact keeps w none
    · rfl

theorem makePkiDir_preserves (keeps : KeepsDir part) (a : Answers) :
    Preserves part (makePkiDir a) := by
  refine Preserves.bind (Preserves.perform fun w => ?_) fun _ => call_preserves _ _
  split
  · rfl
  · split
    · rfl
    · exact keeps w true

theorem shredDirOnDrop_preserves (keeps : KeepsDir part) (removed : Bool) :
    Preserves part (shredDirOnDrop removed) := by
  apply Preserves.perform
  intro w
  split
  · exact keeps w false
  · rfl

variable (s : Setting) (a : Answers) (cfg : Config)

theorem bundleAndBuild_preserves (quiet : Quiet part) (sopsPath : String) :
    Preserves part (extractPki a sopsPath >>= fun _ => bundleRoot a s.pkiPath >>= fun bundle =>
      checkBundle a sopsPath bundle >>= fun _ => step 3 .ok >>= fun _ => buildImage s a) :=
  Preserves.bind (extractPki_preserves quiet _ _) fun _ =>
    Preserves.bind (bundleRoot_preserves quiet _ _) fun _ =>
      Preserves.bind (checkBundle_preserves quiet _ _ _) fun _ =>
        Preserves.bind (send_preserves quiet rfl) fun _ => buildImage_preserves quiet s a

theorem skipAndBuild_preserves (quiet : Quiet part) :
    Preserves part (log
      "(no sb_keys_sops configured — lanzaboote will autogenerate keys on first boot)" >>=
        fun _ => step 3 .skipped >>= fun _ => buildImage s a) :=
  Preserves.bind (send_preserves quiet rfl) fun _ =>
    Preserves.bind (send_preserves quiet rfl) fun _ => buildImage_preserves quiet s a

theorem injectPki_preserves (quiet : Quiet part) (keeps : KeepsDir part) :
    Preserves part (injectPki s a cfg) := by
  unfold injectPki
  split
  · exact Preserves.bind (send_preserves quiet rfl) fun _ =>
      Preserves.bind (makePkiDir_preserves keeps a) fun _ =>
        Preserves.guarded (shredDirOnDrop_preserves keeps _) (bundleAndBuild_preserves s a quiet _)
  · exact skipAndBuild_preserves s a quiet

theorem writeHashFile_preserves (quiet : Quiet part) (keeps : KeepsFile part .hash) :
    Preserves part (writeHashFile s a) :=
  Preserves.bind (runMkpasswd_preserves quiet a) fun _ =>
    Preserves.bind (createNew_preserves keeps _ _) fun _ =>
      Preserves.bind (writeAll_preserves keeps _ _ _) fun _ => writeAll_preserves keeps _ _ _

theorem deriveHash_preserves (quiet : Quiet part) (keepsDir : KeepsDir part)
    (keepsHash : KeepsFile part .hash) : Preserves part (deriveHash s a cfg) :=
  Preserves.bind (send_preserves quiet rfl) fun _ =>
    Preserves.bind (writeHashFile_preserves s a quiet keepsHash) fun _ =>
      Preserves.guarded (shredOnDrop_preserves keepsHash _)
        (Preserves.bind (send_preserves quiet rfl) fun _ =>
          injectPki_preserves s a cfg quiet keepsDir)

theorem writeKeyFile_preserves (keeps : KeepsFile part .key) (passphrase : String) :
    Preserves part (writeKeyFile s a passphrase) :=
  Preserves.bind (createNew_preserves keeps _ _) fun _ => writeAll_preserves keeps _ _ _

theorem runPipeline_preserves (quiet : Quiet part) (keepsDir : KeepsDir part)
    (keepsFile : ∀ file, KeepsFile part file) (passphrase : String) (size : SizeOverride) :
    Preserves part (runPipeline s a cfg passphrase size) :=
  Preserves.bind (buildScript_preserves quiet a cfg size) fun _ =>
    Preserves.bind (send_preserves quiet rfl) fun _ =>
      Preserves.bind (writeKeyFile_preserves s a (keepsFile .key) passphrase) fun _ =>
        Preserves.guarded (shredOnDrop_preserves (keepsFile .key) _)
          (Preserves.bind (send_preserves quiet rfl) fun _ =>
            deriveHash_preserves s a cfg quiet keepsDir (keepsFile .hash))

end Frame

/-! ## One stage after the other -/

section Stages

variable (s : Setting) (a : Answers) (cfg : Config)

theorem makePkiDir_spec (present : Bool) :
    Spec (fun w => w.pkiDir = present) (makePkiDir a)
      (.makes World.pkiDir (· = false) present (present = false ∧ a.createPki = .ok ())
        (a.restrictPki = .ok ())) := by
  refine Spec.bind _ ((createPkiDir_spec a.createPki present).weaken (fun _ holds => holds)
    (fun _ _ holds => holds) (fun _ _ => .inl) fun _ _ => trivial) fun _ => ?_
  refine (call_spec _ _).weaken (fun _ holds => holds) ?_ ?_ fun _ _ => trivial
  · rintro _ w ⟨⟨made, reached⟩, restricted⟩
    exact ⟨by simp [made], reached, restricted⟩
  · rintro _ w ⟨⟨made, reached⟩, failed⟩
    exact .inr ⟨by simp [made], reached, failed ()⟩

theorem injectPki_spec (present : Bool) :
    Spec (fun w => w.pkiDir = present) (injectPki s a cfg)
      (.finally fun w => (present = false → w.pkiDir = false) ↔
        (cfg.sbKeysSops.isSome = true ∧ present = false ∧ a.createPki = .ok () →
          a.restrictPki = .ok () ∧ a.removePki = true)) := by
  have quiet : Quiet World.pkiDir := fun _ _ _ => rfl
  unfold injectPki
  cases cfg.sbKeysSops with
  | none =>
      refine ((skipAndBuild_preserves s a quiet).spec present).weaken (fun _ holds => holds)
        ?_ ?_ fun _ _ => trivial <;>
      · intro _ w same
        exact ⟨fun _ reached => by simp at reached, fun _ gone => same.trans gone⟩
  | some sopsFile =>
      have drop : Spec (fun w => ¬ w.pkiDir = false) (shredDirOnDrop a.removePki)
          (.finally fun w => w.pkiDir = false ↔ a.removePki = true) :=
        (shredDirOnDrop_spec a.removePki).weaken (fun _ made => by simpa using made)
          (fun _ _ holds => holds) (fun _ _ holds => holds) fun _ _ => trivial
      refine Spec.bind (fun _ w => w.pkiDir = present) (Spec.modify fun _ holds => holds)
        fun _ => ?_
      refine (Spec.scoped And.left (makePkiDir_spec a present)
        (fun _ => bundleAndBuild_preserves s a quiet _) drop).weaken
        (fun _ holds => holds) ?_ ?_ fun _ _ => trivial <;>
      · intro _ w covered
        simpa using covered

theorem writeHashFile_spec (content : Option Bytes) :
    Spec (fun w => w.files .hash = content) (writeHashFile s a)
      (.makes (fun w => w.files .hash) (· = none) content
        (HashDerived a ∧ content = none ∧ a.createHash = .ok ())
        (a.writeHash = .complete ∧ a.writeNewline = .complete)) := by
  have quiet : Quiet fun w => w.files .hash := fun _ _ _ => rfl
  have derived := ((runMkpasswd_preserves quiet a).spec content).and (runMkpasswd_spec a)
  refine Spec.bind (fun _ w => HashDerived a ∧ w.files .hash = content) ?_ fun hash =>
    Spec.assume fun isHash => Spec.bind (fun _ w => w.files .hash ≠ none ∧ HashDerived a ∧
      content = none ∧ a.createHash = .ok ()) ?_ fun _ => Spec.bind (fun _ w => w.files .hash ≠ none ∧
        (HashDerived a ∧ content = none ∧ a.createHash = .ok ()) ∧ a.writeHash = .complete) ?_
          fun _ => ?_
  · refine derived.weaken (fun _ holds => ⟨holds, trivial⟩) (fun _ _ holds => ⟨holds.2, holds.1⟩) ?_
      fun _ _ => trivial
    exact fun _ _ ⟨same, failed⟩ => .inl ⟨same, fun reached => failed reached.1⟩
  · refine (createNew_spec _ _ _ content).weaken (fun _ holds => holds) ?_ ?_ fun _ _ => trivial
    · exact fun _ _ ⟨present, created⟩ => ⟨present, isHash, created⟩
    · exact fun _ _ ⟨same, failed⟩ => .inl ⟨same, fun reached => failed reached.2⟩
  · refine (writeAll_spec _ _ _ _ _).weaken (fun _ holds => holds) (fun _ _ holds => holds) ?_
      fun _ _ => trivial
    exact fun _ _ ⟨present, reached, failed⟩ => .inr ⟨present, reached, fun done => failed done.1⟩
  · refine (writeAll_spec _ _ _ _ _).weaken (fun _ holds => holds) ?_ ?_ fun _ _ => trivial
    · exact fun _ _ ⟨present, ⟨reached, first⟩, second⟩ => ⟨by simpa using present, reached, first, second⟩
    · exact fun _ _ ⟨present, ⟨reached, _⟩, failed⟩ =>
        .inr ⟨present, reached, fun done => failed done.2⟩

theorem writeKeyFile_spec (passphrase : String) (content : Option Bytes) :
    Spec (fun w => w.files .key = content) (writeKeyFile s a passphrase)
      (.makes (fun w => w.files .key) (· = none) content
        (content = none ∧ a.createKey = .ok ()) (a.writeKey = .complete)) := by
  refine Spec.bind (fun _ w => w.files .key ≠ none ∧ content = none ∧ a.createKey = .ok ()) ?_
    fun _ => ?_
  · exact (createNew_spec _ _ _ content).weaken (fun _ holds => holds) (fun _ _ holds => holds)
      (fun _ _ => .inl) fun _ _ => trivial
  · exact (writeAll_spec _ _ _ _ _).weaken (fun _ holds => holds) (fun _ _ holds => holds)
      (fun _ _ => .inr) fun _ _ => trivial

theorem keepsOthers_key : KeepsFile (fun w => (w.files .hash, w.pkiDir)) .key := by
  intro w content
  simp only [setFile_other w content (show SecretFile.hash ≠ SecretFile.key by decide)]
  rfl

theorem deriveHash_preserves_key : Preserves (fun w => w.files .key) (deriveHash s a cfg) :=
  deriveHash_preserves s a cfg (fun _ _ _ => rfl) (fun _ _ => rfl) fun w content =>
    setFile_other w content (by decide)

theorem deriveHash_hash (content : Option Bytes) :
    Spec (fun w => w.files .hash = content) (deriveHash s a cfg)
      (.finally fun w => (content = none → w.files .hash = none) ↔
        (HashDerived a ∧ content = none ∧ a.createHash = .ok () →
          (a.writeHash = .complete ∧ a.writeNewline = .complete) ∧
            (a.shred .hash).remove = true)) := by
  refine Spec.bind (fun _ w => w.files .hash = content) (Spec.modify fun _ holds => holds) fun _ => ?_
  refine Spec.scoped (fun reached => reached.2.1) (writeHashFile_spec s a content) (fun _ => ?_)
    (shredOnDrop_spec .hash (a.shred .hash))
  have quiet : Quiet fun w => w.files .hash := fun _ _ _ => rfl
  exact Preserves.bind (send_preserves quiet rfl) fun _ =>
    injectPki_preserves s a cfg quiet fun _ _ => rfl

theorem deriveHash_pki (content : Option Bytes) (present : Bool) :
    Spec (fun w => w.files .hash = content ∧ w.pkiDir = present) (deriveHash s a cfg)
      (.finally fun w => (present = false → w.pkiDir = false) ↔
        ((HashDerived a ∧ content = none ∧ a.createHash = .ok ()) ∧
          (a.writeHash = .complete ∧ a.writeNewline = .complete) ∧
            cfg.sbKeysSops.isSome = true ∧ present = false ∧ a.createPki = .ok () →
              a.restrictPki = .ok () ∧ a.removePki = true)) := by
  have quiet : Quiet World.pkiDir := fun _ _ _ => rfl
  have keeps : KeepsFile World.pkiDir .hash := fun _ _ => rfl
  have hashFile := (writeHashFile_spec s a content).and
    ((writeHashFile_preserves s a quiet keeps).spec present)
  refine Spec.bind (fun _ w => w.files .hash = content ∧ w.pkiDir = present)
    (Spec.modify fun _ holds => holds) fun _ => Spec.bind (fun _ w =>
      (HashDerived a ∧ content = none ∧ a.createHash = .ok ()) ∧
        (a.writeHash = .complete ∧ a.writeNewline = .complete) ∧ w.pkiDir = present) ?_ fun _ => ?_
  · refine hashFile.weaken (fun _ holds => holds) ?_ ?_ fun _ _ => trivial
    · exact fun _ _ ⟨⟨_, reached, finished⟩, same⟩ => ⟨reached, finished, same⟩
    · rintro _ w ⟨failed, same⟩
      refine ⟨fun _ reached => ?_, fun _ gone => same.trans gone⟩
      rcases failed with ⟨_, unreached⟩ | ⟨_, _, unfinished⟩
      · exact absurd reached.1 unreached
      · exact absurd reached.2.1 unfinished
  · refine Spec.assume fun reached => Spec.assume fun finished => ?_
    refine Spec.guarded_frame World.pkiDir (fun pki => (present = false → pki = false) ↔ _) ?_
      (shredOnDrop_preserves keeps _)
    refine Spec.bind (fun _ w => w.pkiDir = present) (Spec.modify fun _ holds => holds) fun _ => ?_
    refine (injectPki_spec s a cfg present).weaken (fun _ holds => holds) ?_ ?_ fun _ _ => trivial <;>
    · intro _ w covered
      exact covered.trans ⟨fun rest all => rest all.2.2, fun rest pki => rest ⟨reached, finished, pki⟩⟩

/-- The key file is written, so that its guard is armed. -/
def KeyDone (content : Option Bytes) : Prop :=
  ScriptBuilt a ∧ (content = none ∧ a.createKey = .ok ()) ∧ a.writeKey = .complete

theorem runPipeline_key (passphrase : String) (size : SizeOverride) (content : Option Bytes) :
    Spec (fun w => w.files .key = content) (runPipeline s a cfg passphrase size)
      (.finally fun w => (content = none → w.files .key = none) ↔
        (ScriptBuilt a ∧ content = none ∧ a.createKey = .ok () →
          a.writeKey = .complete ∧ (a.shred .key).remove = true)) := by
  have quiet : Quiet fun w => w.files .key := fun _ _ _ => rfl
  have script := ((buildScript_preserves quiet a cfg size).spec
    content).and (buildScript_spec a cfg size)
  refine Spec.bind (fun _ w => ScriptBuilt a ∧ w.files .key = content) ?_ fun _ =>
    Spec.assume fun built => ?_
  · refine script.weaken (fun _ holds => ⟨holds, trivial⟩) (fun _ _ holds => ⟨holds.2, holds.1⟩) ?_
      fun _ _ => trivial
    exact fun _ w ⟨same, failed⟩ => ⟨fun _ reached => absurd reached.1 failed,
      fun _ gone => same.trans gone⟩
  · refine Spec.bind (fun _ w => w.files .key = content) (Spec.modify fun _ holds => holds) fun _ => ?_
    refine (Spec.scoped And.left (writeKeyFile_spec s a passphrase content) (fun _ => ?_)
      (shredOnDrop_spec .key (a.shred .key))).weaken (fun _ holds => holds) ?_ ?_ fun _ _ => trivial
    · exact Preserves.bind (send_preserves quiet rfl) fun _ => deriveHash_preserves_key s a cfg
    all_goals
      intro _ w covered
      exact covered.trans ⟨fun rest all => rest all.2, fun rest key => rest ⟨built, key⟩⟩

/-- A fact about the other two secrets that holds when the key stage fails, and
that the stages under its guard establish. -/
theorem runPipeline_others (passphrase : String) (size : SizeOverride) (content : Option Bytes)
    (others : Option Bytes × Bool) (fact : Option Bytes × Bool → Prop)
    (undone : ¬ KeyDone a content → fact others)
    (done : KeyDone a content → Spec (fun w => (w.files .hash, w.pkiDir) = others)
      (deriveHash s a cfg) (.finally fun w => fact (w.files .hash, w.pkiDir))) :
    Spec (fun w => w.files .key = content ∧ (w.files .hash, w.pkiDir) = others)
      (runPipeline s a cfg passphrase size)
      (.finally fun w => fact (w.files .hash, w.pkiDir)) := by
  have script := (((buildScript_preserves secrets_quiet a cfg size).comp
    fun secrets => (secrets.1 .key, secrets.1 .hash, secrets.2)).spec (content, others)).and
      (buildScript_spec a cfg size)
  refine Spec.bind (fun _ w => ScriptBuilt a ∧ w.files .key = content ∧
    (w.files .hash, w.pkiDir) = others) ?_ fun _ => Spec.assume fun built => ?_
  · refine script.weaken ?_ ?_ ?_ fun _ _ => trivial
    · rintro w ⟨rfl, rfl⟩
      exact ⟨rfl, trivial⟩
    · rintro _ w ⟨same, built⟩
      exact ⟨built, congrArg Prod.fst same, congrArg Prod.snd same⟩
    · rintro _ w ⟨same, failed⟩
      have kept : (w.files .hash, w.pkiDir) = others := congrArg Prod.snd same
      change fact (w.files .hash, w.pkiDir)
      rw [kept]
      exact undone fun done => failed done.1
  · have keyFile := (writeKeyFile_spec s a passphrase content).and
      ((writeKeyFile_preserves s a keepsOthers_key passphrase).spec others)
    refine Spec.bind (fun _ w => w.files .key = content ∧ (w.files .hash, w.pkiDir) = others)
      (Spec.modify fun _ holds => holds) fun _ => Spec.bind (fun _ w => KeyDone a content ∧
        (w.files .hash, w.pkiDir) = others) ?_ fun _ => Spec.assume fun isDone => ?_
    · refine keyFile.weaken (fun _ holds => holds) ?_ ?_ fun _ _ => trivial
      · exact fun _ w ⟨⟨_, reached, finished⟩, same⟩ => ⟨⟨built, reached, finished⟩, same⟩
      · rintro _ w ⟨failed, same⟩
        change fact (w.files .hash, w.pkiDir)
        rw [same]
        refine undone fun isDone => ?_
        rcases failed with ⟨_, unreached⟩ | ⟨_, _, unfinished⟩
        · exact unreached isDone.2.1
        · exact unfinished isDone.2.2
    · refine Spec.guarded_frame (fun w : World => (w.files .hash, w.pkiDir)) fact ?_
        (shredOnDrop_preserves keepsOthers_key _)
      exact Spec.bind (fun _ w => (w.files .hash, w.pkiDir) = others)
        (Spec.modify fun _ holds => holds) fun _ => done isDone

end Stages

section Whole

variable (s : Setting) (a : Answers) (cfg : Config) (passphrase : String) (size : SizeOverride)

theorem runPipeline_hash (content hash : Option Bytes) :
    Spec (fun w => w.files .key = content ∧ w.files .hash = hash)
      (runPipeline s a cfg passphrase size)
      (.finally fun w => (hash = none → w.files .hash = none) ↔
        (KeyDone a content ∧ HashDerived a ∧ hash = none ∧ a.createHash = .ok () →
          (a.writeHash = .complete ∧ a.writeNewline = .complete) ∧
            (a.shred .hash).remove = true)) := by
  intro w fuel holds
  refine runPipeline_others s a cfg passphrase size content (hash, w.pkiDir)
    (fun others => (hash = none → others.1 = none) ↔ _) ?_ (fun done => ?_) w fuel
    ⟨holds.1, by rw [holds.2]⟩
  · exact fun undone => ⟨fun _ reached => absurd reached.1 undone, fun _ gone => gone⟩
  · refine (deriveHash_hash s a cfg hash).weaken (fun _ same => congrArg Prod.fst same) ?_ ?_
      fun _ _ => trivial <;>
    · intro _ w covered
      exact covered.trans ⟨fun rest all => rest all.2, fun rest reached => rest ⟨done, reached⟩⟩

theorem runPipeline_pki (content hash : Option Bytes) (present : Bool) :
    Spec (fun w => w.files .key = content ∧ w.files .hash = hash ∧ w.pkiDir = present)
      (runPipeline s a cfg passphrase size)
      (.finally fun w => (present = false → w.pkiDir = false) ↔
        (KeyDone a content ∧ (HashDerived a ∧ hash = none ∧ a.createHash = .ok ()) ∧
          (a.writeHash = .complete ∧ a.writeNewline = .complete) ∧
            cfg.sbKeysSops.isSome = true ∧ present = false ∧ a.createPki = .ok () →
              a.restrictPki = .ok () ∧ a.removePki = true)) := by
  intro w fuel holds
  refine runPipeline_others s a cfg passphrase size content (hash, present)
    (fun others => (present = false → others.2 = false) ↔ _) ?_ (fun done => ?_) w fuel
    ⟨holds.1, by rw [holds.2.1, holds.2.2]⟩
  · exact fun undone => ⟨fun _ reached => absurd reached.1 undone, fun _ gone => gone⟩
  · refine (deriveHash_pki s a cfg hash present).weaken
      (fun _ same => ⟨congrArg Prod.fst same, congrArg Prod.snd same⟩) ?_ ?_ fun _ _ => trivial <;>
    · intro _ w covered
      exact covered.trans ⟨fun rest all => rest all.2, fun rest reached => rest ⟨done, reached⟩⟩

section Returned

variable {w : World} {fuel : Nat}
  (returned : (runPipeline s a cfg passphrase size w fuel).returned ≠ none)

include returned

theorem keyCleared_iff :
    (w.files .key = none → (runPipeline s a cfg passphrase size w fuel).world.files .key = none) ↔
      (KeyCreated a w → a.writeKey = .complete ∧ (a.shred .key).remove = true) :=
  (runPipeline_key s a cfg passphrase size (w.files .key)).at_return rfl returned

theorem hashCleared_iff :
    (w.files .hash = none → (runPipeline s a cfg passphrase size w fuel).world.files .hash = none) ↔
      (HashCreated a w → a.writeHash = .complete ∧ a.writeNewline = .complete ∧
        (a.shred .hash).remove = true) := by
  have hash := (runPipeline_hash s a cfg passphrase size (w.files .key) (w.files .hash)).at_return
    ⟨rfl, rfl⟩ returned
  refine hash.trans ⟨?_, ?_⟩
  · rintro covered ⟨⟨built, keyCreated⟩, keyWritten, reached⟩
    obtain ⟨⟨written, newline⟩, removed⟩ := covered ⟨⟨built, keyCreated, keyWritten⟩, reached⟩
    exact ⟨written, newline, removed⟩
  · rintro covered ⟨⟨built, keyCreated, keyWritten⟩, reached⟩
    obtain ⟨written, newline, removed⟩ := covered ⟨⟨built, keyCreated⟩, keyWritten, reached⟩
    exact ⟨⟨written, newline⟩, removed⟩

theorem pkiCleared_iff :
    (w.pkiDir = false → (runPipeline s a cfg passphrase size w fuel).world.pkiDir = false) ↔
      (PkiCreated a cfg w → a.restrictPki = .ok () ∧ a.removePki = true) := by
  have pki := (runPipeline_pki s a cfg passphrase size (w.files .key) (w.files .hash)
    w.pkiDir).at_return ⟨rfl, rfl, rfl⟩ returned
  refine pki.trans ⟨?_, ?_⟩
  · rintro covered ⟨⟨⟨built, keyCreated⟩, keyWritten, reached⟩, written, newline, configured⟩
    exact covered ⟨⟨built, keyCreated, keyWritten⟩, reached, ⟨written, newline⟩, configured⟩
  · rintro covered ⟨⟨built, keyCreated, keyWritten⟩, reached, ⟨written, newline⟩, configured⟩
    exact covered ⟨⟨⟨built, keyCreated⟩, keyWritten, reached⟩, written, newline, configured⟩

theorem cleansUp_of_covered (covered : Covered a cfg w) :
    CleansUp w (runPipeline s a cfg passphrase size w fuel).world where
  files file := by
    cases file with
    | key => exact (keyCleared_iff s a cfg passphrase size returned).mpr covered.key
    | hash => exact (hashCleared_iff s a cfg passphrase size returned).mpr covered.hash
  pki := (pkiCleared_iff s a cfg passphrase size returned).mpr covered.pki

theorem covered_of_cleansUp
    (clean : CleansUp w (runPipeline s a cfg passphrase size w fuel).world) : Covered a cfg w where
  key := (keyCleared_iff s a cfg passphrase size returned).mp (clean.files .key)
  hash := (hashCleared_iff s a cfg passphrase size returned).mp (clean.files .hash)
  pki := (pkiCleared_iff s a cfg passphrase size returned).mp clean.pki

end Returned

/-- A run that returns, with a value or an error, leaves none of the secrets it
created exactly when every one was finished before its guard and removed by it. -/
theorem runPipeline_cleansUp_iff (w : World) (fuel : Nat)
    (returned : (runPipeline s a cfg passphrase size w fuel).returned ≠ none) :
    CleansUp w (runPipeline s a cfg passphrase size w fuel).world ↔ Covered a cfg w :=
  ⟨covered_of_cleansUp s a cfg passphrase size returned,
    cleansUp_of_covered s a cfg passphrase size returned⟩

end Whole

/-- Every operation succeeds; the configuration has no Secure Boot PKI. -/
def Answers.good : Answers where
  nixBuild := .exited [] true
  createKey := .ok ()
  writeKey := .complete
  spawnMkpasswd := .ok ()
  feedMkpasswd := .ok ()
  waitMkpasswd := .ok ⟨true, "$y$j9T$salt$hash\n", ""⟩
  createHash := .ok ()
  writeHash := .complete
  writeNewline := .complete
  createPki := .ok ()
  restrictPki := .ok ()
  sops := .error "No such file or directory (os error 2)"
  spawnTar := .ok ()
  feedTar := .ok ()
  waitTar := .ok true
  isDir _ := false
  isFile _ := false
  listPki := .ok []
  createOutDir := .ok ()
  resolveScript := .ok "/nix/store/script"
  script := .exited [] true
  readOutDir := .ok ["nixnas.raw"]
  shred _ := ⟨true, true, 64, true⟩
  removePki := true

/-- The disk of the temporary directory is full when the passphrase is written. -/
def Answers.full : Answers :=
  { Answers.good with writeKey := .failed 0 "No space left on device (os error 28)" }

def Config.plain : Config := ⟨none, "imageScript", none⟩

def Setting.shm : Setting := ⟨"/dev/shm", 4711, "/etc/nixnas"⟩

def World.clear : World := ⟨fun _ => none, false, []⟩

theorem good_run_cleansUp :
    CleansUp World.clear (runPipeline .shm .good .plain "secret" .fixed World.clear 100).world :=
  (runPipeline_cleansUp_iff .shm .good .plain "secret" .fixed World.clear 100
    (Option.isSome_iff_ne_none.mp rfl)).mpr
    ⟨fun _ => ⟨rfl, rfl⟩, fun _ => ⟨rfl, rfl, rfl⟩, fun _ => ⟨rfl, rfl⟩⟩

theorem full_disk_leaves_key :
    ¬ ∀ (s : Setting) (a : Answers) (cfg : Config) (passphrase : String) (size : SizeOverride)
      (w : World) (fuel : Nat), (runPipeline s a cfg passphrase size w fuel).returned ≠ none →
        CleansUp w (runPipeline s a cfg passphrase size w fuel).world := by
  intro cleans
  have clean := cleans .shm .full .plain "secret" .fixed World.clear 100
    (Option.isSome_iff_ne_none.mp rfl)
  have gone : some [] = none := clean.files .key rfl
  cases gone

end Nixnas.Tui.Build
