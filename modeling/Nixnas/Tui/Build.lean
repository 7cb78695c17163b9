import Nixnas.Logic.Effect
import Nixnas.Rust.Text

/-!
# The build pipeline

`run_pipeline` of `src/tui/src/build.rs`, one operation at a time: the image
script, the passphrase file, the auth hash, the Secure Boot PKI, the builder VM
and the search for the built `.raw`, with the two kinds of guard that shred the
secrets.

`Answers` holds what the operating system and the child processes answer to
each operation of one run.  The world is the three secret paths of this process
and the events sent so far.
-/

set_option autoImplicit false

namespace Nixnas.Tui.Build

open Nixnas.Logic Nixnas.Logic.Action
open Nixnas.Rust

/-! ## Data -/

/-- The fields of `config::Config` that the pipeline itself reads; the others
only reach its child processes. -/
structure Config where
  sbKeysSops : Option String
  imageAttr : String
  hostAttr : Option String

inductive SizeOverride where
  | fixed
  | gib (n : Nat)
  | bytes (n : Nat)
  deriving DecidableEq, Repr

inductive StepState where
  | pending
  | running
  | ok
  | skipped
  | fail
  deriving DecidableEq, Repr

inductive BuildEvent where
  | step (i : Nat) (state : StepState)
  | log (line : String)
  | done (result : Except String String)

def BuildEvent.isDone : BuildEvent → Bool
  | .done _ => true
  | _ => false

/-- The step checklist; its indices are those of `BuildEvent.step`. -/
def stepNames : List String :=
  ["Evaluate image script (nix build)", "LUKS store passphrase → RAM file",
    "Console auth hash (mkpasswd) → RAM file", "Secure Boot PKI (sops decrypt + inject)",
    "disko builder VM (write .raw)", ".raw image ready"]

/-- The two secret files; the PKI directory is the third secret path. -/
inductive SecretFile where
  | key
  | hash
  deriving DecidableEq, Repr

structure World where
  files : SecretFile → Option Bytes
  pkiDir : Bool
  events : List BuildEvent

/-- What the process knows from the start: `secure_tmp`, its id, and
`config_dir` of the config path. -/
structure Setting where
  secureTmp : String
  pid : Nat
  base : String

def Setting.keyPath (s : Setting) : String := join s.secureTmp ("nixnas-luks-" ++ toString s.pid)

def Setting.hashPath (s : Setting) : String :=
  join s.secureTmp ("nixnas-auth-hash-" ++ toString s.pid)

def Setting.pkiPath (s : Setting) : String := join s.secureTmp ("nixnas-sbpki-" ++ toString s.pid)

def Setting.outDir (s : Setting) : String := join s.base ".nixnas-image"

/-! ## Answers of the environment -/

/-- A child run with its output streamed to the log pane. -/
inductive Child where
  | spawnError (e : String)
  | waitError (lines : List String) (e : String)
  | exited (lines : List String) (success : Bool)

/-- `write_all`: how many bytes reach the file, and the error if not all do. -/
inductive WriteAll where
  | complete
  | failed (written : Nat) (e : String)

inductive SpawnError where
  | notFound
  | other (e : String)

structure Output where
  success : Bool
  stdout : String
  stderr : String

/-- The steps of `ShredOnDrop::drop` that may fail. -/
structure Shred where
  metadata : Bool
  openFile : Bool
  zeroed : Nat
  remove : Bool

structure Answers where
  nixBuild : Child
  createKey : Except String Unit
  writeKey : WriteAll
  spawnMkpasswd : Except SpawnError Unit
  feedMkpasswd : Except String Unit
  waitMkpasswd : Except String Output
  createHash : Except String Unit
  writeHash : WriteAll
  writeNewline : WriteAll
  createPki : Except String Unit
  restrictPki : Except String Unit
  sops : Except String Output
  spawnTar : Except String Unit
  feedTar : Except String Unit
  waitTar : Except String Bool
  isDir : String → Bool
  isFile : String → Bool
  listPki : Except String (List String)
  createOutDir : Except String Unit
  resolveScript : Except String String
  script : Child
  readOutDir : Except String (List String)
  shred : SecretFile → Shred
  removePki : Bool

/-! ## Operations -/

abbrev Step := Action World String

def send (event : BuildEvent) : Step Unit := modify fun w => { w with events := w.events ++ [event] }

def step (i : Nat) (state : StepState) : Step Unit := send (.step i state)

def log (line : String) : Step Unit := send (.log line)

/-- An error under a `.context(…)`, as `{e:#}` renders it. -/
def context (what e : String) : String := what ++ ": " ++ e

/-- An operation that changes none of the secret paths. -/
def ask {α : Type} (answer : α) : Step α := perform fun w => (.ok answer, w)

/-- The same under `.context(what)?`. -/
def call {α : Type} (what : String) (answer : Except String α) : Step α :=
  perform fun w => (answer.mapError (context what), w)

def World.setFile (w : World) (file : SecretFile) (content : Option Bytes) : World :=
  { w with files := fun other => if other = file then content else w.files other }

/-- `OpenOptions::new().write(true).create_new(true).mode(0o600).open(path)`. -/
def createNew (file : SecretFile) (what : String) (answer : Except String Unit) : Step Unit :=
  perform fun w =>
    match w.files file, answer with
    | some _, _ => (.error (context what "File exists (os error 17)"), w)
    | none, .error e => (.error (context what e), w)
    | none, .ok () => (.ok (), w.setFile file (some []))

/-- `f.write_all(bytes)` after what is written so far. -/
def writeAll (file : SecretFile) (what : String) (bytes : Bytes) (answer : WriteAll) : Step Unit :=
  perform fun w =>
    match answer with
    | .complete => (.ok (), w.setFile file ((w.files file).map (· ++ bytes)))
    | .failed written e =>
        (.error (context what e), w.setFile file ((w.files file).map (· ++ bytes.take written)))

/-- `create_dir`, which fails on an existing path as well. -/
def createPkiDir (answer : Except String Unit) : Step Unit :=
  perform fun w =>
    if w.pkiDir then (.error (context "creating PKI temp dir" "File exists (os error 17)"), w)
    else
      match answer with
      | .error e => (.error (context "creating PKI temp dir" e), w)
      | .ok () => (.ok (), { w with pkiDir := true })

/-- The check of a child's status: on failure the step is marked and the
pipeline bails out. -/
def check (i : Nat) (success : Bool) (message : String) : Step Unit :=
  if success then pure ()
  else do
    step i .fail
    fail message

/-- `run_streamed`: every line of the child's output is forwarded. -/
def runStreamed (what : String) (child : Child) : Step Bool :=
  match child with
  | .spawnError e => call ("running " ++ what) (.error e)
  | .waitError lines e => do
      call ("running " ++ what) (.ok ())
      lines.forM log
      call ("waiting for " ++ what) (.error e)
  | .exited lines success => do
      call ("running " ++ what) (.ok ())
      lines.forM log
      call ("waiting for " ++ what) (.ok success)

/-- Zeros over what the file holds, in place. -/
def overwrite (file : SecretFile) (answer : Shred) (content : Bytes) : Step Unit :=
  if answer.metadata && !content.isEmpty && answer.openFile then
    perform fun w => (.ok (), w.setFile file
      (some (List.replicate (min answer.zeroed content.length) 0 ++ content.drop answer.zeroed)))
  else pure ()

def unlink (file : SecretFile) (answer : Shred) : Step Unit :=
  perform fun w => (.ok (), if answer.remove then w.setFile file none else w)

/-- `ShredOnDrop`: overwrite, then unlink; best-effort. -/
def shredOnDrop (file : SecretFile) (answer : Shred) : Step Unit := do
  let w ← get
  match w.files file with
  | none => pure ()
  | some content => do
      overwrite file answer content
      unlink file answer

/-- `ShredDirOnDrop`: shred the files under the directory, then remove the tree. -/
def shredDirOnDrop (removed : Bool) : Step Unit :=
  perform fun w => (.ok (), if removed then { w with pkiDir := false } else w)

/-! ## The pipeline -/

/-- The log line of a sized build; `none` is the fixed output. -/
def overrideWhat (size : SizeOverride) (hostAttr : Option String) : Option String :=
  match size, hostAttr with
  | .gib n, some host =>
      some (">> building the minimal reusable image: " ++ toString n ++ " GiB (host " ++ host ++
        ", size-overridden via extendModules)")
  | .bytes n, some host =>
      some (">> building the exact-fit image: " ++ toString n ++ " bytes (host " ++ host ++
        ", size-overridden via extendModules)")
  | _, _ => none

/-- `override_expr`: the host to extend, the option it gets, and what that builds;
`none` is the fixed output. -/
def overrideExpr (size : SizeOverride) (hostAttr : Option String) :
    Option (String × String × String) :=
  match size, hostAttr with
  | .gib n, some host =>
      some (host, "nixnas.boot.usb.imageSizeGiB = lib.mkForce " ++ toString n ++ ";",
        "minimal reusable image: " ++ toString n ++ " GiB")
  | .bytes b, some host =>
      some (host, "nixnas.boot.usb.imageSize = lib.mkForce \"" ++ toString b ++ "\";",
        "exact-fit image: " ++ toString b ++ " bytes")
  | _, _ => none

/-- The host's image script with its size overridden. -/
def sizedExpr (host assign : String) : String :=
  "let f = builtins.getFlake (toString ./.); in (f.nixosConfigurations." ++ host ++
    ".extendModules \x7b modules = [ (\x7b lib, ... \x7d: \x7b " ++ assign ++
    " \x7d) ]; \x7d).config.system.build.diskoImagesScript"

/-- The arguments of `nix` in step 1. -/
def nixArgs (scriptLink : String) (cfg : Config) (size : SizeOverride) : List String :=
  match overrideExpr size cfg.hostAttr with
  | some (host, assign, _) =>
      ["build", "--impure", "--print-build-logs", "--accept-flake-config", "--out-link", scriptLink,
        "--expr", sizedExpr host assign]
  | none =>
      ["build", "--print-build-logs", "--accept-flake-config", ".#" ++ cfg.imageAttr, "--out-link",
        scriptLink]

/-- The log line tells which of the two was taken. -/
theorem overrideWhat_isSome (size : SizeOverride) (hostAttr : Option String) :
    (overrideWhat size hostAttr).isSome = (overrideExpr size hostAttr).isSome := by
  cases size <;> cases hostAttr <;> rfl

/-- Step 1: `nix build` of the image script. -/
def buildScript (a : Answers) (cfg : Config) (size : SizeOverride) : Step Unit := do
  step 0 .running
  log ((overrideWhat size cfg.hostAttr).getD (">> building the stick image from .#" ++ cfg.imageAttr))
  let success ← runStreamed "`nix build` (is Nix installed locally?)" a.nixBuild
  check 0 success "the image build (nix build) failed"
  step 0 .ok

/-- Step 2, up to the point where its guard is armed. -/
def writeKeyFile (s : Setting) (a : Answers) (passphrase : String) : Step Unit := do
  createNew .key ("creating temp passphrase file " ++ s.keyPath) a.createKey
  writeAll .key "writing passphrase to temp file" (asBytes passphrase) a.writeKey

def spawnMkpasswd (a : Answers) : Step Unit := do
  match ← ask a.spawnMkpasswd with
  | .ok () => pure ()
  | .error .notFound => do
      step 2 .fail
      fail ("mkpasswd not found — it derives the console-login hash from the passphrase " ++
        "(run the TUI via `nix run`, which bundles it, or install the `mkpasswd` package)")
  | .error (.other e) => do
      step 2 .fail
      fail (context "running mkpasswd" e)

/-- The yescrypt hash of the passphrase. -/
def runMkpasswd (a : Answers) : Step String := do
  spawnMkpasswd a
  call "feeding the passphrase to mkpasswd" a.feedMkpasswd
  let out ← call "waiting for mkpasswd" a.waitMkpasswd
  check 2 (out.success && startsWith (trim out.stdout) "$y$")
    ("mkpasswd did not produce a yescrypt hash: " ++ trim out.stderr)
  pure (trim out.stdout)

/-- Step 3, up to the point where its guard is armed. -/
def writeHashFile (s : Setting) (a : Answers) : Step Unit := do
  let hash ← runMkpasswd a
  createNew .hash ("creating temp hash file " ++ s.hashPath) a.createHash
  writeAll .hash "writing the auth hash to the temp file" (asBytes hash) a.writeHash
  writeAll .hash "writing the auth hash to the temp file" (asBytes "\n") a.writeNewline

/-- Step 4, up to the point where its guard is armed. -/
def makePkiDir (a : Answers) : Step Unit := do
  createPkiDir a.createPki
  call "restricting PKI temp dir" a.restrictPki

/-- `sops --decrypt` into `tar -x`. -/
def extractPki (a : Answers) (sopsPath : String) : Step Unit := do
  let decrypted ← call "running sops (is it installed, with the age key available?)" a.sops
  check 3 decrypted.success ("sops --decrypt " ++ sopsPath ++ " failed:\n" ++ decrypted.stderr)
  call "running tar" a.spawnTar
  call "streaming PKI tar to tar" a.feedTar
  let extracted ← call "waiting for tar" a.waitTar
  check 3 extracted "extracting the Secure Boot PKI tar failed"

/-- The bundle root: the directory itself, or a lone wrapper directory in it. -/
def bundleRoot (a : Answers) (dir : String) : Step String := do
  if a.isDir (join dir "keys") then pure dir
  else
    match ← call "listing the extracted PKI tar" a.listPki with
    | [only] =>
        if a.isDir (join dir only) && a.isDir (join (join dir only) "keys") then do
          log ("(PKI tar wraps its bundle in " ++ only ++ "/ — using that as the bundle root)")
          pure (join dir only)
        else pure dir
    | _ => pure dir

def requiredKeys : List String :=
  ["keys/PK/PK.pem", "keys/PK/PK.key", "keys/KEK/KEK.pem", "keys/KEK/KEK.key", "keys/db/db.pem",
    "keys/db/db.key"]

/-- Fail on the first required file that the bundle lacks. -/
def checkBundle (a : Answers) (sopsPath bundle : String) : Step Unit :=
  match requiredKeys.find? fun required => !a.isFile (join bundle required) with
  | none => pure ()
  | some required => do
      step 3 .fail
      fail ("Secure Boot PKI bundle from " ++ sopsPath ++ " is missing " ++ required ++
        " — expected the sbctl layout (keys/\x7bPK,KEK,db\x7d/*.pem+*.key) at the tar root or " ++
        "inside one wrapper directory")

/-- Steps 5 and 6: run the image script, then find the `.raw`. -/
def buildImage (s : Setting) (a : Answers) : Step String := do
  step 4 .running
  call "creating image output dir" a.createOutDir
  let _ ← call "resolving image script" a.resolveScript
  let success ← runStreamed "the disko image script" a.script
  check 4 success "image build failed"
  step 4 .ok
  step 5 .running
  let names ← call ("reading built image dir " ++ s.outDir) a.readOutDir
  match names.find? fun name => extension name = some "raw" with
  | none => do
      step 5 .fail
      fail "no .raw file in the image output dir"
  | some name => do
      step 5 .ok
      log (">> built image: " ++ join s.outDir name)
      pure (join s.outDir name)

/-- Step 4, if configured, and the steps after it. -/
def injectPki (s : Setting) (a : Answers) (cfg : Config) : Step String :=
  match cfg.sbKeysSops with
  | some sopsFile => do
      let sopsPath := join s.base sopsFile
      step 3 .running
      makePkiDir a
      guarded (shredDirOnDrop a.removePki) do
        extractPki a sopsPath
        let bundle ← bundleRoot a s.pkiPath
        checkBundle a sopsPath bundle
        step 3 .ok
        buildImage s a
  | none => do
      log "(no sb_keys_sops configured — lanzaboote will autogenerate keys on first boot)"
      step 3 .skipped
      buildImage s a

/-- Step 3 and the steps after it. -/
def deriveHash (s : Setting) (a : Answers) (cfg : Config) : Step String := do
  step 2 .running
  writeHashFile s a
  guarded (shredOnDrop .hash (a.shred .hash)) do
    step 2 .ok
    injectPki s a cfg

def runPipeline (s : Setting) (a : Answers) (cfg : Config) (passphrase : String)
    (size : SizeOverride) : Step String := do
  buildScript a cfg size
  step 1 .running
  writeKeyFile s a passphrase
  guarded (shredOnDrop .key (a.shred .key)) do
    step 1 .ok
    deriveHash s a cfg

/-- The worker thread: the pipeline, then its result as the last event. -/
def spawnBuild (s : Setting) (a : Answers) (cfg : Config) (passphrase : String)
    (size : SizeOverride) : Step Unit := do
  let result ← attempt (runPipeline s a cfg passphrase size)
  send (.done result)

end Nixnas.Tui.Build
