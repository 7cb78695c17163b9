import Mathlib.Data.List.TakeDrop
import Nixnas.Logic.Effect
import Nixnas.Modules.Options
import Nixnas.Rust.Text

/-!
# The recovery keyslot and its escrow

`modules/crypto/recovery-escrow.nix`: `nixnas-escrow-recovery enroll` adds a
keyslot to the store and takes its key to a file, to Vaultwarden or to both.  The
script runs under `set -euo pipefail`: the first command that fails ends it, and
the trap shreds the key file then.
-/

set_option autoImplicit false

namespace Nixnas.Modules.RecoveryEscrow

open Nixnas.Logic Nixnas.Rust

abbrev ExitCode := Nat

/-- The commands of the script, in the order in which it runs them. -/
inductive Command where
  | mktemp
  | generate
  | announce
  | luksAddKey
  | install
  | writeKey
  | announceOut
  | announceSkipped
  | clientId
  | clientSecret
  | masterPassword
  | configServer
  | login
  | unlock
  | readKey
  | item
  | createItem
  | sync
  | logout
  | announceEscrowed
  | announceDone
  | cleanup
  deriving DecidableEq

/-- What an invocation cannot choose: the option its package was built with, the
key that `/dev/urandom` gives and the commands that fail. -/
structure Hub where
  vaultwardenUrl : Option String
  key : Bytes
  fails : Command → Bool
  /-- The exit status of a command that fails, with which errexit ends the script. -/
  status : Command → ExitCode
  nonzero : ∀ name, status name ≠ 0
  /-- What a failed write of the key leaves in the file. -/
  written : Nat
  /-- What a failed read of the key gives. -/
  read : Nat
  /-- The server keeps an item whose creation is reported as failed. -/
  stored : Bool

structure World where
  keyslots : List Bytes
  files : String → Option Bytes
  /-- The Vaultwarden items: their names and the keys in their notes. -/
  items : List (String × Bytes)
  keyfile : Option Bytes

structure Arguments where
  device : String
  unlockFile : String
  host : String
  url : String
  credsFile : String
  recoveryOut : String
  noUpload : Bool
  deriving DecidableEq

def Arguments.set (args : Arguments) (flag value : String) : Option Arguments :=
  match flag with
  | "--device" => some { args with device := value }
  | "--unlock-file" => some { args with unlockFile := value }
  | "--host" => some { args with host := value }
  | "--vaultwarden-url" => some { args with url := value }
  | "--creds-file" => some { args with credsFile := value }
  | "--recovery-out" => some { args with recoveryOut := value }
  | _ => none

/-- The options; one without its value is an unbound variable. -/
def parse : List String → Arguments → Except ExitCode Arguments
  | [], args => .ok args
  | "--no-upload" :: rest, args => parse rest { args with noUpload := true }
  | [flag], args => if (args.set flag "").isSome then .error 1 else .error 2
  | flag :: value :: rest, args =>
      match args.set flag value with
      | some args => parse rest args
      | none => .error 2

def itemName (host : String) : String := "nixnas-recovery/" ++ host

abbrev Script := Action World ExitCode

namespace Hub

variable (hub : Hub)

def defaults : Arguments where
  device := ""
  unlockFile := ""
  host := ""
  url := hub.vaultwardenUrl.getD ""
  credsFile := ""
  recoveryOut := ""
  noUpload := false

def arguments : List String → Except ExitCode Arguments
  | "enroll" :: rest =>
      match parse rest hub.defaults with
      | .error code => .error code
      | .ok args =>
          if args.device = "" ∨ args.unlockFile = "" ∨ args.host = "" then .error 2 else .ok args
  | _ => .error 2

/-- One command, with what it does and what it leaves when it fails. -/
def command (name : Command) (done failed : World → World) : Script Unit :=
  if hub.fails name then do
    Action.modify failed
    Action.fail (hub.status name)
  else Action.modify done

/-- A command that changes none of the places a key can be in. -/
def run (name : Command) : Script Unit := hub.command name id id

def check (passes : World → Bool) : Script Unit := do
  if passes (← Action.get) then pure () else Action.fail 1

def isFile (path : String) (world : World) : Bool := (world.files path).isSome

def putFile (path : String) (content : Bytes) (world : World) : World :=
  { world with files := fun other => if other = path then some content else world.files other }

def addItem (host : String) (key : Bytes) (world : World) : World :=
  { world with items := world.items ++ [(itemName host, key)] }

def writeOut (args : Arguments) : Script Unit :=
  if args.recoveryOut ≠ "" then do
    hub.command .install (putFile args.recoveryOut []) id
    hub.command .writeKey (putFile args.recoveryOut hub.key)
      (putFile args.recoveryOut (hub.key.take hub.written))
    hub.run .announceOut
  else pure ()

/-- A substitution nested in the arguments of a command: its failure ends nothing. -/
def keyRead : Bytes := if hub.fails .readKey then hub.key.take hub.read else hub.key

def escrow (args : Arguments) : Script Unit :=
  if args.noUpload then hub.run .announceSkipped
  else do
    check fun _ => args.url ≠ ""
    check fun world => args.credsFile ≠ "" && isFile args.credsFile world
    hub.run .clientId
    hub.run .clientSecret
    hub.run .masterPassword
    hub.run .configServer
    hub.run .login
    hub.run .unlock
    hub.run .item
    hub.command .createItem (addItem args.host hub.keyRead)
      fun world => if hub.stored then addItem args.host hub.keyRead world else world
    let _ ← Action.attempt (hub.run .sync)
    let _ ← Action.attempt (hub.run .logout)
    hub.run .announceEscrowed

def cleanup : Script Unit := hub.command .cleanup (fun world => { world with keyfile := none }) id

/-- `trap cleanup EXIT`: a failure of the trap is the exit status then. -/
def trapped (body : Script Unit) : Script Unit := do
  let outcome ← Action.attempt body
  hub.cleanup
  match outcome with
  | .ok _ => pure ()
  | .error code => Action.fail code

def enroll (args : Arguments) : Script Unit := do
  hub.command .generate (fun world => { world with keyfile := some hub.key }) id
  hub.run .announce
  hub.command .luksAddKey (fun world => { world with keyslots := world.keyslots ++ [hub.key] }) id
  hub.writeOut args
  hub.escrow args
  hub.run .announceDone

def main (argv : List String) : Script Unit :=
  match hub.arguments argv with
  | .error code => Action.fail code
  | .ok args => do
      check (isFile args.unlockFile)
      hub.run .mktemp
      hub.trapped (hub.enroll args)

end Hub

/-- `nixnas-recovery-status` warns that no recovery key is enrolled. -/
def recoveryStatusWarns (world : World) : Bool := world.keyslots.length < 2

/-! ## When a keyslot is added, and where its key goes -/

namespace Hub

variable (hub : Hub)

/-- The keyslots are as before, or the key is complete in one of the two places. -/
def Kept (argv : List String) (before after : World) : Prop :=
  after.keyslots = before.keyslots ∨
    ∃ args, hub.arguments argv = .ok args ∧
      (args.recoveryOut ≠ "" ∧ after.files args.recoveryOut = some hub.key ∨
        (itemName args.host, hub.key) ∈ after.items)

/-- The script gets past `luksAddKey`. -/
structure Adds (argv : List String) (args : Arguments) (world : World) : Prop where
  parsed : hub.arguments argv = .ok args
  unlockFile : isFile args.unlockFile world = true
  mktemp : hub.fails .mktemp = false
  generate : hub.fails .generate = false
  announce : hub.fails .announce = false
  luksAddKey : hub.fails .luksAddKey = false

/-- The whole key gets into the `--recovery-out` file. -/
def WritesOut : Prop :=
  hub.fails .install = false ∧ (hub.fails .writeKey = true → hub.key.length ≤ hub.written)

/-- The upload gets to the end, with the whole key. -/
structure Uploads (args : Arguments) (world : World) : Prop where
  wanted : args.noUpload = false
  url : args.url ≠ ""
  credsFile : args.credsFile ≠ ""
  isFile : isFile args.credsFile world = true
  clientId : hub.fails .clientId = false
  clientSecret : hub.fails .clientSecret = false
  masterPassword : hub.fails .masterPassword = false
  configServer : hub.fails .configServer = false
  login : hub.fails .login = false
  unlock : hub.fails .unlock = false
  item : hub.fails .item = false
  createItem : hub.fails .createItem = true → hub.stored = true
  readKey : hub.fails .readKey = true → hub.key.length ≤ hub.read

/-- A file that was asked for decides, else the upload. -/
def Secured (args : Arguments) (world : World) : Prop :=
  if args.recoveryOut ≠ "" then hub.WritesOut else hub.Uploads args world

/-- The key is new: no file and no item holds it. -/
structure Fresh (world : World) : Prop where
  files : ∀ path, world.files path ≠ some hub.key
  items : ∀ name, (name, hub.key) ∉ world.items

variable {hub : Hub}

theorem command_spec {name : Command} {done failed : World → World} {before : World → Prop}
    {post : Action.Post World ExitCode Unit}
    (works : hub.fails name = false → ∀ world, before world → post.ok () (done world))
    (breaks : hub.fails name = true → ∀ world, before world →
      post.error (hub.status name) (failed world)) :
    Action.Spec before (hub.command name done failed) post := by
  unfold command
  apply Action.Spec.ite
  · intro failing
    apply Action.Spec.bind (fun _ => post.error (hub.status name))
    · exact Action.Spec.modify (breaks failing)
    · intro _
      exact Action.Spec.fail fun _ holds => holds
  · intro working
    exact Action.Spec.modify (works (by simpa using working))

/-- A command in front of the rest of the script: it ends the script, or it worked. -/
theorem run_then {name : Command} {rest : Unit → Script Unit} {before fact : World → Prop}
    (breaks : hub.fails name = true → ∀ world, before world → fact world)
    (works : hub.fails name = false → Action.Spec before (rest ()) (.certainly fact)) :
    Action.Spec before (hub.run name >>= rest) (.certainly fact) := by
  apply Action.Spec.bind fun _ world => hub.fails name = false ∧ before world
  · apply command_spec
    · intro working world holds
      exact ⟨working, holds⟩
    · intro failing world holds
      exact breaks failing world holds
  · intro _
    exact Action.Spec.assume works

theorem run_last {name : Command} {fact : World → Prop} :
    Action.Spec fact (hub.run name) (.certainly fact) :=
  command_spec (fun _ _ holds => holds) fun _ _ holds => holds

/-- A test in front of the rest of the script: what it says of the world is `known` then. -/
theorem check_then {passes : World → Bool} {rest : Unit → Script Unit} {known : Prop}
    {before fact : World → Prop}
    (refused : ∀ world, passes world = false → before world → fact world)
    (learn : ∀ world, passes world = true → before world → known)
    (passed : known → Action.Spec before (rest ()) (.certainly fact)) :
    Action.Spec before (check passes >>= rest) (.certainly fact) := by
  apply Action.Spec.bind fun _ world => known ∧ before world
  · unfold check
    apply Action.Spec.bind fun seen world => seen = world ∧ before world
    · exact Action.Spec.get fun world holds => ⟨rfl, holds⟩
    · intro seen
      apply Action.Spec.ite
      · intro passing
        apply Action.Spec.pure
        intro world holds
        rw [holds.1] at passing
        exact ⟨learn world passing holds.2, holds.2⟩
      · intro failing
        apply Action.Spec.fail
        intro world holds
        rw [holds.1] at failing
        exact refused world (by simpa using failing) holds.2
  · intro _
    exact Action.Spec.assume passed

theorem attempt_then {name : Command} {rest : Script Unit} {fact : World → Prop}
    (tail : Action.Spec fact rest (.certainly fact)) :
    Action.Spec fact (Action.attempt (hub.run name) >>= fun _ => rest) (.certainly fact) := by
  apply Action.Spec.bind fun _ => fact
  · apply Action.Spec.attempt
    exact run_last
  · intro _
    exact tail

/-! ## The two places -/

variable {args : Arguments} {start : World}

/-- Writing the file, and what of it is there when a command on the way fails. -/
theorem writeOut_spec (fresh : ∀ path, start.files path ≠ some hub.key) :
    Action.Spec (fun world => world = start) (hub.writeOut args)
      ⟨fun _ world => world.keyslots = start.keyslots ∧ world.items = start.items ∧
          if args.recoveryOut ≠ "" then
            hub.WritesOut ∧ world.files args.recoveryOut = some hub.key
          else world.files = start.files,
        fun _ world => world.keyslots = start.keyslots ∧ world.items = start.items ∧
          args.recoveryOut ≠ "" ∧
          (world.files args.recoveryOut = some hub.key ↔ hub.WritesOut),
        fun _ => False⟩ := by
  unfold writeOut
  apply Action.Spec.ite
  · intro asked
    apply Action.Spec.bind fun _ world => hub.fails .install = false ∧
      world = putFile args.recoveryOut [] start
    · apply command_spec
      · intro working world same
        exact ⟨working, by rw [same]⟩
      · intro failing world same
        subst same
        refine ⟨rfl, rfl, asked, fun complete => absurd complete (fresh _), fun writes => ?_⟩
        have installed : hub.fails .install = false := writes.1
        rw [failing] at installed
        contradiction
    intro _
    apply Action.Spec.assume
    intro installed
    apply Action.Spec.bind fun _ world => hub.WritesOut ∧
      world = putFile args.recoveryOut hub.key start
    · apply command_spec
      · intro working world same
        have writes : hub.WritesOut := ⟨installed, by simp [working]⟩
        refine ⟨writes, ?_⟩
        subst same
        simp only [putFile, World.mk.injEq, true_and, and_true]
        funext other
        split <;> rfl
      · intro failing world same
        subst same
        refine ⟨rfl, rfl, asked, ?_⟩
        have whole : hub.key.take hub.written = hub.key ↔ hub.key.length ≤ hub.written :=
          List.take_eq_self_iff _
        simp only [putFile, if_true, Option.some.injEq, whole, WritesOut, installed, failing,
          true_and, forall_const]
    · intro _
      apply command_spec
      · intro _ world holds
        obtain ⟨writes, same⟩ := holds
        subst same
        refine ⟨rfl, rfl, ?_⟩
        rw [if_pos asked]
        exact ⟨writes, by simp [putFile]⟩
      · intro _ world holds
        obtain ⟨writes, same⟩ := holds
        subst same
        refine ⟨rfl, rfl, asked, ?_⟩
        simp [putFile, writes]
  · intro notAsked
    apply Action.Spec.pure
    intro world same
    subst same
    refine ⟨rfl, rfl, ?_⟩
    rw [if_neg notAsked]

/-- The upload leaves an item with the whole key exactly when it gets to the end. -/
def Settled (hub : Hub) (args : Arguments) (start world : World) : Prop :=
  world.keyslots = start.keyslots ∧ world.files = start.files ∧
    ((itemName args.host, hub.key) ∈ world.items ↔ hub.Uploads args start)

theorem Settled.unreached (fresh : ∀ name, (name, hub.key) ∉ start.items)
    (stops : ¬ hub.Uploads args start) : hub.Settled args start start :=
  ⟨rfl, rfl, fun stored => absurd stored (fresh _), fun uploads => absurd uploads stops⟩

/-- A command that ends the script before the item is created. -/
theorem run_before {name : Command} {rest : Unit → Script Unit}
    (fresh : ∀ name, (name, hub.key) ∉ start.items)
    (needed : hub.Uploads args start → hub.fails name = false)
    (works : hub.fails name = false →
      Action.Spec (fun world => world = start) (rest ()) (.certainly (hub.Settled args start))) :
    Action.Spec (fun world => world = start) (hub.run name >>= rest)
      (.certainly (hub.Settled args start)) := by
  apply run_then
  · intro failing world same
    subst same
    apply Settled.unreached fresh
    intro uploads
    rw [needed uploads] at failing
    contradiction
  · exact works

theorem mem_addItem {key : Bytes} (fresh : ∀ name, (name, hub.key) ∉ start.items) :
    (itemName args.host, hub.key) ∈ (addItem args.host key start).items ↔ key = hub.key := by
  simp only [addItem, List.mem_append, List.mem_singleton, Prod.mk.injEq, true_and]
  constructor
  · intro stored
    cases stored with
    | inl earlier => exact absurd earlier (fresh _)
    | inr same => exact same.symm
  · intro same
    exact .inr same.symm

theorem keyRead_eq : hub.keyRead = hub.key ↔ (hub.fails .readKey = true → hub.key.length ≤ hub.read) := by
  unfold keyRead
  cases failing : hub.fails .readKey with
  | false => simp
  | true => simp [List.take_eq_self_iff]

theorem escrow_spec (fresh : ∀ name, (name, hub.key) ∉ start.items) :
    Action.Spec (fun world => world = start) (hub.escrow args)
      (.certainly (hub.Settled args start)) := by
  unfold escrow
  apply Action.Spec.ite
  · intro skipped
    have stops : ¬ hub.Uploads args start := by
      intro uploads
      rw [uploads.wanted] at skipped
      contradiction
    apply command_spec
    · intro _ world same
      subst same
      exact Settled.unreached fresh stops
    · intro _ world same
      subst same
      exact Settled.unreached fresh stops
  intro wanted
  apply check_then
  · intro world refused same
    subst same
    apply Settled.unreached fresh
    intro uploads
    simp [uploads.url] at refused
  · intro world passed _
    exact passed
  intro url
  apply check_then
  · intro world refused same
    subst same
    apply Settled.unreached fresh
    intro uploads
    simp [uploads.credsFile, uploads.isFile] at refused
  · intro world passed same
    rw [same] at passed
    exact passed
  intro creds
  apply run_before fresh fun uploads => uploads.clientId
  intro clientId
  apply run_before fresh fun uploads => uploads.clientSecret
  intro clientSecret
  apply run_before fresh fun uploads => uploads.masterPassword
  intro masterPassword
  apply run_before fresh fun uploads => uploads.configServer
  intro configServer
  apply run_before fresh fun uploads => uploads.login
  intro login
  apply run_before fresh fun uploads => uploads.unlock
  intro unlock
  apply run_before fresh fun uploads => uploads.item
  intro item
  have uploads (created : hub.fails .createItem = true → hub.stored = true) :
      hub.keyRead = hub.key ↔ hub.Uploads args start := by
    rw [keyRead_eq]
    constructor
    · intro readKey
      rw [Bool.and_eq_true] at creds
      exact ⟨by simpa using wanted, by simpa using url, by simpa using creds.1, creds.2, clientId,
        clientSecret, masterPassword, configServer, login, unlock, item, created, readKey⟩
    · intro uploads
      exact uploads.readKey
  apply Action.Spec.bind fun _ => hub.Settled args start
  · apply command_spec
    · intro working world same
      subst same
      have created : hub.fails .createItem = true → hub.stored = true := by simp [working]
      exact ⟨rfl, rfl, (mem_addItem fresh).trans (uploads created)⟩
    · intro failing world same
      subst same
      cases stored : hub.stored with
      | true => exact ⟨rfl, rfl, (mem_addItem fresh).trans (uploads fun _ => stored)⟩
      | false =>
          apply Settled.unreached fresh
          intro uploads
          rw [uploads.createItem failing] at stored
          contradiction
  · intro _
    apply attempt_then
    apply attempt_then
    exact run_last

/-! ## The whole script -/

/-- Once a keyslot is added, nothing takes it away: what the file and the items
hold decides. -/
theorem kept_added {argv : List String} {before world : World} (adds : hub.Adds argv args before)
    (added : world.keyslots = before.keyslots ++ [hub.key]) :
    hub.Kept argv before world ↔
      (args.recoveryOut ≠ "" ∧ world.files args.recoveryOut = some hub.key ∨
        (itemName args.host, hub.key) ∈ world.items) := by
  constructor
  · intro kept
    cases kept with
    | inl same =>
        rw [added] at same
        simp at same
    | inr held =>
        obtain ⟨args', parsed, places⟩ := held
        rw [adds.parsed] at parsed
        cases parsed
        exact places
  · intro places
    exact .inr ⟨args, adds.parsed, places⟩

def Exact (hub : Hub) (argv : List String) (before world : World) : Prop :=
  hub.Kept argv before world ↔ ∀ args, hub.Adds argv args before → hub.Secured args before

theorem Exact.unadded {argv : List String} {before world : World}
    (stops : ∀ args, ¬ hub.Adds argv args before) (same : world.keyslots = before.keyslots) :
    hub.Exact argv before world :=
  ⟨fun _ args adds => absurd adds (stops args), fun _ => .inl same⟩

theorem Exact.added {argv : List String} {before world : World} (adds : hub.Adds argv args before)
    (added : world.keyslots = before.keyslots ++ [hub.key])
    (exact : (args.recoveryOut ≠ "" ∧ world.files args.recoveryOut = some hub.key ∨
      (itemName args.host, hub.key) ∈ world.items) ↔ hub.Secured args before) :
    hub.Exact argv before world := by
  rw [Exact, kept_added adds added, exact]
  constructor
  · intro secured args' adds'
    have same : args' = args := by
      have parsed := adds'.parsed
      rw [adds.parsed] at parsed
      cases parsed
      rfl
    rw [same]
    exact secured
  · intro secured
    exact secured args adds

/-- What the upload leaves, once the file is written or was not asked for. -/
theorem Exact.settled {argv : List String} {before world after : World}
    (adds : hub.Adds argv args before) (keyslots : world.keyslots = before.keyslots ++ [hub.key])
    (files : if args.recoveryOut ≠ "" then hub.WritesOut ∧ world.files args.recoveryOut = some hub.key
      else world.files = before.files)
    (settled : hub.Settled args world after) : hub.Exact argv before after := by
  obtain ⟨keyslots', files', items'⟩ := settled
  apply Exact.added adds (keyslots'.trans keyslots)
  rw [files', items']
  by_cases asked : args.recoveryOut ≠ ""
  · rw [if_pos asked] at files
    rw [Secured, if_pos asked]
    exact ⟨fun _ => files.1, fun _ => .inl ⟨asked, files.2⟩⟩
  · rw [if_neg asked] at files
    have same : hub.Uploads args world ↔ hub.Uploads args before := by
      constructor
      · intro uploads
        exact { uploads with isFile := by simpa [isFile, files] using uploads.isFile }
      · intro uploads
        exact { uploads with isFile := by simpa [isFile, files] using uploads.isFile }
    rw [Secured, if_neg asked, ← same]
    exact ⟨fun places => places.resolve_left fun out => asked out.1, fun uploads => .inr uploads⟩

/-- The rest of the script once the keyslot is added. -/
theorem places_spec {argv : List String} {before added : World} (fresh : hub.Fresh before)
    (adds : hub.Adds argv args before)
    (isAdded : added =
      { before with keyfile := some hub.key, keyslots := before.keyslots ++ [hub.key] }) :
    Action.Spec (fun world => world = added)
      (do
        hub.writeOut args
        hub.escrow args
        hub.run .announceDone)
      (.certainly (hub.Exact argv before)) := by
  subst isAdded
  have out := @writeOut_spec hub args
    { before with keyfile := some hub.key, keyslots := before.keyslots ++ [hub.key] } fresh.files
  apply Action.Spec.bind fun _ world => world.keyslots = before.keyslots ++ [hub.key] ∧
    world.items = before.items ∧
      if args.recoveryOut ≠ "" then hub.WritesOut ∧ world.files args.recoveryOut = some hub.key
      else world.files = before.files
  · apply out.weaken
    · exact fun _ same => same
    · exact fun _ _ holds => holds
    · intro _ world holds
      obtain ⟨keyslots, items, asked, exact⟩ := holds
      apply Exact.added adds keyslots
      have unstored : (itemName args.host, hub.key) ∉ world.items := by
        rw [items]
        exact fresh.items _
      rw [Secured, if_pos asked, ← exact]
      exact ⟨fun places => (places.resolve_right unstored).2, fun whole => .inl ⟨asked, whole⟩⟩
    · exact fun _ holds => holds
  intro _
  apply Action.Spec.bind fun _ => hub.Exact argv before
  · apply Action.Spec.each
    · intro world holds
      apply escrow_spec
      intro name
      rw [holds.2.1]
      exact fresh.items name
    · intro world after holds settled
      exact Exact.settled adds holds.1 holds.2.2 settled
  · intro _
    exact run_last

theorem enroll_spec {argv : List String} {before : World} (fresh : hub.Fresh before)
    (parsed : hub.arguments argv = .ok args) (unlockFile : isFile args.unlockFile before = true)
    (mktemp : hub.fails .mktemp = false) :
    Action.Spec (fun world => world = before) (hub.enroll args)
      (.certainly (hub.Exact argv before)) := by
  have unadded {name : Command} (needed : ∀ args, hub.Adds argv args before → hub.fails name = false)
      (failing : hub.fails name = true) (world : World) (same : world.keyslots = before.keyslots) :
      hub.Exact argv before world := by
    apply Exact.unadded
    · intro args adds
      rw [needed args adds] at failing
      contradiction
    · exact same
  unfold enroll
  apply Action.Spec.bind fun _ world => hub.fails .generate = false ∧
    world = { before with keyfile := some hub.key }
  · apply command_spec
    · intro working world same
      exact ⟨working, by rw [same]⟩
    · intro failing world same
      exact unadded (fun _ adds => adds.generate) failing world (by rw [same])
  intro _
  apply Action.Spec.assume
  intro generate
  apply run_then
  · intro failing world same
    exact unadded (fun _ adds => adds.announce) failing world (by rw [same])
  intro announce
  let added : World :=
    { before with keyfile := some hub.key, keyslots := before.keyslots ++ [hub.key] }
  apply Action.Spec.bind fun _ world => hub.fails .luksAddKey = false ∧ world = added
  · apply command_spec
    · intro working world same
      exact ⟨working, by rw [same]⟩
    · intro failing world same
      exact unadded (fun _ adds => adds.luksAddKey) failing world (by rw [same])
  intro _
  apply Action.Spec.assume
  intro luksAddKey
  exact places_spec fresh ⟨parsed, unlockFile, mktemp, generate, announce, luksAddKey⟩ rfl

theorem Exact.keyfile {argv : List String} {before world : World} {keyfile : Option Bytes}
    (exact : hub.Exact argv before world) :
    hub.Exact argv before { world with keyfile := keyfile } := exact

theorem trapped_spec {argv : List String} {before : World} {body : Script Unit}
    (run : Action.Spec (fun world => world = before) body (.certainly (hub.Exact argv before))) :
    Action.Spec (fun world => world = before) (hub.trapped body)
      (.certainly (hub.Exact argv before)) := by
  unfold trapped
  apply Action.Spec.bind fun _ => hub.Exact argv before
  · exact Action.Spec.attempt run
  intro outcome
  apply Action.Spec.bind fun _ => hub.Exact argv before
  · apply command_spec
    · intro _ world exact
      exact exact.keyfile
    · exact fun _ _ exact => exact
  · intro _
    cases outcome with
    | ok value => exact Action.Spec.pure fun _ exact => exact
    | error code => exact Action.Spec.fail fun _ exact => exact

/-- However the script ends, the header is as it was or the key is complete in
one of its places exactly when every invocation that gets past `luksAddKey` also
gets the key there: nothing undoes the keyslot. -/
theorem enroll_kept_iff (hub : Hub) (argv : List String) (before : World)
    (fresh : hub.Fresh before) (fuel : Nat) :
    (hub.main argv before fuel).returned.isSome ∧
      (hub.Kept argv before (hub.main argv before fuel).world ↔
        ∀ args, hub.Adds argv args before → hub.Secured args before) := by
  have run : Action.Spec (fun world => world = before) (hub.main argv)
      (.certainly (hub.Exact argv before)) := by
    unfold main
    cases parsed : hub.arguments argv with
    | error code =>
        apply Action.Spec.fail
        intro world same
        apply Exact.unadded
        · intro args adds
          rw [adds.parsed] at parsed
          contradiction
        · rw [same]
    | ok args =>
        have only (args' : Arguments) (adds : hub.Adds argv args' before) : args' = args := by
          have other := adds.parsed
          rw [parsed] at other
          cases other
          rfl
        have learn (world : World) (passed : isFile args.unlockFile world = true)
            (same : world = before) : isFile args.unlockFile before = true := by
          rw [← same]
          exact passed
        refine check_then ?_ learn ?_
        · intro world refused same
          apply Exact.unadded
          · intro args' adds
            have unlockFile := adds.unlockFile
            rw [only args' adds, ← same, refused] at unlockFile
            contradiction
          · rw [same]
        intro unlockFile
        apply run_then
        · intro failing world same
          apply Exact.unadded
          · intro args' adds
            rw [adds.mktemp] at failing
            contradiction
          · rw [same]
        intro mktemp
        exact trapped_spec (enroll_spec fresh parsed unlockFile mktemp)
  exact run.at_end rfl fuel

/-- A hub on which nothing fails and no Vaultwarden is configured. -/
def offline : Hub where
  vaultwardenUrl := none
  key := List.replicate 43 65 ++ [61]
  fails := fun _ => false
  status := fun _ => 1
  nonzero := fun _ => Nat.one_ne_zero
  written := 0
  read := 0
  stored := false

/-- A store with its daily passphrase, and the file that holds it. -/
def provisioned : World where
  keyslots := [[112, 119]]
  files := fun path => if path = "/run/daily" then some [112, 119] else none
  items := []
  keyfile := none

theorem offline_fresh : offline.Fresh provisioned := by
  constructor
  · intro path
    simp only [provisioned]
    split <;> simp [offline]
  · intro name
    simp [provisioned]

def bare : List String :=
  ["enroll", "--device", "/dev/loop0p2", "--unlock-file", "/run/daily", "--host", "nas"]

theorem enroll_kept_iff_offline :
    (offline.main (bare ++ ["--recovery-out", "/root/nas.key"]) provisioned 0).returned.isSome ∧
      (offline.Kept (bare ++ ["--recovery-out", "/root/nas.key"]) provisioned
          (offline.main (bare ++ ["--recovery-out", "/root/nas.key"]) provisioned 0).world ↔
        ∀ args, offline.Adds (bare ++ ["--recovery-out", "/root/nas.key"]) args provisioned →
          offline.Secured args provisioned) :=
  enroll_kept_iff offline (bare ++ ["--recovery-out", "/root/nas.key"]) provisioned offline_fresh 0

/-- No URL: the missing one is noticed after the keyslot is there.  The key is
gone, and the status counts the keyslot. -/
theorem bare_enroll_loses_key :
    (offline.main bare provisioned 0).returned = some (.error 1) ∧
      (offline.main bare provisioned 0).world.keyslots = provisioned.keyslots ++ [offline.key] ∧
      (offline.main bare provisioned 0).world.keyfile = none ∧
      recoveryStatusWarns (offline.main bare provisioned 0).world = false ∧
      ¬ offline.Kept bare provisioned (offline.main bare provisioned 0).world := by
  have keyslots : (offline.main bare provisioned 0).world.keyslots =
      provisioned.keyslots ++ [offline.key] := by decide
  have items : (offline.main bare provisioned 0).world.items = [] := by decide
  have parsed : offline.arguments bare =
      .ok ⟨"/dev/loop0p2", "/run/daily", "nas", "", "", "", false⟩ := by rfl
  refine ⟨by rfl, keyslots, by rfl, by decide, ?_⟩
  intro kept
  cases kept with
  | inl same =>
      rw [keyslots] at same
      simp at same
  | inr held =>
      obtain ⟨args, parsed', places⟩ := held
      rw [parsed] at parsed'
      cases parsed'
      rw [items] at places
      simp at places

end Hub

end Nixnas.Modules.RecoveryEscrow
