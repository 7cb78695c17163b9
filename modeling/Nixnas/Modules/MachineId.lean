import Nixnas.Modules.Boots

/-!
# The machine id

`system.activationScripts.nixnas-identity` of `modules/appliance/identity.nix`: the
first activation generates an id into the store, and each one links it to
`/etc/machine-id`, which the root forgets.  The script runs among everything else
that happens on the host, which may stop between any two of its commands.
-/

set_option autoImplicit false

namespace Nixnas.Modules.MachineId

open Nixnas.Logic
open Nixnas.Logic.Namespace (Place Ready target resolve)
open Nixnas.Modules.Boots (Medium Filesystems HostConfig UsbHost)

/-! ## The script -/

/-- `${persist}/etc/machine-id`. -/
def idPath : List String := components (Identity.persist ++ "/etc/machine-id")

/-- `[ -s file ]`. -/
def hasSize : Option String → Bool
  | some text => text ≠ ""
  | none => false

/-- Where the script stands: not running, before the redirection opens the file, while
the generator runs, and before the link. -/
inductive Phase where
  | idle
  | opening
  | generating
  | linking
  deriving DecidableEq

structure State (Tree : Type) where
  boot : Boots.State Tree String
  phase : Phase
  /-- `/etc/machine-id` is the link. -/
  linked : Bool

inductive Event (Tree : Type) where
  /-- Anything that is not the script. -/
  | system (event : Boots.Event Tree String)
  /-- An activation reaches the script, which tests the file. -/
  | test
  /-- The redirection creates or truncates the file. -/
  | truncate
  /-- `systemd-id128 new` prints an id. -/
  | generated (id : String)
  /-- A command fails, and the activation goes on. -/
  | failed
  | link
  /-- The activation is interrupted. -/
  | killed

variable {Tree : Type} [DecidableEq Tree] (kernel : Filesystems Tree)

/-- The script writes the file and goes on. -/
def writeId (host : HostConfig) (state : State Tree) (text : String) (phase : Phase) :
    Option (State Tree) :=
  (Boots.step kernel host state.boot (.write idPath (some text))).map fun boot =>
    { state with boot := boot, phase := phase }

def step (host : HostConfig) (state : State Tree) : Event Tree → Option (State Tree)
  | .system .stop => some ⟨.boot state.boot.files, .idle, false⟩
  | .system event =>
      (Boots.step kernel host state.boot event).map fun boot => { state with boot := boot }
  | .test =>
      if state.phase = .idle ∧ Ready (host.table kernel) state.boot.mounted idPath then
        some { state with phase := if hasSize (state.boot.read idPath) then .linking else .opening }
      else none
  | .truncate =>
      if state.phase = .opening then writeId kernel host state "" .generating else none
  | .generated id =>
      if state.phase = .generating then writeId kernel host state (id ++ "\n") .linking else none
  | .failed =>
      match state.phase with
      | .idle => none
      | .opening => some { state with phase := .linking }
      | .generating => some { state with phase := .linking }
      | .linking => some { state with phase := .idle }
  | .link => if state.phase = .linking then some ⟨state.boot, .idle, true⟩ else none
  | .killed => some { state with phase := .idle }

/-- The host from its first boot on. -/
def machine (host : HostConfig) : Machine (State Tree) (Event Tree) :=
  .ofStep (fun state => ∃ files, state = ⟨.boot files, .idle, false⟩) (step kernel host)

/-- Nothing but the script writes the file. -/
def Spares (place : Place (Medium Tree) String) (state : State Tree) (event : Event Tree) : Prop :=
  ∀ other, event = .system other → Boots.Spares place state.boot other

abbrev runs (kernel : Filesystems Tree) (host : HostConfig) (place : Place (Medium Tree) String) :
    Machine (State Tree) (Event Tree) :=
  (machine kernel host).restrict (Spares place)

section Steps

variable {kernel} {host : HostConfig} {place : Place (Medium Tree) String}

/-- What is not the script leaves it as it is, unless the host stops. -/
theorem system_cases {state next : State Tree} {event : Boots.Event Tree String}
    (taken : step kernel host state (.system event) = some next) :
    Boots.step kernel host state.boot event = some next.boot ∧
      (event ≠ .stop ∧ next.phase = state.phase ∧ next.linked = state.linked ∨
        event = .stop ∧ next.phase = .idle ∧ next.linked = false) := by
  cases event with
  | stop =>
      cases Option.some.inj taken
      exact ⟨rfl, .inr ⟨rfl, rfl, rfl⟩⟩
  | mount key | selfMount key =>
      obtain ⟨boot, booted, rfl⟩ := Option.map_eq_some_iff.mp taken
      exact ⟨booted, .inl ⟨nofun, rfl, rfl⟩⟩
  | write path content =>
      obtain ⟨boot, booted, rfl⟩ := Option.map_eq_some_iff.mp taken
      exact ⟨booted, .inl ⟨nofun, rfl, rfl⟩⟩
  | flush other =>
      cases Option.some.inj taken
      exact ⟨rfl, .inl ⟨nofun, rfl, rfl⟩⟩

/-- While the script runs the store is mounted, and from its test until the generator
is done there is no id in the file. -/
structure Inv (kernel : Filesystems Tree) (host : HostConfig) (place : Place (Medium Tree) String)
    (state : State Tree) : Prop where
  sound : Namespace.Sound (host.table kernel) state.boot.mounted
  ready : state.phase ≠ .idle ∨ state.linked = true →
    Ready (host.table kernel) state.boot.mounted idPath
  empty : state.phase = .opening ∨ state.phase = .generating →
    hasSize (state.boot.files.seen place) = false

variable (once : ((host.table kernel).map Prod.fst).Nodup)
  (leads : target (host.table kernel) idPath = some place)

include once leads

omit [DecidableEq Tree] in
/-- The path of the file leads to its place once the store is mounted. -/
theorem Inv.resolve {state : State Tree} (inv : Inv kernel host place state)
    (ready : Ready (host.table kernel) state.boot.mounted idPath) :
    resolve state.boot.mounted idPath = some place :=
  inv.sound.resolve_eq once ready (Namespace.target_located leads)

omit [DecidableEq Tree] in
theorem Inv.read {state : State Tree} (inv : Inv kernel host place state)
    (ready : Ready (host.table kernel) state.boot.mounted idPath) :
    state.boot.read idPath = state.boot.files.seen place := by
  rw [Boots.State.read, inv.resolve once leads ready]
  rfl

theorem Inv.writeId {state : State Tree} (inv : Inv kernel host place state)
    (running : state.phase ≠ .idle) (text : String) (phase : Phase) :
    writeId kernel host state text phase =
      some ⟨{ state.boot with files := state.boot.files.write place (some text) }, phase,
        state.linked⟩ := by
  rw [MachineId.writeId, Boots.step, inv.resolve once leads (inv.ready (.inl running))]
  rfl

theorem Inv.step {state next : State Tree} {event : Event Tree} (inv : Inv kernel host place state)
    (spares : Spares place state event) (taken : step kernel host state event = some next) :
    Inv kernel host place next := by
  cases event with
  | system event =>
      obtain ⟨booted, runs | stops⟩ := system_cases taken
      · obtain ⟨runs, samePhase, sameLink⟩ := runs
        refine ⟨Boots.sound_step once inv.sound booted, ?_, ?_⟩
        · rw [samePhase, sameLink]
          exact fun active => Boots.ready_step (inv.ready active) runs booted
        · rw [samePhase, Boots.seen_step (spares event rfl) runs booted]
          exact inv.empty
      · obtain ⟨-, idle, unlinked⟩ := stops
        refine ⟨Boots.sound_step once inv.sound booted, ?_, ?_⟩
        · rw [idle, unlinked]
          simp
        · rw [idle]
          simp
  | test =>
      rw [MachineId.step] at taken
      split at taken
      · rename_i starts
        cases Option.some.inj taken
        refine ⟨inv.sound, fun _ => starts.2, ?_⟩
        dsimp only
        rw [inv.read once leads starts.2]
        cases hasSize (state.boot.files.seen place) with
        | true => simp
        | false => exact fun _ => rfl
      · cases taken
  | truncate =>
      rw [MachineId.step] at taken
      split at taken
      · rename_i opening
        have running : state.phase ≠ .idle := by simp [opening]
        rw [inv.writeId once leads running] at taken
        cases Option.some.inj taken
        refine ⟨inv.sound, fun _ => inv.ready (.inl running), fun _ => ?_⟩
        dsimp only
        rw [Writeback.Store.seen_write]
        rfl
      · cases taken
  | generated id =>
      rw [MachineId.step] at taken
      split at taken
      · rename_i generating
        have running : state.phase ≠ .idle := by simp [generating]
        rw [inv.writeId once leads running] at taken
        cases Option.some.inj taken
        exact ⟨inv.sound, fun _ => inv.ready (.inl running), nofun⟩
      · cases taken
  | failed =>
      rw [MachineId.step] at taken
      split at taken
      · cases taken
      · rename_i opening
        cases Option.some.inj taken
        exact ⟨inv.sound, fun _ => inv.ready (.inl (by simp [opening])), nofun⟩
      · rename_i generating
        cases Option.some.inj taken
        exact ⟨inv.sound, fun _ => inv.ready (.inl (by simp [generating])), nofun⟩
      · rename_i linking
        cases Option.some.inj taken
        exact ⟨inv.sound, fun _ => inv.ready (.inl (by simp [linking])), nofun⟩
  | link =>
      rw [MachineId.step] at taken
      split at taken
      · rename_i linking
        cases Option.some.inj taken
        exact ⟨inv.sound, fun _ => inv.ready (.inl (by simp [linking])), nofun⟩
      · cases taken
  | killed =>
      cases Option.some.inj taken
      refine ⟨inv.sound, ?_, nofun⟩
      rintro (running | linked)
      · exact absurd rfl running
      · exact inv.ready (.inr linked)

theorem inv_reachable {state : State Tree} (reached : (runs kernel host place).Reachable state) :
    Inv kernel host place state := by
  induction reached with
  | initial start =>
      obtain ⟨files, rfl⟩ := start
      exact ⟨Namespace.sound_nil, by simp, by simp⟩
  | step event _ taken inv => exact inv.step once leads taken.1 taken.2

omit once leads in
/-- The script leaves a file with an id alone. -/
theorem Inv.keeps {state next : State Tree} {event : Event Tree} (inv : Inv kernel host place state)
    (some : hasSize (state.boot.files.seen place) = true)
    (script : ∀ other, event ≠ .system other)
    (taken : MachineId.step kernel host state event = .some next) : next.boot = state.boot := by
  have settled : state.phase ≠ .opening ∧ state.phase ≠ .generating := by
    constructor
    · intro opening
      rw [inv.empty (.inl opening)] at some
      cases some
    · intro generating
      rw [inv.empty (.inr generating)] at some
      cases some
  cases event with
  | system other => exact absurd rfl (script other)
  | test =>
      rw [MachineId.step] at taken
      split at taken
      · cases Option.some.inj taken
        rfl
      · cases taken
  | truncate =>
      rw [MachineId.step, if_neg settled.1] at taken
      cases taken
  | generated id =>
      rw [MachineId.step, if_neg settled.2] at taken
      cases taken
  | failed =>
      rw [MachineId.step] at taken
      split at taken
      · cases taken
      · cases Option.some.inj taken
        rfl
      · cases Option.some.inj taken
        rfl
      · cases Option.some.inj taken
        rfl
  | link =>
      rw [MachineId.step] at taken
      split at taken
      · cases Option.some.inj taken
        rfl
      · cases taken
  | killed =>
      cases Option.some.inj taken
      rfl

omit once leads in
theorem Inv.seen_step {state next : State Tree} {event : Event Tree}
    (inv : Inv kernel host place state) (some : hasSize (state.boot.files.seen place) = true)
    (spares : Spares place state event) (running : event ≠ .system .stop)
    (taken : MachineId.step kernel host state event = .some next) :
    next.boot.files.seen place = state.boot.files.seen place := by
  by_cases script : ∃ other, event = .system other
  · obtain ⟨other, rfl⟩ := script
    have runs : other ≠ .stop := fun stops => running (congrArg Event.system stops)
    exact Boots.seen_step (spares other rfl) runs (system_cases taken).1
  · rw [inv.keeps some (fun other isSystem => script ⟨other, isSystem⟩) taken]

omit once leads in
theorem Inv.safe_step {state next : State Tree} {event : Event Tree} {content : Option String}
    (inv : Inv kernel host place state) (lasts : place.fs.lasting = true)
    (safe : state.boot.files.Safe place content) (some : hasSize content = true)
    (spares : Spares place state event)
    (taken : MachineId.step kernel host state event = .some next) :
    next.boot.files.Safe place content := by
  by_cases script : ∃ other, event = .system other
  · obtain ⟨other, rfl⟩ := script
    exact Boots.safe_step lasts safe (spares other rfl) (system_cases taken).1
  · have sized : hasSize (state.boot.files.seen place) = true := safe.1 ▸ some
    rw [inv.keeps sized (fun other isSystem => script ⟨other, isSystem⟩) taken]
    exact safe

/-! ## Runs -/

theorem safe_run {state final : State Tree} {content : Option String}
    (reached : (runs kernel host place).Reachable state) (lasts : place.fs.lasting = true)
    (safe : state.boot.files.Safe place content) (some : hasSize content = true)
    (run : (runs kernel host place).Steps state final) :
    (runs kernel host place).Reachable final ∧ final.boot.files.Safe place content := by
  induction run with
  | refl => exact ⟨reached, safe⟩
  | tail _ taken held =>
      obtain ⟨event, taken⟩ := taken
      have inv := inv_reachable once leads held.1
      exact ⟨held.1.step event taken, inv.safe_step lasts held.2 some taken.1 taken.2⟩

end Steps

namespace Demo

open Boots.Demo (disks poolHost pool)

def inStore : Place (Medium String) String :=
  ⟨.disk "/dev/mapper/cryptstore", ["persist", "etc", "machine-id"]⟩

def off : State String := ⟨.boot ⟨fun _ => none, fun _ => none⟩, .idle, false⟩

end Demo

end Nixnas.Modules.MachineId
