import Nixnas.Logic.Mounts
import Nixnas.Modules.Options
import Nixnas.Modules.Path

/-!
# The persistence gate

`modules/appliance/persist-enforce.nix`: in usb mode the root is a tmpfs, and
the build fails unless every directory a service keeps its state in is accounted
for.  The gate asks for a bind mount at any ancestor; what backs the directory is
the mount nearest to it.
-/

set_option autoImplicit false

namespace Nixnas.Modules.PersistEnforce

open Nixnas.Logic

structure FileSystem where
  fsType : String
  options : List String

/-- `serviceConfig.StateDirectory or null`. -/
inductive StateDirectory where
  | null
  | string (value : String)
  | list (values : List String)
  deriving DecidableEq

/-- What the gate reads of `config`. -/
structure SystemConfig where
  nixnas : NixnasOptions
  fileSystems : AttrSet String FileSystem
  services : AttrSet String StateDirectory

structure Entry where
  serviceName : String
  dir : String
  deriving DecidableEq

def stateDirNames (raw : StateDirectory) : List String :=
  let asList := match raw with
    | .null => []
    | .string value => [value]
    | .list values => values
  (asList.flatMap (splitString ' ')).filter (· ≠ "")

/-- The ancestors of a path, its immediate parent first. -/
def ancestorsOf (path : String) : List String :=
  let parts := components path
  (List.range parts.length).reverse.map fun n => absolute (parts.take n)

def FileSystem.isBindMount (fs : FileSystem) : Bool :=
  fs.fsType = "none" && fs.options.elem "bind"

def stateDir (dir : String) : String := "/var/lib/" ++ dir

namespace SystemConfig

variable (config : SystemConfig)

def servicesWithState : AttrSet String StateDirectory :=
  config.services.filterAttrs fun _ raw => stateDirNames raw ≠ []

/-- One entry for each declared directory. -/
def stateDirEntries : List Entry :=
  (config.servicesWithState.mapAttrsToList fun serviceName raw =>
    (stateDirNames raw).map fun dir => ⟨serviceName, dir⟩).flatten

def isBindMountAt (path : String) : Bool :=
  match config.fileSystems.lookup path with
  | some fs => fs.isBindMount
  | none => false

def isPersisted (dir : String) : Bool :=
  let path := stateDir dir
  (config.fileSystems.lookup path).isSome || (ancestorsOf path).any config.isBindMountAt

def isAcknowledgedEphemeral (serviceName : String) : Bool :=
  config.nixnas.persist.explicitlyEphemeral.elem serviceName

def unaddressed : List Entry :=
  config.stateDirEntries.filter fun e =>
    !config.isPersisted e.dir && !config.isAcknowledgedEphemeral e.serviceName

def assertionFor (e : Entry) : Assertion where
  assertion := false
  message :=
    "nixnas: `" ++ e.serviceName ++ ".service` declares StateDirectory \"" ++ e.dir ++
      "\" (wants durable\nstate at /var/lib/" ++ e.dir ++
      "), but nothing accounts for it: no `fileSystems.\"/var/lib/" ++ e.dir ++
      "\"`\nentry exists (from nixnas.persist.overlayClients or your own persistence), " ++
      "no ANCESTOR\nof /var/lib/" ++ e.dir ++ " is a bind mount covering it either, and \"" ++
      e.serviceName ++ "\" is not\nin `nixnas.persist.explicitlyEphemeral`.\n\n" ++
      "Make an explicit choice — this is a deliberate gate, not a bug:\n" ++
      "  * state must survive a reboot → persist /var/lib/" ++ e.dir ++ " (add \"" ++
      e.serviceName ++ "\" to\n    nixnas.persist.overlayClients if it's a Tier-1 " ++
      "mesh/overlay identity client, or add\n    your own fileSystems bind mount for it);\n" ++
      "  * losing it every reboot is fine (cache/scratch/self-regenerating) → add\n    \"" ++
      e.serviceName ++ "\" to nixnas.persist.explicitlyEphemeral.\n"

def assertions : List Assertion :=
  if config.nixnas.enable && config.nixnas.location = .usb then
    config.unaddressed.map assertionFor
  else []

/-- The build goes on. -/
def Accepted : Prop := ∀ a ∈ config.assertions, a.assertion = true

/-- A service that is not listed as ephemeral declares the directory. -/
def Declares (dir : String) : Prop :=
  ∃ serviceName raw, config.services.lookup serviceName = some raw ∧ dir ∈ stateDirNames raw ∧
    serviceName ∉ config.nixnas.persist.explicitlyEphemeral

/-! ## What backs a directory -/

/-- The keys of `fileSystems`, each placed at its components. -/
def mountPoints : Set String := {key | (config.fileSystems.lookup key).isSome}

/-- A mount that keeps what is written at the path: its own, or a bind mount. -/
def Keeps (path key : String) : Prop :=
  components key = components path ∨ config.isBindMountAt key = true

/-- There is a mount that is the longest prefix of the path, and each such mount
keeps what is written there. -/
def Backed (path : String) : Prop :=
  (∃ key, Mounts.Backs components config.mountPoints (components path) key) ∧
    ∀ key, Mounts.Backs components config.mountPoints (components path) key → config.Keeps path key

/-- A mount above the path that is no bind mount, below every bind mount above
the path, while nothing is mounted at the path. -/
structure Shadowed (path key : String) : Prop where
  mounted : key ∈ config.mountPoints
  above : components key <+: components path
  notBind : config.isBindMountAt key = false
  free : ∀ own ∈ config.mountPoints, components own ≠ components path
  lowest : ∀ bind, config.isBindMountAt bind = true → components bind <+: components path →
    components bind <+: components key

end SystemConfig

/-! ## What the gate computes -/

/-- The components of what the first ones make up are these. -/
theorem components_take (path : String) (n : Nat) :
    components (absolute ((components path).take n)) = (components path).take n := by
  apply components_absolute
  · exact fun part isPart => not_mem_of_mem_components (List.mem_of_mem_take isPart)
  · intro part isPart
    have kept := List.of_mem_filter (List.mem_of_mem_take isPart)
    simpa using kept

/-- An ancestor stands above its path. -/
theorem components_ancestor {path ancestor : String} (member : ancestor ∈ ancestorsOf path) :
    components ancestor <+: components path := by
  obtain ⟨n, -, rfl⟩ := List.mem_map.mp member
  rw [components_take]
  exact List.take_prefix n _

namespace SystemConfig

variable {config : SystemConfig}

theorem mem_stateDirEntries (e : Entry) :
    e ∈ config.stateDirEntries ↔
      ∃ raw, config.services.lookup e.serviceName = some raw ∧ e.dir ∈ stateDirNames raw := by
  rw [stateDirEntries, List.mem_flatten]
  constructor
  · rintro ⟨entries, isService, member⟩
    obtain ⟨name, raw, found, rfl⟩ := (AttrSet.mem_mapAttrsToList _ _ _).mp isService
    obtain ⟨dir, declared, rfl⟩ := List.mem_map.mp member
    exact ⟨raw, ((AttrSet.lookup_filterAttrs _ _ _ _).mp found).1, declared⟩
  · rintro ⟨raw, found, declared⟩
    have stateful : stateDirNames raw ≠ [] := List.ne_nil_of_mem declared
    refine ⟨_, (AttrSet.mem_mapAttrsToList _ _ _).mpr ⟨e.serviceName, raw, ?_, rfl⟩, ?_⟩
    · exact (AttrSet.lookup_filterAttrs _ _ _ _).mpr ⟨found, by simpa using stateful⟩
    · exact List.mem_map.mpr ⟨e.dir, declared, rfl⟩

/-- The gate of a usb host lets a directory pass that it takes for persisted. -/
theorem accepted_iff (usb : config.nixnas.location = .usb) (enabled : config.nixnas.enable = true) :
    config.Accepted ↔ ∀ dir, config.Declares dir → config.isPersisted dir = true := by
  have isUsb : config.assertions = config.unaddressed.map assertionFor := by
    simp [assertions, usb, enabled]
  have refused : config.Accepted ↔ config.unaddressed = [] := by
    rw [Accepted, isUsb]
    constructor
    · intro holds
      rw [List.eq_nil_iff_forall_not_mem]
      intro e member
      have failed := holds _ (List.mem_map_of_mem member)
      simp [assertionFor] at failed
    · intro empty
      simp [empty]
  rw [refused, unaddressed, List.filter_eq_nil_iff]
  constructor
  · rintro passes dir ⟨serviceName, raw, found, declared, notEphemeral⟩
    have pass := passes ⟨serviceName, dir⟩ ((mem_stateDirEntries _).mpr ⟨raw, found, declared⟩)
    simpa [isAcknowledgedEphemeral, notEphemeral] using pass
  · rintro passes e member
    obtain ⟨raw, found, declared⟩ := (mem_stateDirEntries e).mp member
    by_cases ephemeral : e.serviceName ∈ config.nixnas.persist.explicitlyEphemeral
    · simp [isAcknowledgedEphemeral, ephemeral]
    · have pass := passes e.dir ⟨e.serviceName, raw, found, declared, ephemeral⟩
      simp [pass]

theorem isBindMountAt_mounted {path : String} (bind : config.isBindMountAt path = true) :
    path ∈ config.mountPoints := by
  rw [isBindMountAt] at bind
  cases found : config.fileSystems.lookup path with
  | none => simp [found] at bind
  | some fs => simp [mountPoints, found]

/-- What the gate takes for persisted has a mount above it that keeps it. -/
theorem exists_keeps {dir : String} (persisted : config.isPersisted dir = true) :
    ∃ key, Mounts.Above components config.mountPoints (components (stateDir dir)) key ∧
      config.Keeps (stateDir dir) key := by
  rw [isPersisted, Bool.or_eq_true, List.any_eq_true] at persisted
  rcases persisted with own | ⟨ancestor, member, bind⟩
  · exact ⟨stateDir dir, ⟨own, List.prefix_rfl⟩, Or.inl rfl⟩
  · exact ⟨ancestor, ⟨isBindMountAt_mounted bind, components_ancestor member⟩, Or.inr bind⟩

/-- The shadows of the mount table are the shadowing mounts of the path. -/
theorem shadows_iff (path key : String) :
    Mounts.Shadows components config.mountPoints (config.Keeps path) (components path) key ↔
      config.Shadowed path key := by
  constructor
  · intro shadows
    have notOwn : components key ≠ components path := fun same => shadows.bad (Or.inl same)
    exact {
      mounted := shadows.above.1
      above := shadows.above.2
      notBind := Bool.eq_false_iff.mpr fun bind => shadows.bad (Or.inr bind)
      free := by
        intro own mounted same
        have covered := shadows.covers own ⟨mounted, same ▸ List.prefix_rfl⟩ (Or.inl same)
        rw [same] at covered
        exact notOwn (shadows.above.2.eq_of_length_le covered.length_le)
      lowest := fun bind isBind above =>
        shadows.covers bind ⟨isBindMountAt_mounted isBind, above⟩ (Or.inr isBind) }
  · intro shadowed
    refine ⟨⟨shadowed.mounted, shadowed.above⟩, ?_, ?_⟩
    · rintro (same | bind)
      · exact shadowed.free key shadowed.mounted same
      · rw [shadowed.notBind] at bind
        cases bind
    · rintro other above (same | bind)
      · exact absurd same (shadowed.free other above.1)
      · exact shadowed.lowest other bind above.2

/-- Every declared directory of an accepted usb host is backed by a mount that
keeps it exactly when no mount shadows one. -/
theorem accepted_backed_iff (config : SystemConfig) (usb : config.nixnas.location = .usb)
    (enabled : config.nixnas.enable = true) (accepted : config.Accepted) :
    (∀ dir, config.Declares dir → config.Backed (stateDir dir)) ↔
      ∀ dir, config.Declares dir → ∀ key, ¬ config.Shadowed (stateDir dir) key := by
  have unshadowed (dir : String) :
      (∀ key, Mounts.Backs components config.mountPoints (components (stateDir dir)) key →
        config.Keeps (stateDir dir) key) ↔ ∀ key, ¬ config.Shadowed (stateDir dir) key := by
    rw [Mounts.backs_good_iff]
    simp only [shadows_iff]
  constructor
  · intro backed dir declared
    exact (unshadowed dir).mp (backed dir declared).2
  · intro free dir declared
    obtain ⟨key, above, -⟩ := exists_keeps ((accepted_iff usb enabled).mp accepted dir declared)
    exact ⟨Mounts.exists_backs above, (unshadowed dir).mpr (free dir declared)⟩

/-! ## Two hosts -/

namespace Demo

def tmpfs : FileSystem := ⟨"tmpfs", ["defaults", "mode=755"]⟩

def bind : FileSystem := ⟨"none", ["bind"]⟩

/-- A usb host with one service, none of its directories ephemeral. -/
def host (mounts : List (String × FileSystem)) (serviceName dir : String) : SystemConfig where
  nixnas :=
    { enable := true
      location := .usb
      hot := ⟨none, ∅⟩
      root := ⟨none, ∅⟩
      storage := ⟨∅, []⟩
      persist := ⟨[], []⟩ }
  fileSystems := AttrSet.listToAttrs mounts
  services := AttrSet.listToAttrs [(serviceName, .string dir)]

/-- `hosts/matrix/persist-nested.nix`. -/
def nested : SystemConfig :=
  host [("/", tmpfs), ("/var/lib/matrix-bind", bind)] "demo-persist-nested"
    "matrix-bind/nested/deeper"

/-- A scratch mount inside a bind-mounted `/var/lib`. -/
def scratch : SystemConfig :=
  host [("/", tmpfs), ("/var/lib", bind), ("/var/lib/acme", tmpfs)] "acme" "acme/certs"

theorem declares_host {mounts : List (String × FileSystem)} {serviceName only dir : String}
    (single : stateDirNames (.string only) = [only])
    (declared : (host mounts serviceName only).Declares dir) : dir = only := by
  obtain ⟨name, raw, found, member, -⟩ := declared
  have entry := AttrSet.mem_of_lookup_listToAttrs found
  simp only [List.mem_singleton, Prod.mk.injEq] at entry
  rw [entry.2, single, List.mem_singleton] at member
  exact member

theorem mountPoints_host {mounts : List (String × FileSystem)} {serviceName only key : String}
    (mounted : key ∈ (host mounts serviceName only).mountPoints) : key ∈ mounts.map (·.1) :=
  (AttrSet.lookup_listToAttrs_isSome mounts key).mp (Option.isSome_iff_exists.mp mounted)

theorem nested_accepted : nested.Accepted := by
  rw [accepted_iff rfl rfl]
  intro dir declared
  rw [declares_host (by decide) declared]
  decide

theorem nested_declares : nested.Declares "matrix-bind/nested/deeper" :=
  ⟨"demo-persist-nested", .string "matrix-bind/nested/deeper", by decide, by decide +kernel,
    List.not_mem_nil⟩

theorem scratch_accepted : scratch.Accepted := by
  rw [accepted_iff rfl rfl]
  intro dir declared
  rw [declares_host (by decide) declared]
  decide

theorem scratch_declares : scratch.Declares "acme/certs" :=
  ⟨"acme", .string "acme/certs", by decide, by decide +kernel, List.not_mem_nil⟩

theorem scratch_shadowed : scratch.Shadowed (stateDir "acme/certs") "/var/lib/acme" where
  mounted := (by decide : (scratch.fileSystems.lookup "/var/lib/acme").isSome = true)
  above := by decide
  notBind := by decide
  free := by
    intro own mounted
    have known := mountPoints_host mounted
    simp only [List.map_cons, List.map_nil, List.mem_cons, List.not_mem_nil, or_false] at known
    rcases known with rfl | rfl | rfl <;> decide
  lowest := by
    intro key isBind _
    have known := mountPoints_host (isBindMountAt_mounted isBind)
    simp only [List.map_cons, List.map_nil, List.mem_cons, List.not_mem_nil, or_false] at known
    rcases known with rfl | rfl | rfl <;> decide

end Demo

/-- A directory below the scratch mount is lost with it. -/
theorem accepted_scratch_lost :
    ¬ ∀ config : SystemConfig, config.nixnas.location = .usb → config.nixnas.enable = true →
      config.Accepted → ∀ dir, config.Declares dir → config.Backed (stateDir dir) := by
  intro sound
  obtain ⟨⟨key, backs⟩, keeps⟩ := sound Demo.scratch rfl rfl Demo.scratch_accepted "acme/certs"
    Demo.scratch_declares
  exact (Mounts.backs_good_iff _).mp keeps _ ((shadows_iff _ _).mpr Demo.scratch_shadowed)

theorem accepted_nested_backed : Demo.nested.Backed (stateDir "matrix-bind/nested/deeper") := by
  apply (accepted_backed_iff Demo.nested rfl rfl Demo.nested_accepted).mpr _ _ Demo.nested_declares
  intro dir declared key shadowed
  rw [Demo.declares_host (by decide) declared] at shadowed
  have known := Demo.mountPoints_host shadowed.mounted
  simp only [List.map_cons, List.map_nil, List.mem_cons, List.not_mem_nil, or_false] at known
  have isBind : Demo.nested.isBindMountAt "/var/lib/matrix-bind" = true := by decide
  rcases known with rfl | rfl
  · have covered := shadowed.lowest "/var/lib/matrix-bind" isBind (by decide)
    revert covered
    decide
  · rw [shadowed.notBind] at isBind
    cases isBind

end SystemConfig

end Nixnas.Modules.PersistEnforce
