import Nixnas.Modules.Options

/-!
# Store location

`modules/store/location.nix`: the LUKS members a hot-mode main opens in its
initrd, as `nixluks.volumes`, and the module's assertions.

The three sets of members are merged by two right-biased updates.  Every
declared member reaches the rendered volumes, with its own device and, for a
store or root member, as boot-critical, exactly when the members of the store
and the root agree where their names meet and no data member reuses one of
those names; nothing in the module checks either.
-/

set_option autoImplicit false

namespace Nixnas.Modules.Location

open Nixnas.Logic

variable (config : Config)

structure InitrdUnlock where
  enable : Bool
  critical : Bool
  deriving DecidableEq, Repr

/-- `nixluks.volumes.<name>`.  The order is `orderByName.${n}`, where `none`
would be the evaluation error of a missing name. -/
structure Volume where
  device : String
  order : Option Nat
  manageUnlock : Bool
  initrdUnlock : InitrdUnlock
  deriving DecidableEq, Repr

def bootCriticalUnlock : AttrSet String DiskByAny :=
  config.nixnas.hot.unlock.update config.nixnas.root.unlock

def dataUnlock : AttrSet String DiskById := config.nixnas.storage.unlock

def bootCriticalDevices : AttrSet String String :=
  (bootCriticalUnlock config).mapAttrs fun _ device => device.val

def dataDevices : AttrSet String String :=
  (dataUnlock config).mapAttrs fun _ device => device.val

/-- `attrNames (bootCriticalUnlock // dataUnlock)`. -/
def allUnlockNames : List String :=
  ((bootCriticalDevices config).update (dataDevices config)).attrNames

def orderByName : AttrSet String Nat :=
  .listToAttrs ((allUnlockNames config).mapIdx fun i name => (name, i))

def volume (critical : Bool) (name device : String) : Volume where
  device := device
  order := (orderByName config).lookup name
  manageUnlock := false
  initrdUnlock := ⟨true, critical⟩

/-- `nixluks.volumes`; under `mkIf isHot`. -/
def volumes : AttrSet String Volume :=
  if config.isHot then
    ((bootCriticalDevices config).mapAttrs (volume config true)).update
      ((dataDevices config).mapAttrs (volume config false))
  else ∅

def assertions : List Assertion :=
  if config.isHot then
    [ { assertion := config.nixnas.hot.device ≠ none
        message := "nixnas.store.location = \"hot\" requires nixnas.store.hot.device (where the MAIN /nix lives)." },
      { assertion := config.nixnas.root.device ≠ none
        message := "nixnas.store.location = \"hot\" requires nixnas.store.root.device — the MAIN's
PERSISTENT root filesystem. There is no tmpfs-root fallback: a main accumulates
operational state (this is exactly the failure class an ephemeral root produces
— see docs/ARCHITECTURE.md §3), so root MUST be a real device on your own
encrypted storage, same as store.hot.device. A ZFS dataset name (with
store.root.fsType = \"zfs\", typically a sibling of store.hot.device, e.g.
\"hot/nixnas/root\" beside \"hot/nixnas/nix\"; declare each one's mount shape with
store.root.zfsMountpoint), or a /dev/mapper/<name> for LUKS+ext4/btrfs/f2fs.
" },
      { assertion := !config.nixnas.hot.unlock.isEmpty
        message := "hot mode requires nixnas.store.hot.unlock — the LUKS members the initrd opens with YOUR key." },
      { assertion := config.nixnas.persist.overlayClients = [] ∧
          config.nixnas.persist.explicitlyEphemeral = []
        message := "nixnas.store.location = \"hot\" has a REAL persistent root (docs/ARCHITECTURE.md
§3) — nixnas.persist.overlayClients and nixnas.persist.explicitlyEphemeral are
usb-mode-only concepts (routing identity around a tmpfs root) and have NO EFFECT
here: every service's /var/lib state already survives a reboot on your
persistent root, the same as any ordinary NixOS box. Remove both from this
host's config.
" },
      { assertion := config.remoteUnlockEnable
        message := "hot mode enters the store key in the initrd — keep boot.remoteUnlock.enable = true (initrd-SSH), or use a console/IPMI-SOL." },
      { assertion := (allUnlockNames config).all fun name => config.initrdLuksDevices.contains name
        message := "hot mode declared LUKS members (" ++
          String.intercalate ", " (allUnlockNames config) ++ ") as
nixluks.volumes.*, but boot.initrd.luks.devices does not contain all of them.
This means whoever composes this host's module list is missing
nixluks.nixosModules.initrd (the separate NixOS-only stage-1 companion —
nixluks.nixosModules.nixluks / .default alone is not enough). Add it alongside
nixluks's base module, the same way lanzaboote/disko/impermanence are composed.
" } ]
  else []

/-- No assertion of the module fails. -/
def Accepted : Prop := ∀ a ∈ assertions config, a.assertion = true

/-! ## What the rendered volumes hold -/

theorem lookup_bootCriticalDevices (name : String) :
    (bootCriticalDevices config).lookup name =
      ((config.nixnas.root.unlock.lookup name).or (config.nixnas.hot.unlock.lookup name)).map
        (·.val) := by
  rw [bootCriticalDevices, AttrSet.lookup_mapAttrs, bootCriticalUnlock, AttrSet.lookup_update]

theorem lookup_dataDevices (name : String) :
    (dataDevices config).lookup name =
      (config.nixnas.storage.unlock.lookup name).map (·.val) := by
  rw [dataDevices, AttrSet.lookup_mapAttrs, dataUnlock]

variable {config}

/-- A data member decides, then a root member, then a store member. -/
theorem lookup_volumes (hot : config.isHot = true) (name : String) :
    (volumes config).lookup name =
      ((config.nixnas.storage.unlock.lookup name).map
        fun device => volume config false name device.val).or
      (((config.nixnas.root.unlock.lookup name).or (config.nixnas.hot.unlock.lookup name)).map
        fun device => volume config true name device.val) := by
  rw [volumes, if_pos hot, AttrSet.lookup_update, AttrSet.lookup_mapAttrs,
    AttrSet.lookup_mapAttrs, lookup_bootCriticalDevices, lookup_dataDevices, Option.map_map,
    Option.map_map]
  rfl

theorem lookup_volumes_of_data (hot : config.isHot = true) {name : String} {device : DiskById}
    (declared : config.nixnas.storage.unlock.lookup name = some device) :
    (volumes config).lookup name = some (volume config false name device.val) := by
  rw [lookup_volumes hot, declared]
  rfl

theorem lookup_volumes_of_root (hot : config.isHot = true) {name : String} {device : DiskByAny}
    (declared : config.nixnas.root.unlock.lookup name = some device)
    (noData : config.nixnas.storage.unlock.lookup name = none) :
    (volumes config).lookup name = some (volume config true name device.val) := by
  rw [lookup_volumes hot, declared, noData]
  rfl

theorem lookup_volumes_of_hot (hot : config.isHot = true) {name : String} {device : DiskByAny}
    (declared : config.nixnas.hot.unlock.lookup name = some device)
    (noRoot : config.nixnas.root.unlock.lookup name = none)
    (noData : config.nixnas.storage.unlock.lookup name = none) :
    (volumes config).lookup name = some (volume config true name device.val) := by
  rw [lookup_volumes hot, declared, noRoot, noData]
  rfl

/-- Every rendered volume carries the position of its name as its order. -/
theorem volumes_numbered (hot : config.isHot = true) {name : String} {rendered : Volume}
    (found : (volumes config).lookup name = some rendered) :
    ∃ (i : Nat) (inBounds : i < (allUnlockNames config).length),
      (allUnlockNames config)[i] = name ∧ rendered.order = some i := by
  have ordered : rendered.order = (orderByName config).lookup name := by
    rw [lookup_volumes hot, Option.or_eq_some_iff] at found
    rcases found with found | ⟨_, found⟩ <;>
    · obtain ⟨device, _, rfl⟩ := Option.map_eq_some_iff.mp found
      rfl
  have member : name ∈ allUnlockNames config := by
    rw [allUnlockNames, AttrSet.mem_attrNames, AttrSet.lookup_update, lookup_dataDevices,
      lookup_bootCriticalDevices]
    rw [lookup_volumes hot, Option.or_eq_some_iff] at found
    rcases found with found | ⟨_, found⟩
    · obtain ⟨device, declared, _⟩ := Option.map_eq_some_iff.mp found
      exact ⟨device.val, by rw [declared]; rfl⟩
    · obtain ⟨device, declared, _⟩ := Option.map_eq_some_iff.mp found
      rw [declared]
      cases config.nixnas.storage.unlock.lookup name with
      | none => exact ⟨device.val, rfl⟩
      | some data => exact ⟨data.val, rfl⟩
  obtain ⟨i, inBounds, same⟩ := List.mem_iff_getElem.mp member
  refine ⟨i, inBounds, same, ?_⟩
  have distinct : (allUnlockNames config).Nodup := AttrSet.attrNames_nodup _
  rw [ordered, ← same]
  exact AttrSet.lookup_numbered distinct id Function.injective_id (fun i _ => i) i inBounds

/-! ## No member dropped, redirected or downgraded -/

variable (config)

def Rendered (name device : String) : Prop :=
  ∃ rendered, (volumes config).lookup name = some rendered ∧ rendered.device = device

structure Faithful : Prop where
  hot : ∀ name device, config.nixnas.hot.unlock.lookup name = some device →
    Rendered config name device.val
  root : ∀ name device, config.nixnas.root.unlock.lookup name = some device →
    Rendered config name device.val
  data : ∀ name device, config.nixnas.storage.unlock.lookup name = some device →
    Rendered config name device.val
  critical : ∀ name, name ∈ config.nixnas.hot.unlock ∨ name ∈ config.nixnas.root.unlock →
    ∃ rendered, (volumes config).lookup name = some rendered ∧
      rendered.initrdUnlock.critical = true
  ordered : ∀ name rendered, (volumes config).lookup name = some rendered →
    rendered.order.isSome
  distinct : ∀ first second left right, (volumes config).lookup first = some left →
    (volumes config).lookup second = some right → left.order = right.order → first = second

/-- Store and root members of one name are one device, and no data member has
the name of either. -/
structure NamesApart : Prop where
  sameDevice : ∀ name first second, config.nixnas.hot.unlock.lookup name = some first →
    config.nixnas.root.unlock.lookup name = some second → first = second
  dataApart : ∀ name ∈ config.nixnas.storage.unlock,
    name ∉ config.nixnas.hot.unlock ∧ name ∉ config.nixnas.root.unlock

variable {config}

theorem volumes_ordered (hot : config.isHot = true) (name : String) (rendered : Volume)
    (found : (volumes config).lookup name = some rendered) : rendered.order.isSome := by
  obtain ⟨i, _, _, ordered⟩ := volumes_numbered hot found
  rw [ordered]
  rfl

/-- Orders never collide, whatever the names. -/
theorem volumes_order_injective (hot : config.isHot = true) (first second : String)
    (left right : Volume) (foundLeft : (volumes config).lookup first = some left)
    (foundRight : (volumes config).lookup second = some right)
    (same : left.order = right.order) : first = second := by
  obtain ⟨i, _, atFirst, leftOrder⟩ := volumes_numbered hot foundLeft
  obtain ⟨j, _, atSecond, rightOrder⟩ := volumes_numbered hot foundRight
  have sameIndex : i = j := by
    rw [leftOrder, rightOrder] at same
    exact Option.some.inj same
  subst j
  rw [← atFirst, ← atSecond]

theorem NamesApart.noData (apart : NamesApart config) {name : String}
    (bootCritical : name ∈ config.nixnas.hot.unlock ∨ name ∈ config.nixnas.root.unlock) :
    config.nixnas.storage.unlock.lookup name = none := by
  rw [AList.lookup_eq_none]
  intro declared
  have free := apart.dataApart name declared
  exact bootCritical.elim free.1 free.2

/-- A store or root member keeps its device and stays boot-critical. -/
theorem NamesApart.lookup_bootCritical (apart : NamesApart config) (hot : config.isHot = true)
    {name : String} {device : DiskByAny}
    (declared : config.nixnas.hot.unlock.lookup name = some device ∨
      config.nixnas.root.unlock.lookup name = some device) :
    (volumes config).lookup name = some (volume config true name device.val) := by
  have noData : config.nixnas.storage.unlock.lookup name = none := by
    apply apart.noData
    simp only [← AList.lookup_isSome, Option.isSome_iff_exists]
    exact declared.imp (fun found => ⟨_, found⟩) fun found => ⟨_, found⟩
  rcases declared with inHot | inRoot
  · cases atRoot : config.nixnas.root.unlock.lookup name with
    | none => exact lookup_volumes_of_hot hot inHot atRoot noData
    | some other =>
        rw [apart.sameDevice name device other inHot atRoot]
        exact lookup_volumes_of_root hot atRoot noData
  · exact lookup_volumes_of_root hot inRoot noData

theorem faithful_of_namesApart (hot : config.isHot = true) (apart : NamesApart config) :
    Faithful config where
  hot name device declared := ⟨_, apart.lookup_bootCritical hot (.inl declared), rfl⟩
  root name device declared := ⟨_, apart.lookup_bootCritical hot (.inr declared), rfl⟩
  data name device declared := ⟨_, lookup_volumes_of_data hot declared, rfl⟩
  critical name bootCritical := by
    simp only [← AList.lookup_isSome, Option.isSome_iff_exists] at bootCritical
    rcases bootCritical with ⟨device, declared⟩ | ⟨device, declared⟩
    · exact ⟨_, apart.lookup_bootCritical hot (.inl declared), rfl⟩
    · exact ⟨_, apart.lookup_bootCritical hot (.inr declared), rfl⟩
  ordered := volumes_ordered hot
  distinct := volumes_order_injective hot

theorem namesApart_of_faithful (hot : config.isHot = true) (faithful : Faithful config) :
    NamesApart config where
  sameDevice name first second inHot inRoot := by
    obtain ⟨rendered, found, device⟩ := faithful.hot name first inHot
    obtain ⟨same, foundSame, deviceSame⟩ := faithful.root name second inRoot
    rw [found, Option.some.injEq] at foundSame
    apply Subtype.ext
    rw [← device, ← deviceSame, foundSame]
  dataApart name declared := by
    obtain ⟨device, declared⟩ := Option.isSome_iff_exists.mp (AList.lookup_isSome.mpr declared)
    have notCritical : ¬ (name ∈ config.nixnas.hot.unlock ∨ name ∈ config.nixnas.root.unlock) := by
      intro bootCritical
      obtain ⟨rendered, found, critical⟩ := faithful.critical name bootCritical
      rw [lookup_volumes_of_data hot declared, Option.some.injEq] at found
      subst rendered
      exact Bool.false_ne_true critical
    exact not_or.mp notCritical

/-- In a hot-mode configuration every declared member is rendered with its own
device, every store and root member as boot-critical, exactly when the three
sets' names are apart in the sense of `NamesApart`. -/
theorem faithful_iff_namesApart (config : Config) (hot : config.isHot = true) :
    Faithful config ↔ NamesApart config :=
  ⟨namesApart_of_faithful hot, faithful_of_namesApart hot⟩

/-- A hot-mode main with one store member `tank0` and the given data members. -/
def demoHot (data : AttrSet String DiskById) : Config where
  nixnas :=
    { enable := true
      location := .hot
      hot :=
        { device := some "hot/nixnas/nix"
          unlock := .listToAttrs [("tank0", ⟨"/dev/disk/by-id/ata-main", by decide⟩)] }
      root := { device := some "hot/nixnas/root", unlock := ∅ }
      storage := { unlock := data, zfsPools := [] }
      persist := { overlayClients := [], explicitlyEphemeral := [] } }
  remoteUnlockEnable := true
  initrdLuksDevices := ["cold0", "tank0"]
  zfsPackage := "/nix/store/zfs"

def coldDisk : DiskById := ⟨"/dev/disk/by-id/ata-cold", by decide⟩

theorem demoHot_faithful : Faithful (demoHot (.listToAttrs [("cold0", coldDisk)])) := by
  refine (faithful_iff_namesApart _ rfl).mpr ⟨fun name first second _ inRoot => ?_, ?_⟩
  · cases inRoot
  · decide

/-- `tank0` is a store member and, on another disk, a data member. -/
theorem reused_name_not_faithful :
    ¬ ∀ config : Config, config.isHot = true → Accepted config → Faithful config := by
  intro faithful
  obtain ⟨rendered, found, device⟩ :=
    (faithful (demoHot (.listToAttrs [("tank0", coldDisk)])) rfl (by unfold Accepted; decide)).hot
      "tank0" ⟨"/dev/disk/by-id/ata-main", by decide⟩ rfl
  cases found
  exact absurd device (by decide)

end Nixnas.Modules.Location
