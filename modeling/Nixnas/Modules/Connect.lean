import Nixnas.Modules.Options
import Nixnas.Systemd.Cryptsetup

/-!
# Connected storage

The units of `modules/storage/connect.nix`: the crypttab of the data members,
the drop-ins that open them one after the other, the pool imports and
`nixnas-storage.target`.

Two laws of the unit graph hold only in part.  The target is emitted with the
data members alone, so a configuration with pools and no member has imports
that nothing pulls; and the member units are named without the escaping the
crypttab generator applies, so the serial unlock reaches every member exactly
when every name is its own escape.
-/

set_option autoImplicit false

namespace Nixnas.Modules.Connect

open Nixnas.Logic
open Nixnas.Systemd

variable (config : Config)

/-- A `systemd.services` entry. -/
structure Service where
  description : Option String
  overrideStrategy : Option String
  after : List String
  serviceConfig : List (String × String)
  script : Option String
  deriving DecidableEq, Repr

/-- A `systemd.targets` entry. -/
structure Target where
  description : String
  wants : List String
  after : List String
  wantedBy : List String
  deriving DecidableEq, Repr

def unlockNames : List String := config.nixnas.storage.unlock.attrNames

/-- `systemd-cryptsetup@${n}`, with the name as declared. -/
def unlockService (name : String) : String := "systemd-cryptsetup@" ++ name

def importService (pool : String) : String := "nixnas-import-" ++ pool

/-- The unit of a service. -/
def serviceUnit (service : String) : String := service ++ ".service"

def unlockUnits : List String :=
  (unlockNames config).map fun name => serviceUnit (unlockService name)

def importUnits : List String :=
  config.nixnas.storage.zfsPools.map fun pool => serviceUnit (importService pool)

def crypttabEntry (name device : String) : String :=
  name ++ " " ++ device ++ " none luks,noauto,nofail"

def crypttab : String :=
  String.intercalate "\n"
    (config.nixnas.storage.unlock.mapAttrsToList fun name device => crypttabEntry name device.val)

def zpool : String := config.zfsPackage ++ "/bin/zpool"

/-- `storage.unlock != { }`, under `mkIf cfg.enable`. -/
def unlocks : Bool := config.nixnas.enable && !config.nixnas.storage.unlock.isEmpty

/-- `storage.zfsPools != [ ]`, under `mkIf cfg.enable`. -/
def imports : Bool := config.nixnas.enable && !config.nixnas.storage.zfsPools.isEmpty

/-- `environment.etc."crypttab".text`. -/
def etcCrypttab : Option String :=
  if unlocks config then some (crypttab config ++ "\n") else none

def unlockDropIn (i : Nat) : Service where
  description := none
  overrideStrategy := some "asDropin"
  after :=
    if i > 0 then
      ((unlockNames config)[i - 1]?).toList.map fun name => serviceUnit (unlockService name)
    else []
  serviceConfig := []
  script := none

def unlockServices : AttrSet String Service :=
  if unlocks config then
    .listToAttrs ((unlockNames config).mapIdx fun i name =>
      (unlockService name, unlockDropIn config i))
  else ∅

def importDefinition (pool : String) : Service where
  description := some ("Import ZFS pool " ++ pool ++ " (nixnas data storage)")
  overrideStrategy := none
  after := if config.isHot then [] else unlockUnits config
  serviceConfig := [("Type", "oneshot"), ("RemainAfterExit", "true")]
  script := some
    ("if " ++ zpool config ++ " list " ++ pool ++ " >/dev/null 2>&1; then exit 0; fi\n" ++
      "exec " ++ zpool config ++ " import -d /dev/mapper " ++ pool ++ "\n")

def importServices : AttrSet String Service :=
  if imports config then
    .listToAttrs (config.nixnas.storage.zfsPools.map fun pool =>
      (importService pool, importDefinition config pool))
  else ∅

/-- The two blocks never share a service name, so merging them is their union. -/
def services : AttrSet String Service := (unlockServices config).update (importServices config)

def storageTarget : Target where
  description := "nixnas data storage (LUKS members open, ZFS pools imported, mounts up)"
  wants := (if config.isHot then [] else unlockUnits config) ++ importUnits config
  after := (if config.isHot then [] else unlockUnits config) ++ importUnits config
  wantedBy := if config.isHot then ["multi-user.target"] else []

def targets : AttrSet String Target :=
  if unlocks config then .listToAttrs [("nixnas-storage", storageTarget config)] else ∅

/-! ## Names and lookups -/

theorem unlockService_injective : Function.Injective unlockService := by
  intro first second same
  exact (String.append_right_inj _).mp same

theorem serviceUnit_injective : Function.Injective serviceUnit := by
  intro first second same
  exact (String.append_left_inj _).mp same

theorem unlockService_ne_importService (name pool : String) :
    unlockService name ≠ importService pool := by
  intro same
  have plain : "systemd-cryptsetup@" ++ name = "nixnas-import-" ++ pool := same
  have chars := congrArg String.toList plain
  rw [String.toList_append, String.toList_append] at chars
  have unlockHead : "systemd-cryptsetup@".toList = 's' :: "ystemd-cryptsetup@".toList := by decide
  have importHead : "nixnas-import-".toList = 'n' :: "ixnas-import-".toList := by decide
  rw [unlockHead, importHead] at chars
  have heads : 's' = 'n' := (List.cons.inj chars).1
  revert heads
  decide

theorem mem_unlockNames (name : String) :
    name ∈ unlockNames config ↔
      ∃ device, config.nixnas.storage.unlock.lookup name = some device :=
  AttrSet.mem_attrNames _ name

theorem unlockNames_nodup : (unlockNames config).Nodup := AttrSet.attrNames_nodup _

theorem unlockUnits_nodup : (unlockUnits config).Nodup :=
  (unlockNames_nodup config).map (serviceUnit_injective.comp unlockService_injective)

/-! ## The pool imports and their target -/

/-- The storage target exists, wants the import of every pool, and in hot mode
is wanted by `multi-user.target`. -/
def ImportsPulled : Prop :=
  ∃ target, (targets config).lookup "nixnas-storage" = some target ∧
    (∀ pool ∈ config.nixnas.storage.zfsPools,
      (∃ service, (services config).lookup (importService pool) = some service) ∧
        serviceUnit (importService pool) ∈ target.wants) ∧
    (config.isHot = true → "multi-user.target" ∈ target.wantedBy)

variable {config}

theorem isEmpty_false_iff {Value : Type} (attrs : AttrSet String Value) :
    attrs.isEmpty = false ↔ attrs ≠ ∅ := by
  rw [← Bool.not_eq_true, AttrSet.isEmpty_iff]

theorem lookup_target (some : unlocks config = true) :
    (targets config).lookup "nixnas-storage" = .some (storageTarget config) := by
  rw [targets, if_pos some, AttrSet.lookup_listToAttrs_cons, if_pos rfl]

theorem lookup_target_none (none : unlocks config = false) :
    (targets config).lookup "nixnas-storage" = .none := by
  rw [targets, none]
  rfl

/-- Every declared pool has its import service. -/
theorem lookup_importService (enabled : config.nixnas.enable = true) {pool : String}
    (member : pool ∈ config.nixnas.storage.zfsPools) :
    (services config).lookup (importService pool) = some (importDefinition config pool) := by
  have some : imports config = true := by
    cases pools : config.nixnas.storage.zfsPools with
    | nil => simp [pools] at member
    | cons first rest => simp [imports, enabled, pools]
  have found : (importServices config).lookup (importService pool) =
      .some (importDefinition config pool) := by
    rw [importServices, if_pos some, AttrSet.lookup_listToAttrs, List.find?_map, Option.map_map]
    have same : (fun pair : String × Service => decide (pair.1 = importService pool)) ∘
        (fun other => (importService other, importDefinition config other)) =
        fun other => decide (other = pool) := by
      funext other
      simp [importService, String.append_right_inj]
    rw [same]
    cases first : config.nixnas.storage.zfsPools.find? fun other => other = pool with
    | none =>
        rw [List.find?_eq_none] at first
        exact absurd (decide_eq_true rfl) (first pool member)
    | some other =>
        have isPool : other = pool := by simpa using List.find?_some first
        rw [isPool]
        rfl
  rw [services, AttrSet.lookup_update, found]
  rfl

theorem storageTarget_wants_imports {pool : String}
    (member : pool ∈ config.nixnas.storage.zfsPools) :
    serviceUnit (importService pool) ∈ (storageTarget config).wants :=
  List.mem_append_right _ (List.mem_map_of_mem member)

theorem importsPulled_of_unlocks (enabled : config.nixnas.enable = true)
    (some : config.nixnas.storage.unlock ≠ ∅) : ImportsPulled config := by
  have emitted : unlocks config = true := by
    rw [unlocks, enabled, (isEmpty_false_iff _).mpr some]
    rfl
  refine ⟨storageTarget config, lookup_target emitted, ?_, ?_⟩
  · intro pool member
    exact ⟨⟨_, lookup_importService enabled member⟩, storageTarget_wants_imports member⟩
  · intro hot
    simp [storageTarget, hot]

theorem not_importsPulled_of_empty (empty : config.nixnas.storage.unlock = ∅) :
    ¬ ImportsPulled config := by
  rintro ⟨target, found, _⟩
  have silent : unlocks config = false := by
    rw [unlocks, (AttrSet.isEmpty_iff _).mpr empty]
    simp
  rw [lookup_target_none silent] at found
  contradiction

/-- The imports are pulled exactly when some data member is declared: the target
is emitted with the members. -/
theorem importsPulled_iff (config : Config) (enabled : config.nixnas.enable = true) :
    ImportsPulled config ↔ config.nixnas.storage.unlock ≠ ∅ := by
  constructor
  · intro pulled empty
    exact not_importsPulled_of_empty empty pulled
  · exact importsPulled_of_unlocks enabled

/-- A configuration with the given location, members and pools. -/
def demo (location : StoreLocation) (unlock : AttrSet String DiskById) (pools : List String) :
    Config where
  nixnas :=
    { enable := true
      location := location
      hot := { device := none, unlock := ∅ }
      root := { device := none, unlock := ∅ }
      storage := { unlock := unlock, zfsPools := pools }
      persist := { overlayClients := [], explicitlyEphemeral := [] } }
  remoteUnlockEnable := true
  initrdLuksDevices := []
  zfsPackage := "/nix/store/zfs"

def archiveDisk : DiskById := ⟨"/dev/disk/by-id/ata-archive", by decide⟩

theorem demo_importsPulled :
    ImportsPulled (demo .usb (.listToAttrs [("archive0", archiveDisk)]) ["cold"]) :=
  (importsPulled_iff _ rfl).mpr (by
    rw [← isEmpty_false_iff]
    rfl)

theorem pool_without_member_not_pulled :
    ¬ ∀ config : Config, config.nixnas.enable = true → config.nixnas.storage.zfsPools ≠ [] →
      ImportsPulled config := fun pulled =>
  not_importsPulled_of_empty rfl (pulled (demo .usb ∅ ["cold"]) rfl (by decide))

/-! ## The serial unlock -/

variable (config)

/-- What the crypttab generator reads from the emitted file. -/
def crypttabMembers : List CrypttabEntry := (etcCrypttab config).elim [] crypttabEntries

def memberUnits : List String := (etcCrypttab config).elim [] generatedUnits

/-- An `After=` edge that a drop-in installs. -/
def DropInAfter (later earlier : String) : Prop :=
  ∃ name service, (services config).lookup name = some service ∧
    service.overrideStrategy = some "asDropin" ∧ later = serviceUnit name ∧
    earlier ∈ service.after

/-- Starting the storage target opens every declared member, one at a time,
before any import. -/
structure SerialUnlock : Prop where
  opened : ∀ name device, config.nixnas.storage.unlock.lookup name = some device →
    ⟨name, device.val⟩ ∈ crypttabMembers config
  wanted : ∀ unit ∈ memberUnits config, ∃ target,
    (targets config).lookup "nixnas-storage" = some target ∧ unit ∈ target.wants ∧
      unit ∈ target.after
  acyclic : ∀ unit, ¬ Relation.TransGen (DropInAfter config) unit unit
  total : ∀ first ∈ memberUnits config, ∀ second ∈ memberUnits config, first ≠ second →
    Relation.TransGen (DropInAfter config) first second ∨
      Relation.TransGen (DropInAfter config) second first
  beforeImports : ∀ pool ∈ config.nixnas.storage.zfsPools, ∃ service,
    (services config).lookup (importService pool) = some service ∧
      ∀ unit ∈ memberUnits config, unit ∈ service.after

/-- The name is not empty and its own escape, and the device path holds no white
space. -/
def PlainMember (name : String) (device : DiskById) : Prop :=
  name ≠ "" ∧ escape name = name ∧ ∀ c ∈ device.val.toList, isSpace c = false

variable {config}

theorem unlocks_of_declared (enabled : config.nixnas.enable = true) {name : String}
    {device : DiskById} (declared : config.nixnas.storage.unlock.lookup name = some device) :
    unlocks config = true := by
  have some : config.nixnas.storage.unlock ≠ ∅ := by
    intro empty
    rw [empty, AList.lookup_empty] at declared
    contradiction
  rw [unlocks, enabled, (isEmpty_false_iff _).mpr some]
  rfl

theorem lookup_unlockService (emitted : unlocks config = true) {i : Nat}
    (inBounds : i < (unlockNames config).length) :
    (services config).lookup (unlockService (unlockNames config)[i]) =
      some (unlockDropIn config i) := by
  have noImport : (importServices config).lookup (unlockService (unlockNames config)[i]) = none := by
    rw [importServices]
    split
    · rw [AttrSet.lookup_listToAttrs, Option.map_eq_none_iff, List.find?_eq_none]
      intro pair member
      obtain ⟨pool, _, rfl⟩ := List.mem_map.mp member
      simpa using (unlockService_ne_importService _ pool).symm
    · rfl
  rw [services, AttrSet.lookup_update, noImport, Option.none_or, unlockServices, if_pos emitted]
  exact AttrSet.lookup_numbered (unlockNames_nodup config) unlockService unlockService_injective
    (fun i _ => unlockDropIn config i) i inBounds

theorem mem_drop_in_after {i : Nat} {unit : String} :
    unit ∈ (unlockDropIn config i).after ↔ 0 < i ∧ (unlockUnits config)[i - 1]? = some unit := by
  simp only [unlockDropIn, unlockUnits, List.getElem?_map]
  by_cases later : i > 0
  · rw [if_pos later]
    simp [later]
  · simp [later]

/-- The drop-ins' edges are those of the chain of member units. -/
theorem chainEdge_of_dropInAfter {later earlier : String}
    (edge : DropInAfter config later earlier) :
    ChainEdge (unlockUnits config) later earlier := by
  obtain ⟨name, service, found, dropIn, rfl, member⟩ := edge
  rw [services, AttrSet.lookup_update, Option.or_eq_some_iff] at found
  rcases found with imported | ⟨_, unlocked⟩
  · rw [importServices] at imported
    split at imported
    · obtain ⟨pool, _, same⟩ := List.mem_map.mp (AttrSet.mem_of_lookup_listToAttrs imported)
      cases same
      simp [importDefinition] at dropIn
    · simp at imported
  · rw [unlockServices] at unlocked
    split at unlocked
    · obtain ⟨i, inBounds, same⟩ :=
        List.mem_mapIdx.mp (AttrSet.mem_of_lookup_listToAttrs unlocked)
      cases same
      obtain ⟨positive, before⟩ := mem_drop_in_after.mp member
      refine ⟨i - 1, ?_, before⟩
      rw [Nat.sub_add_cancel positive, unlockUnits, List.getElem?_map,
        List.getElem?_eq_getElem inBounds]
      rfl
    · simp at unlocked

theorem dropInAfter_of_chainEdge (emitted : unlocks config = true) {later earlier : String}
    (edge : ChainEdge (unlockUnits config) later earlier) :
    DropInAfter config later earlier := by
  obtain ⟨i, atLater, atEarlier⟩ := edge
  obtain ⟨inBounds, same⟩ := List.getElem?_eq_some_iff.mp atLater
  have inNames : i + 1 < (unlockNames config).length := by
    simpa [unlockUnits] using inBounds
  refine ⟨_, _, lookup_unlockService emitted inNames, rfl, ?_,
    mem_drop_in_after.mpr ⟨Nat.succ_pos i, atEarlier⟩⟩
  rw [← same]
  simp [unlockUnits]

theorem device_ne_nil (device : DiskById) : device.val.toList ≠ [] := by
  intro empty
  have matched := device.property
  simp [matchesById, empty] at matched

theorem isHot_of_usb (usb : config.nixnas.location = .usb) : config.isHot = false := by
  simp [Config.isHot, usb]

theorem crypttabEntry_no_break {name : String} {device : DiskById}
    (plain : PlainMember name device) : '\n' ∉ (crypttabEntry name device.val).toList := by
  obtain ⟨_, fixed, deviceSpace⟩ := plain
  have inName : '\n' ∉ name.toList := by
    intro member
    exact absurd (plain_of_escape_fixed fixed '\n' member) (by decide)
  have inDevice : '\n' ∉ device.val.toList := by
    intro member
    exact absurd (deviceSpace '\n' member) (by decide)
  simp [crypttabEntry, inName, inDevice]

/-- A name that is its own escape gets the unit the module names. -/
theorem cryptsetupUnit_of_fixed {name : String} (fixed : escape name = name) :
    cryptsetupUnit name = serviceUnit (unlockService name) := by
  unfold cryptsetupUnit serviceUnit unlockService
  rw [fixed]

theorem mem_memberUnits (unit : String) :
    unit ∈ memberUnits config ↔
      ∃ entry ∈ crypttabMembers config, cryptsetupUnit entry.volume = unit := by
  unfold memberUnits crypttabMembers
  cases etcCrypttab config with
  | none => simp
  | some text => exact List.mem_map

section Plain

variable (enabled : config.nixnas.enable = true)
  (plain : ∀ name device, config.nixnas.storage.unlock.lookup name = some device →
    PlainMember name device)
include enabled plain

omit enabled in
theorem crypttabLine_of_plain {name : String} {device : DiskById}
    (declared : config.nixnas.storage.unlock.lookup name = some device) :
    crypttabLine (crypttabEntry name device.val).toList = some ⟨name, device.val⟩ := by
  obtain ⟨notEmpty, fixed, deviceSpace⟩ := plain name device declared
  have nameChars := plain_of_escape_fixed fixed
  have nameWord : name.toList ≠ [] := by
    intro empty
    exact notEmpty (String.toList_eq_nil_iff.mp empty)
  have noComment : name.toList.head? ≠ some '#' := by
    intro comment
    have inName : '#' ∈ name.toList := List.mem_of_mem_head? comment
    exact absurd (nameChars '#' inName) (by decide)
  have chars : (crypttabEntry name device.val).toList =
      name.toList ++ ' ' :: (device.val.toList ++ ' ' ::
        ("none".toList ++ ' ' :: "luks,noauto,nofail".toList)) := by
    simp [crypttabEntry]
  rw [chars, crypttabLine_words _ noComment, String.ofList_toList, String.ofList_toList]
  intro word member
  simp only [List.mem_cons, List.not_mem_nil, or_false] at member
  rcases member with rfl | rfl | rfl | rfl
  · exact ⟨nameWord, fun c inName => isPlain_not_space (nameChars c inName)⟩
  · exact ⟨device_ne_nil device, deviceSpace⟩
  · exact ⟨by decide, by simp [isSpace]⟩
  · exact ⟨by decide, by simp [isSpace]⟩

theorem mem_crypttabMembers_of_plain (entry : CrypttabEntry) :
    entry ∈ crypttabMembers config ↔
      ∃ name device, config.nixnas.storage.unlock.lookup name = some device ∧
        entry = ⟨name, device.val⟩ := by
  by_cases emitted : unlocks config = true
  · have lines : config.nixnas.storage.unlock.mapAttrsToList
        (fun name device => crypttabEntry name device.val) ≠ [] := by
      have some : config.nixnas.storage.unlock.isEmpty = false := by
        simp only [unlocks, Bool.and_eq_true, Bool.not_eq_true'] at emitted
        exact emitted.2
      obtain ⟨name, device, declared⟩ := AttrSet.exists_lookup_of_not_isEmpty some
      exact List.ne_nil_of_mem ((AttrSet.mem_mapAttrsToList _ _ _).mpr ⟨name, device, declared, rfl⟩)
    have noBreak : ∀ line ∈ config.nixnas.storage.unlock.mapAttrsToList
        (fun name device => crypttabEntry name device.val), '\n' ∉ line.toList := by
      intro line member
      obtain ⟨name, device, declared, rfl⟩ := (AttrSet.mem_mapAttrsToList _ _ _).mp member
      exact crypttabEntry_no_break (plain name device declared)
    rw [crypttabMembers, etcCrypttab, if_pos emitted, Option.elim_some, crypttab,
      mem_crypttabEntries_lines lines noBreak]
    simp only [AttrSet.mem_mapAttrsToList]
    constructor
    · rintro ⟨line, ⟨name, device, declared, rfl⟩, parsed⟩
      rw [crypttabLine_of_plain plain declared, Option.some.injEq] at parsed
      exact ⟨name, device, declared, parsed.symm⟩
    · rintro ⟨name, device, declared, rfl⟩
      exact ⟨_, ⟨name, device, declared, rfl⟩, crypttabLine_of_plain plain declared⟩
  · rw [crypttabMembers, etcCrypttab, if_neg emitted]
    constructor
    · simp
    · rintro ⟨name, device, declared, _⟩
      exact absurd (unlocks_of_declared enabled declared) emitted

/-- Every generated unit is the one the module names. -/
theorem memberUnits_of_plain {unit : String} (generated : unit ∈ memberUnits config) :
    unit ∈ unlockUnits config ∧ unlocks config = true := by
  obtain ⟨entry, member, rfl⟩ := (mem_memberUnits unit).mp generated
  obtain ⟨name, device, declared, rfl⟩ :=
    (mem_crypttabMembers_of_plain enabled plain entry).mp member
  rw [cryptsetupUnit_of_fixed (plain name device declared).2.1]
  exact ⟨List.mem_map_of_mem ((mem_unlockNames config name).mpr ⟨device, declared⟩),
    unlocks_of_declared enabled declared⟩

theorem serialUnlock_of_plain (usb : config.nixnas.location = .usb) : SerialUnlock config := by
  have notHot := isHot_of_usb usb
  refine ⟨?_, ?_, ?_, ?_, ?_⟩
  · intro name device declared
    exact (mem_crypttabMembers_of_plain enabled plain _).mpr ⟨name, device, declared, rfl⟩
  · intro unit generated
    obtain ⟨member, emitted⟩ := memberUnits_of_plain enabled plain generated
    refine ⟨storageTarget config, lookup_target emitted, ?_, ?_⟩ <;>
    · simp only [storageTarget, notHot, Bool.false_eq_true, if_false]
      exact List.mem_append_left _ member
  · intro unit path
    have edges : DropInAfter config ≤ ChainEdge (unlockUnits config) := fun _ _ =>
      chainEdge_of_dropInAfter
    exact chain_acyclic (unlockUnits_nodup config) unit (Relation.TransGen.mono edges _ _ path)
  · intro first inFirst second inSecond different
    obtain ⟨memberFirst, emitted⟩ := memberUnits_of_plain enabled plain inFirst
    obtain ⟨memberSecond, _⟩ := memberUnits_of_plain enabled plain inSecond
    have edges : ChainEdge (unlockUnits config) ≤ DropInAfter config := fun _ _ =>
      dropInAfter_of_chainEdge emitted
    exact (chain_total memberFirst memberSecond different).imp
      (Relation.TransGen.mono edges _ _) (Relation.TransGen.mono edges _ _)
  · intro pool declared
    refine ⟨_, lookup_importService enabled declared, fun unit generated => ?_⟩
    simp only [importDefinition, notHot, Bool.false_eq_true, if_false]
    exact (memberUnits_of_plain enabled plain generated).1

end Plain

/-- The names a serial unlock can reach are the ones the module can name. -/
theorem plain_of_serialUnlock (usb : config.nixnas.location = .usb)
    (serial : SerialUnlock config) (name : String) (device : DiskById)
    (declared : config.nixnas.storage.unlock.lookup name = some device) :
    PlainMember name device := by
  have notHot := isHot_of_usb usb
  have closed : ∀ name ∈ unlockNames config, escape name ∈ unlockNames config := by
    intro name member
    obtain ⟨device, declared⟩ := (mem_unlockNames config name).mp member
    have generated : cryptsetupUnit name ∈ memberUnits config :=
      (mem_memberUnits _).mpr ⟨_, serial.opened name device declared, rfl⟩
    obtain ⟨target, found, wanted, _⟩ := serial.wanted _ generated
    have isTarget : target = storageTarget config := by
      cases emitted : unlocks config with
      | true => exact Option.some.inj (found.symm.trans (lookup_target emitted))
      | false => exact absurd (found.symm.trans (lookup_target_none emitted)) (by simp)
    have named : cryptsetupUnit name = serviceUnit (unlockService (escape name)) := rfl
    rw [isTarget, named] at wanted
    simp only [storageTarget, notHot, Bool.false_eq_true, if_false, List.mem_append] at wanted
    rcases wanted with unlock | importing
    · obtain ⟨other, member, same⟩ := List.mem_map.mp unlock
      have isOther : other = escape name := unlockService_injective (serviceUnit_injective same)
      exact isOther ▸ member
    · obtain ⟨pool, _, same⟩ := List.mem_map.mp importing
      exact absurd (serviceUnit_injective same).symm (unlockService_ne_importService _ pool)
  have member := (mem_unlockNames config name).mpr ⟨device, declared⟩
  obtain ⟨notEmpty, noSpace⟩ : name ≠ "" ∧ ∀ c ∈ device.val.toList, isSpace c = false := by
    have read := serial.opened name device declared
    unfold crypttabMembers at read
    cases text : etcCrypttab config with
    | none => simp [text] at read
    | some text =>
        rw [text] at read
        exact crypttabEntries_spec read
  exact ⟨notEmpty, escape_fixed_of_closed closed name member, noSpace⟩

/-- On a usb-mode host `nixnas-storage.target` opens every declared member
serially and before the imports exactly when every member is plain. -/
theorem serialUnlock_iff (config : Config) (enabled : config.nixnas.enable = true)
    (usb : config.nixnas.location = .usb) :
    SerialUnlock config ↔
      ∀ name device, config.nixnas.storage.unlock.lookup name = some device →
        PlainMember name device :=
  ⟨plain_of_serialUnlock usb, fun plain => serialUnlock_of_plain enabled plain usb⟩

theorem demo_serialUnlock :
    SerialUnlock (demo .usb (.listToAttrs [("archive0", archiveDisk), ("archive1", archiveDisk)])
      ["cold"]) := by
  refine (serialUnlock_iff _ rfl rfl).mpr fun name device declared => ?_
  have members := AttrSet.mem_of_lookup_listToAttrs declared
  simp only [List.mem_cons, Prod.mk.injEq, List.not_mem_nil, or_false] at members
  unfold PlainMember
  rcases members with ⟨rfl, rfl⟩ | ⟨rfl, rfl⟩ <;>
    exact ⟨by decide, by decide, by simp [archiveDisk, isSpace]⟩

/-- The generator's unit for `data-0` is `systemd-cryptsetup@data\x2d0.service`. -/
theorem dashed_name_not_serial :
    ¬ ∀ config : Config, config.nixnas.enable = true → config.nixnas.location = .usb →
      SerialUnlock config := by
  intro serial
  have plain := plain_of_serialUnlock rfl
    (serial (demo .usb (.listToAttrs [("data-0", archiveDisk)]) []) rfl rfl) "data-0" archiveDisk rfl
  exact absurd plain.2.1 (by decide)

end Nixnas.Modules.Connect
