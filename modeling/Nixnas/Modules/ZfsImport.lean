import Nixnas.Modules.Location
import Nixnas.Systemd.Units

/-!
# The ordering of ZFS pool imports

`modules/store/location.nix`: the file systems of a hot-mode main, and the
guard that keeps the initrd's pool imports waiting for the passphrase.

The guard is put on the pool that an option names, or that the dataset name
gives when the option is unset.  The import itself is generated from the
dataset name alone.  A pool that the initrd imports is guarded exactly when one
of the two stores names it.
-/

set_option autoImplicit false

namespace Nixnas.Modules.ZfsImport

open Nixnas.Logic
open Nixnas.Systemd
open Nixnas.Modules.Location (Accepted demoHot)

/-- `types.enum [ "legacy" "property" ]`. -/
inductive ZfsMountpoint where
  | legacy
  | property
  deriving DecidableEq, Repr

/-- What `store.hot` and `store.root` say about the file system on their device. -/
structure StoreFileSystem where
  fsType : String
  zpool : Option String
  zfsMountpoint : ZfsMountpoint
  deriving DecidableEq, Repr

structure Host where
  config : Config
  hot : StoreFileSystem
  root : StoreFileSystem

/-- A `fileSystems` entry; `options` is left to its default when unset. -/
structure FileSystem where
  device : Option String
  fsType : String
  options : Option (List String)
  neededForBoot : Option Bool
  deriving DecidableEq, Repr

/-- What the module adds to an initrd service. -/
structure InitrdService where
  wants : List String
  after : List String
  deriving DecidableEq, Repr

/-! ## The module -/

/-- `builtins.head (lib.splitString "/" device)`. -/
def firstComponent (device : String) : String := (splitString '/' device).headD ""

def poolOf (device zpool : Option String) : String :=
  match zpool, device with
  | some pool, _ => pool
  | none, some device => firstComponent device
  | none, none => "-unset-"

/-- `lib.unique`: an element is kept where it first stands. -/
def unique (names : List String) : List String :=
  names.foldl (fun kept name => if name ∈ kept then kept else kept ++ [name]) []

namespace Host

variable (host : Host)

def hotPool : String := poolOf host.config.nixnas.hot.device host.hot.zpool

def rootPool : String := poolOf host.config.nixnas.root.device host.root.zpool

def zfsPoolsNeeded : List String :=
  unique
    ((if host.hot.fsType = "zfs" then [host.hotPool] else []) ++
      if host.root.fsType = "zfs" then [host.rootPool] else [])

/-- The later `optionalAttrs` replaces the options of the earlier one. -/
def mountOptions (store : StoreFileSystem) (device : Option String) : Option (List String) :=
  if store.fsType = "zfs" ∧ store.zfsMountpoint = .property then some ["zfsutil"]
  else if device.any fun path => "/dev/".toList.isPrefixOf path.toList then
    some ["x-systemd.device-timeout=0"]
  else none

def bootEntry : FileSystem where
  device := some "/dev/disk/by-label/ESP"
  fsType := "vfat"
  options := some ["umask=0077", "noatime"]
  neededForBoot := none

def rootEntry : FileSystem where
  device := host.config.nixnas.root.device
  fsType := host.root.fsType
  options := mountOptions host.root host.config.nixnas.root.device
  neededForBoot := none

def nixEntry : FileSystem where
  device := host.config.nixnas.hot.device
  fsType := host.hot.fsType
  options := mountOptions host.hot host.config.nixnas.hot.device
  neededForBoot := some true

def fileSystems : AttrSet String FileSystem :=
  if host.config.isHot then
    .listToAttrs [("/boot", bootEntry), ("/", host.rootEntry), ("/nix", host.nixEntry)]
  else ∅

def importService (pool : String) : String := "zfs-import-" ++ pool

/-- `boot.initrd.systemd.services`. -/
def initrdServices : AttrSet String InitrdService :=
  if host.config.isHot ∧ (host.hot.fsType = "zfs" ∨ host.root.fsType = "zfs") then
    .genAttrs (host.zfsPoolsNeeded.map importService)
      fun _ => ⟨["cryptsetup.target"], ["cryptsetup.target"]⟩
  else ∅

/-! ## What the initrd imports -/

/-- The pools that the generated initrd imports in order to mount `/` and
`/nix`: the first component of the dataset name. -/
def Imports (pool : String) : Prop :=
  ∃ mountPoint entry device,
    (mountPoint = "/" ∨ mountPoint = "/nix") ∧ host.fileSystems.lookup mountPoint = some entry ∧
      entry.fsType = "zfs" ∧ entry.device = some device ∧ pool = firstComponent device

/-- The ordering that the module's initrd services ask for. -/
def StartsAfter (first second : String) : Prop :=
  ∃ name service, host.initrdServices.lookup name = some service ∧
    Edge (name ++ ".service") [] service.after first second

/-- In every start order the members are open before the pool's import starts. -/
def Waits (pool : String) : Prop :=
  ∀ order, Respects host.StartsAfter order → ∀ i j : Nat,
    order[i]? = some "cryptsetup.target" → order[j]? = some (importService pool ++ ".service") →
      i < j

/-- The import of the pool waits for the members to be open, and the pool is
configured once. -/
structure Guarded (pool : String) : Prop where
  ordered : ∃ service, host.initrdServices.lookup (importService pool) = some service ∧
    "cryptsetup.target" ∈ service.wants ∧ "cryptsetup.target" ∈ service.after
  waits : host.Waits pool
  once : host.zfsPoolsNeeded.count pool = 1

/-- The store names the pool, by its option or else by its dataset. -/
def NamedBy (store : StoreFileSystem) (device : Option String) (pool : String) : Prop :=
  store.fsType = "zfs" ∧
    (store.zpool = some pool ∨ (store.zpool = none ∧ device.map firstComponent = some pool))

def Named (pool : String) : Prop :=
  NamedBy host.hot host.config.nixnas.hot.device pool ∨
    NamedBy host.root host.config.nixnas.root.device pool

/-- The pool of every ZFS store's dataset is one that a store names. -/
structure PoolsAgree : Prop where
  hot : ∀ device, host.config.nixnas.hot.device = some device → host.hot.fsType = "zfs" →
    host.Named (firstComponent device)
  root : ∀ device, host.config.nixnas.root.device = some device → host.root.fsType = "zfs" →
    host.Named (firstComponent device)

end Host

/-! ## The pools that are configured -/

theorem foldl_unique (names kept : List String) (nodup : kept.Nodup) :
    (names.foldl (fun kept name => if name ∈ kept then kept else kept ++ [name]) kept).Nodup ∧
      ∀ name, name ∈ names.foldl
          (fun kept name => if name ∈ kept then kept else kept ++ [name]) kept ↔
        name ∈ kept ∨ name ∈ names := by
  induction names generalizing kept with
  | nil => exact ⟨nodup, by simp⟩
  | cons first rest ih =>
      rw [List.foldl_cons]
      by_cases known : first ∈ kept
      · rw [if_pos known]
        refine ⟨(ih kept nodup).1, fun name => ?_⟩
        rw [(ih kept nodup).2 name, List.mem_cons]
        constructor
        · exact fun member => member.imp_right .inr
        · rintro (inKept | rfl | later)
          · exact .inl inKept
          · exact .inl known
          · exact .inr later
      · have longer : (kept ++ [first]).Nodup := by
          rw [List.nodup_append]
          refine ⟨nodup, List.nodup_singleton first, ?_⟩
          rintro name member other isFirst rfl
          exact known (List.mem_singleton.mp isFirst ▸ member)
        rw [if_neg known]
        refine ⟨(ih _ longer).1, fun name => ?_⟩
        rw [(ih _ longer).2 name, List.mem_append, List.mem_singleton, List.mem_cons, or_assoc]

theorem unique_nodup (names : List String) : (unique names).Nodup :=
  (foldl_unique names [] List.nodup_nil).1

theorem mem_unique (names : List String) (name : String) : name ∈ unique names ↔ name ∈ names := by
  rw [unique, (foldl_unique names [] List.nodup_nil).2 name]
  simp

namespace Host

variable {host : Host}

theorem eq_poolOf_iff {store : StoreFileSystem} {device : Option String} (set : device ≠ none)
    (pool : String) :
    pool = poolOf device store.zpool ↔
      store.zpool = some pool ∨ (store.zpool = none ∧ device.map firstComponent = some pool) := by
  obtain ⟨path, rfl⟩ := Option.ne_none_iff_exists'.mp set
  cases store.zpool with
  | none => simp [poolOf, eq_comm]
  | some named => simp [poolOf, eq_comm]

theorem devices_set (hot : host.config.isHot = true) (accepted : Accepted host.config) :
    host.config.nixnas.hot.device ≠ none ∧ host.config.nixnas.root.device ≠ none := by
  unfold Accepted at accepted
  simp only [Location.assertions, hot, if_true, List.forall_mem_cons, decide_eq_true_eq]
    at accepted
  exact ⟨accepted.1, accepted.2.1⟩

theorem mem_zfsPoolsNeeded (hot : host.config.isHot = true) (accepted : Accepted host.config)
    (pool : String) : pool ∈ host.zfsPoolsNeeded ↔ host.Named pool := by
  obtain ⟨hotSet, rootSet⟩ := devices_set hot accepted
  rw [zfsPoolsNeeded, mem_unique, List.mem_append, Named, NamedBy, NamedBy,
    ← eq_poolOf_iff hotSet, ← eq_poolOf_iff rootSet]
  split <;> split <;> simp_all [hotPool, rootPool]

theorem waits_of_after {pool : String} {service : InitrdService}
    (found : host.initrdServices.lookup (importService pool) = some service)
    (after : "cryptsetup.target" ∈ service.after) : host.Waits pool := by
  intro order respects i j opened imported
  have edge : host.StartsAfter "cryptsetup.target" (importService pool ++ ".service") :=
    ⟨importService pool, service, found, .inr ⟨rfl, after⟩⟩
  exact respects _ _ edge i j opened imported

/-- A pool has its guard exactly when a store names it. -/
theorem guarded_iff_named (hot : host.config.isHot = true) (accepted : Accepted host.config)
    (pool : String) : host.Guarded pool ↔ host.Named pool := by
  rw [← mem_zfsPoolsNeeded hot accepted]
  constructor
  · intro guarded
    apply List.count_pos_iff.mp
    rw [guarded.once]
    exact Nat.zero_lt_one
  · intro needed
    have zfs : host.hot.fsType = "zfs" ∨ host.root.fsType = "zfs" := by
      rcases (mem_zfsPoolsNeeded hot accepted pool).mp needed with named | named
      · exact .inl named.1
      · exact .inr named.1
    have found : host.initrdServices.lookup (importService pool) =
        some ⟨["cryptsetup.target"], ["cryptsetup.target"]⟩ := by
      rw [initrdServices, if_pos ⟨hot, zfs⟩]
      exact AttrSet.lookup_genAttrs_of_mem _ (List.mem_map_of_mem needed)
    constructor
    · exact ⟨_, found, List.mem_singleton_self _, List.mem_singleton_self _⟩
    · exact waits_of_after found (List.mem_singleton_self _)
    · exact List.count_eq_one_of_mem (unique_nodup _) needed

/-! ## The pools that are imported -/

theorem lookup_root (hot : host.config.isHot = true) :
    host.fileSystems.lookup "/" = some host.rootEntry := by
  rw [fileSystems, if_pos hot, AttrSet.lookup_listToAttrs_cons, if_neg (by decide),
    AttrSet.lookup_listToAttrs_cons, if_pos rfl]

theorem lookup_nix (hot : host.config.isHot = true) :
    host.fileSystems.lookup "/nix" = some host.nixEntry := by
  rw [fileSystems, if_pos hot, AttrSet.lookup_listToAttrs_cons, if_neg (by decide),
    AttrSet.lookup_listToAttrs_cons, if_neg (show "/nix" ≠ "/" by decide),
    AttrSet.lookup_listToAttrs_cons, if_pos rfl]

theorem imports_iff (hot : host.config.isHot = true) (pool : String) :
    host.Imports pool ↔
      (host.hot.fsType = "zfs" ∧
        host.config.nixnas.hot.device.map firstComponent = some pool) ∨
      (host.root.fsType = "zfs" ∧
        host.config.nixnas.root.device.map firstComponent = some pool) := by
  constructor
  · rintro ⟨mountPoint, entry, device, rfl | rfl, found, zfs, onDevice, rfl⟩
    · rw [lookup_root hot, Option.some.injEq] at found
      subst found
      exact .inr ⟨zfs, by rw [show host.config.nixnas.root.device = some device from onDevice]; rfl⟩
    · rw [lookup_nix hot, Option.some.injEq] at found
      subst found
      exact .inl ⟨zfs, by rw [show host.config.nixnas.hot.device = some device from onDevice]; rfl⟩
  · rintro (⟨zfs, dataset⟩ | ⟨zfs, dataset⟩)
    · obtain ⟨device, onDevice, rfl⟩ := Option.map_eq_some_iff.mp dataset
      exact ⟨"/nix", _, device, .inr rfl, lookup_nix hot, zfs, onDevice, rfl⟩
    · obtain ⟨device, onDevice, rfl⟩ := Option.map_eq_some_iff.mp dataset
      exact ⟨"/", _, device, .inl rfl, lookup_root hot, zfs, onDevice, rfl⟩

theorem poolsAgree_iff (hot : host.config.isHot = true) :
    host.PoolsAgree ↔ ∀ pool, host.Imports pool → host.Named pool := by
  constructor
  · intro agree pool imports
    rcases (imports_iff hot pool).mp imports with ⟨zfs, dataset⟩ | ⟨zfs, dataset⟩
    · obtain ⟨device, onDevice, rfl⟩ := Option.map_eq_some_iff.mp dataset
      exact agree.hot device onDevice zfs
    · obtain ⟨device, onDevice, rfl⟩ := Option.map_eq_some_iff.mp dataset
      exact agree.root device onDevice zfs
  · intro named
    constructor
    · intro device onDevice zfs
      exact named _ ((imports_iff hot _).mpr (.inl ⟨zfs, by rw [onDevice]; rfl⟩))
    · intro device onDevice zfs
      exact named _ ((imports_iff hot _).mpr (.inr ⟨zfs, by rw [onDevice]; rfl⟩))

/-- Without the options every imported pool is named by its own dataset. -/
theorem poolsAgree_of_derived (hot : host.hot.zpool = none) (root : host.root.zpool = none) :
    host.PoolsAgree where
  hot device onDevice zfs := .inl ⟨zfs, .inr ⟨hot, by rw [onDevice]; rfl⟩⟩
  root device onDevice zfs := .inr ⟨zfs, .inr ⟨root, by rw [onDevice]; rfl⟩⟩

/-- In an accepted hot-mode configuration every pool that the initrd imports
for `/` or `/nix` is guarded, and configured once, exactly when the stores name
the pools of their datasets. -/
theorem imports_guarded_iff (host : Host) (hot : host.config.isHot = true)
    (accepted : Accepted host.config) :
    (∀ pool, host.Imports pool → host.Guarded pool) ↔ host.PoolsAgree := by
  rw [poolsAgree_iff hot]
  exact forall_congr' fun pool => imp_congr_right fun _ => guarded_iff_named hot accepted pool

end Host

/-- A main with its store and its root on two datasets of the pool `hot`. -/
def demoZfs (zpool : Option String) : Host where
  config := demoHot ∅
  hot := ⟨"zfs", zpool, .legacy⟩
  root := ⟨"zfs", zpool, .legacy⟩

theorem demoZfs_guarded : (demoZfs none).Guarded "hot" := by
  have imports : (demoZfs none).Imports "hot" :=
    ⟨"/", _, "hot/nixnas/root", .inl rfl, Host.lookup_root rfl, rfl, rfl, by decide⟩
  have accepted : Accepted (demoZfs none).config := by
    unfold Accepted
    decide
  exact (Host.imports_guarded_iff (demoZfs none) rfl accepted).mpr
    (Host.poolsAgree_of_derived rfl rfl) "hot" imports

/-- Both stores name the pool `tank`, and both datasets are on `hot`. -/
theorem named_pool_not_guarded :
    ¬ ∀ host : Host, host.config.isHot = true → Accepted host.config →
        ∀ pool, host.Imports pool → host.Guarded pool := by
  intro guarded
  have imports : (demoZfs (some "tank")).Imports "hot" :=
    ⟨"/", _, "hot/nixnas/root", .inl rfl, Host.lookup_root rfl, rfl, rfl, by decide⟩
  have once := (guarded (demoZfs (some "tank")) rfl (by unfold Accepted; decide) "hot" imports).once
  revert once
  decide

end Nixnas.Modules.ZfsImport
