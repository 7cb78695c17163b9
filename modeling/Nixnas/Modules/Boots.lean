import Nixnas.Logic.Machine
import Nixnas.Logic.Namespace
import Nixnas.Logic.Writeback
import Nixnas.Modules.Identity
import Nixnas.Modules.PersistEnforce

/-!
# Boots of a usb host

The root of a usb host is a tmpfs, over which the store of the stick, nixnas's own
bind mounts, the operator's filesystems and the datasets of the imported pools are
mounted: `modules/boot/disk.nix`, `modules/boot/impermanence.nix`,
`modules/appliance/identity.nix`, `modules/appliance/optimizations.nix` and
`modules/storage/connect.nix`.  A host boots, mounts in some order, runs, writes
back what it likes and stops at any moment, again and again.
-/

set_option autoImplicit false

namespace Nixnas.Modules.Boots

open Nixnas.Logic
open Nixnas.Logic.Namespace (Place Source Mounts Ready Flat owner target resolve)
open Nixnas.Modules.Identity (FileSystem identity persist bindMount)

/-! ## The mounts of a host -/

/-- The root and the partitions of the stick, as the layout makes them entries of
`fileSystems`, with the options of the f2fs recipe. -/
def diskFileSystems (f2fsOptions : List String) : AttrSet String FileSystem :=
  AttrSet.listToAttrs
    [("/", ⟨"none", "tmpfs", ["size=50%", "mode=0755"], false⟩),
      ("/boot", ⟨"/dev/disk/by-partlabel/boot", "vfat", ["umask=0077", "noatime"], false⟩),
      ("/nix",
        ⟨"/dev/mapper/cryptstore", "f2fs", f2fsOptions ++ ["x-systemd.device-timeout=0"], true⟩)]

/-- `store.persistLogs`: the journal is bound from the store. -/
def journalFileSystems (persistLogs : Bool) : AttrSet String FileSystem :=
  if persistLogs then
    AttrSet.listToAttrs [("/var/log/journal", ⟨"/nix/nixnas/journal", "none", ["bind"], true⟩)]
  else ∅

/-- The kernel binds a directory for the option, whatever the type says. -/
def binds (fs : FileSystem) : Bool := fs.options.elem "bind"

structure HostConfig where
  nixnas : NixnasOptions
  persistLogs : Bool
  f2fsOptions : List String
  /-- The entries of `fileSystems` that the operator adds. -/
  operator : AttrSet String FileSystem
  /-- The datasets of the pools of `storage.zfsPools`, by their `mountpoint` property. -/
  datasets : AttrSet String String
  services : AttrSet String PersistEnforce.StateDirectory

namespace HostConfig

variable (host : HostConfig)

def own : AttrSet String FileSystem :=
  ((diskFileSystems host.f2fsOptions).update (journalFileSystems host.persistLogs)).update
    (identity host.nixnas).fileSystems

def fileSystems : AttrSet String FileSystem := host.own.update host.operator

/-- A dataset mounts itself when its pool is imported. -/
def datasetMount (dataset : String) : FileSystem := ⟨dataset, "zfs", [], false⟩

/-- What is mounted at the key, by a mount unit or by the import of a pool. -/
def Mounts (key : String) (fs : FileSystem) : Prop :=
  host.fileSystems.lookup key = some fs ∨
    ∃ dataset, host.datasets.lookup key = some dataset ∧ datasetMount dataset = fs

/-- What the persistence gate reads of the host. -/
def config : PersistEnforce.SystemConfig where
  nixnas := host.nixnas
  fileSystems := host.fileSystems.mapAttrs fun _ fs => ⟨fs.fsType, fs.options⟩
  services := host.services

end HostConfig

/-- Where the files of a filesystem are: in memory, each mount with its own, or in a
tree on a disk. -/
inductive Medium (Tree : Type) where
  | memory (point : List String)
  | disk (tree : Tree)
  deriving DecidableEq

def Medium.lasting {Tree : Type} : Medium Tree → Bool
  | .memory _ => false
  | .disk _ => true

/-- What the kernel makes of an entry that is no bind mount: the tree on a disk that
its device and options name, or none when its files are kept in memory. -/
structure Filesystems (Tree : Type) where
  treeOf : FileSystem → Option Tree
  tmpfs : ∀ fs, fs.fsType = "tmpfs" → treeOf fs = none
  f2fs : ∀ fs, fs.fsType = "f2fs" → (treeOf fs).isSome
  zfs : ∀ fs, fs.fsType = "zfs" → (treeOf fs).isSome

variable {Tree : Type} (kernel : Filesystems Tree)

def sourceOf (key : String) (fs : FileSystem) : Source (Medium Tree) String :=
  if binds fs then .bind (components fs.device)
  else
    match kernel.treeOf fs with
    | some tree => .device (.disk tree)
    | none => .device (.memory (components key))

def entryOf (key : String) (fs : FileSystem) : List String × Source (Medium Tree) String :=
  (components key, sourceOf kernel key fs)

def HostConfig.table (host : HostConfig) : List (List String × Source (Medium Tree) String) :=
  host.fileSystems.mapAttrsToList (entryOf kernel) ++
    host.datasets.mapAttrsToList fun key dataset =>
      entryOf kernel key (HostConfig.datasetMount dataset)

/-- A host in usb mode, whose operator redefines no mount of nixnas; nothing else is
mounted at a point or inside of what is bound, and what is bound is not bound again. -/
structure UsbHost extends HostConfig where
  usb : nixnas.enable = true ∧ nixnas.location = .usb
  recipe : "bind" ∉ f2fsOptions
  apart : ∀ key fs, toHostConfig.own.lookup key = some fs → operator.lookup key = none
  flat : Flat (toHostConfig.table kernel)

/-! ## Boots -/

/-- What is mounted, and the files of all filesystems. -/
structure State (Tree Content : Type) where
  mounted : Mounts (Medium Tree) String
  files : Writeback.Store (Place (Medium Tree) String) Content

inductive Event (Tree Content : Type) where
  /-- The mount unit of the key starts. -/
  | mount (key : String)
  /-- The import of its pool mounts the dataset of the key. -/
  | selfMount (key : String)
  /-- Something writes the file, or removes it. -/
  | write (path : List String) (content : Option Content)
  /-- The file is written back. -/
  | flush (place : Place (Medium Tree) String)
  /-- The machine stops, in order or not. -/
  | stop

variable {Content : Type} [DecidableEq Tree]

namespace State

def boot (files : Writeback.Store (Place (Medium Tree) String) Content) : State Tree Content where
  mounted := []
  files := files.stop fun place => place.fs.lasting

def read (state : State Tree Content) (path : List String) : Option Content :=
  (resolve state.mounted path).bind state.files.seen

end State

/-- The filesystem is mounted at the key. -/
def State.mount (host : HostConfig) (state : State Tree Content) (key : String) (fs : FileSystem) :
    Option (State Tree Content) :=
  (Namespace.mount (host.table kernel) state.mounted (entryOf kernel key fs)).map
    fun mounted => { state with mounted := mounted }

def step (host : HostConfig) (state : State Tree Content) :
    Event Tree Content → Option (State Tree Content)
  | .mount key => (host.fileSystems.lookup key).bind (state.mount kernel host key)
  | .selfMount key =>
      (host.datasets.lookup key).bind fun dataset =>
        state.mount kernel host key (HostConfig.datasetMount dataset)
  | .write path content =>
      (resolve state.mounted path).map fun place =>
        { state with files := state.files.write place content }
  | .flush place => some { state with files := state.files.flush place }
  | .stop => some (.boot state.files)

def machine (host : HostConfig) : Machine (State Tree Content) (Event Tree Content) :=
  .ofStep (fun state => ∃ files, state = .boot files) (step kernel host)

/-- The event writes no file that leads to the place. -/
def Spares (place : Place (Medium Tree) String) (state : State Tree Content)
    (event : Event Tree Content) : Prop :=
  ∀ path content, event = .write path content → resolve state.mounted path ≠ some place

/-! ## What a run keeps -/

section Runs

variable {kernel} {host : HostConfig}

omit [DecidableEq Tree] in
theorem mem_table {entry : List String × Source (Medium Tree) String} :
    entry ∈ host.table kernel ↔
      ∃ key fs, host.Mounts key fs ∧ entryOf kernel key fs = entry := by
  rw [HostConfig.table, List.mem_append, AttrSet.mem_mapAttrsToList, AttrSet.mem_mapAttrsToList]
  constructor
  · rintro (⟨key, fs, found, same⟩ | ⟨key, dataset, found, same⟩)
    · exact ⟨key, fs, .inl found, same⟩
    · exact ⟨key, _, .inr ⟨dataset, found, rfl⟩, same⟩
  · rintro ⟨key, fs, found | ⟨dataset, found, rfl⟩, same⟩
    · exact .inl ⟨key, fs, found, same⟩
    · exact .inr ⟨key, dataset, found, same⟩

/-- What one event does: it mounts, writes, writes back or stops. -/
theorem step_cases {state next : State Tree Content} {event : Event Tree Content}
    (taken : step kernel host state event = some next) :
    (∃ key fs mounted, host.Mounts key fs ∧
      Namespace.mount (host.table kernel) state.mounted (entryOf kernel key fs) = some mounted ∧
      next = { state with mounted := mounted }) ∨
    (∃ path content place, event = .write path content ∧ resolve state.mounted path = some place ∧
      next = { state with files := state.files.write place content }) ∨
    (∃ place, event = .flush place ∧ next = { state with files := state.files.flush place }) ∨
    (event = .stop ∧ next = .boot state.files) := by
  cases event with
  | mount key =>
      obtain ⟨fs, found, shown⟩ := Option.bind_eq_some_iff.mp taken
      obtain ⟨mounted, made, rfl⟩ := Option.map_eq_some_iff.mp shown
      exact .inl ⟨key, fs, mounted, .inl found, made, rfl⟩
  | selfMount key =>
      obtain ⟨dataset, found, shown⟩ := Option.bind_eq_some_iff.mp taken
      obtain ⟨mounted, made, rfl⟩ := Option.map_eq_some_iff.mp shown
      exact .inl ⟨key, _, mounted, .inr ⟨dataset, found, rfl⟩, made, rfl⟩
  | write path content =>
      obtain ⟨place, leads, rfl⟩ := Option.map_eq_some_iff.mp taken
      exact .inr (.inl ⟨path, content, place, rfl, leads, rfl⟩)
  | flush place => exact .inr (.inr (.inl ⟨place, rfl, (Option.some.inj taken).symm⟩))
  | stop => exact .inr (.inr (.inr ⟨rfl, (Option.some.inj taken).symm⟩))

theorem sound_step (once : ((host.table kernel).map Prod.fst).Nodup)
    {state next : State Tree Content} {event : Event Tree Content}
    (sound : Namespace.Sound (host.table kernel) state.mounted)
    (taken : step kernel host state event = some next) :
    Namespace.Sound (host.table kernel) next.mounted := by
  obtain ⟨key, fs, mounted, found, made, rfl⟩ | ⟨path, content, place, -, -, rfl⟩ |
    ⟨place, -, rfl⟩ | ⟨-, rfl⟩ := step_cases taken
  · exact sound.mount once (mem_table.mpr ⟨key, fs, found, rfl⟩) made
  · exact sound
  · exact sound
  · exact Namespace.sound_nil

/-- What is mounted stays until the host stops. -/
theorem ready_step {state next : State Tree Content} {event : Event Tree Content}
    {path : List String} (ready : Ready (host.table kernel) state.mounted path)
    (runs : event ≠ .stop) (taken : step kernel host state event = some next) :
    Ready (host.table kernel) next.mounted path := by
  obtain ⟨key, fs, mounted, -, made, rfl⟩ | ⟨written, content, place, -, -, rfl⟩ |
    ⟨place, -, rfl⟩ | ⟨stops, -⟩ := step_cases taken
  · exact ready.mount made
  · exact ready
  · exact ready
  · exact absurd stops runs

/-- Whatever was mounted in whichever order, each mount shows what the table says. -/
theorem sound_reachable (once : ((host.table kernel).map Prod.fst).Nodup)
    {state : State Tree Content} (reached : (machine kernel host).Reachable state) :
    Namespace.Sound (host.table kernel) state.mounted := by
  induction reached with
  | initial start =>
      obtain ⟨files, rfl⟩ := start
      exact Namespace.sound_nil
  | step event _ taken sound => exact sound_step once sound taken

theorem reachable_step {state next : State Tree Content} {event : Event Tree Content}
    (reached : (machine kernel host).Reachable state)
    (taken : step kernel host state event = some next) : (machine kernel host).Reachable next :=
  .step event reached taken

/-- A file that nothing writes is seen as it was until the host stops. -/
theorem seen_step {state next : State Tree Content} {event : Event Tree Content}
    {place : Place (Medium Tree) String} (spares : Spares place state event) (runs : event ≠ .stop)
    (taken : step kernel host state event = some next) :
    next.files.seen place = state.files.seen place := by
  obtain ⟨key, fs, mounted, -, -, rfl⟩ | ⟨path, value, other, isWrite, leads, rfl⟩ |
    ⟨other, -, rfl⟩ | ⟨stops, -⟩ := step_cases taken
  · rfl
  · refine Writeback.Store.seen_write_other ?_
    rintro rfl
    exact spares path value isWrite leads
  · rfl
  · exact absurd stops runs

/-- What was written back at a lasting place stays. -/
theorem safe_step {state next : State Tree Content} {event : Event Tree Content}
    {place : Place (Medium Tree) String} {content : Option Content}
    (lasts : place.fs.lasting = true) (safe : state.files.Safe place content)
    (spares : Spares place state event) (taken : step kernel host state event = some next) :
    next.files.Safe place content := by
  obtain ⟨key, fs, mounted, -, -, rfl⟩ | ⟨path, value, other, isWrite, leads, rfl⟩ |
    ⟨other, -, rfl⟩ | ⟨-, rfl⟩ := step_cases taken
  · exact safe
  · refine safe.write ?_
    rintro rfl
    exact spares path value isWrite leads
  · exact safe.flush
  · exact safe.stop lasts

/-- What is gone stays gone where nothing is written. -/
theorem gone_step {state next : State Tree Content} {event : Event Tree Content}
    {place : Place (Medium Tree) String} (volatile : place.fs.lasting = false)
    (gone : state.files.seen place = none) (spares : Spares place state event)
    (taken : step kernel host state event = some next) : next.files.seen place = none := by
  obtain ⟨key, fs, mounted, -, -, rfl⟩ | ⟨path, value, other, isWrite, leads, rfl⟩ |
    ⟨other, -, rfl⟩ | ⟨-, rfl⟩ := step_cases taken
  · exact gone
  · refine (Writeback.Store.seen_write_other ?_).trans gone
    rintro rfl
    exact spares path value isWrite leads
  · exact gone
  · exact Writeback.Store.stop_gone volatile

/-- A run none of whose writes leads to the place. -/
abbrev SparingSteps (kernel : Filesystems Tree) (host : HostConfig)
    (place : Place (Medium Tree) String) : State Tree Content → State Tree Content → Prop :=
  ((machine kernel host).restrict (Spares place)).Steps

theorem sparing_reachable {place : Place (Medium Tree) String} {state final : State Tree Content}
    (reached : (machine kernel host).Reachable state)
    (run : SparingSteps kernel host place state final) : (machine kernel host).Reachable final := by
  induction run with
  | refl => exact reached
  | tail _ taken held =>
      obtain ⟨event, -, taken⟩ := taken
      exact held.step event taken

theorem safe_run {place : Place (Medium Tree) String} {content : Option Content}
    {state final : State Tree Content} (lasts : place.fs.lasting = true)
    (safe : state.files.Safe place content) (run : SparingSteps kernel host place state final) :
    final.files.Safe place content := by
  induction run with
  | refl => exact safe
  | tail _ taken held =>
      obtain ⟨event, spares, taken⟩ := taken
      exact safe_step lasts held spares taken

theorem gone_run {place : Place (Medium Tree) String} {state final : State Tree Content}
    (volatile : place.fs.lasting = false) (gone : state.files.seen place = none)
    (run : SparingSteps kernel host place state final) : final.files.seen place = none := by
  induction run with
  | refl => exact gone
  | tail _ taken held =>
      obtain ⟨event, spares, taken⟩ := taken
      exact gone_step volatile held spares taken

omit [DecidableEq Tree] in
/-- Mounting, writing back and stopping spare every place. -/
theorem spares_of_quiet (place : Place (Medium Tree) String) (state : State Tree Content)
    {event : Event Tree Content} (quiet : ∀ path content, event ≠ .write path content) :
    Spares place state event :=
  fun path content isWrite => absurd isWrite (quiet path content)

theorem resolve_target (once : ((host.table kernel).map Prod.fst).Nodup) {path : List String}
    {place : Place (Medium Tree) String} (leads : target (host.table kernel) path = some place)
    {state : State Tree Content} (reached : (machine kernel host).Reachable state)
    (ready : Ready (host.table kernel) state.mounted path) :
    resolve state.mounted path = some place :=
  (sound_reachable once reached).resolve_eq once ready (Namespace.target_located leads)

end Runs

/-- A file is in a tree on a disk. -/
def HostConfig.lasts (host : HostConfig) (path : List String) : Bool :=
  match target (host.table kernel) path with
  | some place => place.fs.lasting
  | none => false

/-- What is written at a path and written back is read again in every later boot in
which all that stands above the path is mounted, in whatever order, as long as
nothing else writes it; where the path leads to a filesystem in memory nothing is
read. -/
theorem read_after_boots {kernel : Filesystems Tree} (host : UsbHost kernel) {path : List String}
    {place : Place (Medium Tree) String}
    (leads : target (host.table kernel) path = some place) {content : Option Content}
    {state written last final : State Tree Content}
    (reached : (machine kernel host.toHostConfig).Reachable state)
    (ready : Ready (host.table kernel) state.mounted path)
    (write : step kernel host.toHostConfig state (.write path content) = some written)
    (before : SparingSteps kernel host.toHostConfig place
      { written with files := written.files.flush place } last)
    (after : SparingSteps kernel host.toHostConfig place (.boot last.files) final)
    (readyAgain : Ready (host.table kernel) final.mounted path) :
    final.read path = if host.lasts kernel path then content else none := by
  have once := host.flat.once
  have isWritten : written = { state with files := state.files.write place content } := by
    rw [step, resolve_target once leads reached ready] at write
    exact (Option.some.inj write).symm
  have reachedWrite := reachable_step reached write
  have reachedFlush := reachable_step reachedWrite (rfl : step kernel _ _ (.flush place) = _)
  have reachedBoot := reachable_step (sparing_reachable reachedFlush before)
    (rfl : step kernel _ _ .stop = _)
  have here : resolve final.mounted path = some place :=
    resolve_target once leads (sparing_reachable reachedBoot after) readyAgain
  have isRead : final.read path = final.files.seen place := by
    rw [State.read, here]
    rfl
  have isLasting : host.lasts kernel path = place.fs.lasting := by
    rw [HostConfig.lasts, leads]
  rw [isRead, isLasting]
  split
  · rename_i lasts
    have seen : written.files.seen place = content := by
      rw [isWritten]
      exact Writeback.Store.seen_write
    have flushed := safe_run lasts (Writeback.Store.flush_safe seen) before
    exact (safe_run lasts (flushed.stop lasts) after).1
  · rename_i fades
    have volatile := Bool.eq_false_iff.mpr fades
    have gone : (State.boot last.files).files.seen place = none :=
      Writeback.Store.stop_gone volatile
    exact gone_run volatile gone after

/-! ## What lasts on a host that is let through -/

/-- What an entry of nixnas is: the tmpfs root, the ESP, the store, or a directory
below `/var` that is bound from the store. -/
inductive OwnEntry (f2fsOptions : List String) : String → FileSystem → Prop where
  | root {fs : FileSystem} (tmpfs : fs.fsType = "tmpfs") (unbound : binds fs = false) :
      OwnEntry f2fsOptions "/" fs
  | esp {fs : FileSystem} : OwnEntry f2fsOptions "/boot" fs
  | store {fs : FileSystem} (f2fs : fs.fsType = "f2fs")
      (options : fs.options = f2fsOptions ++ ["x-systemd.device-timeout=0"]) :
      OwnEntry f2fsOptions "/nix" fs
  | bound {key : String} {fs : FileSystem} (under : ["var"] <+: components key)
      (isBind : binds fs = true) (source : ["nix"] <+: components fs.device) :
      OwnEntry f2fsOptions key fs

theorem OwnEntry.root_tmpfs {f2fsOptions : List String} {key : String} {fs : FileSystem}
    (own : OwnEntry f2fsOptions key fs) (atRoot : components key = []) :
    fs.fsType = "tmpfs" ∧ binds fs = false := by
  cases own with
  | root tmpfs unbound => exact ⟨tmpfs, unbound⟩
  | esp => exact absurd atRoot (by decide)
  | store f2fs options => exact absurd atRoot (by decide)
  | bound under isBind source =>
      rw [atRoot] at under
      cases List.prefix_nil.mp under

theorem components_stateDir (name : String) :
    components (PersistEnforce.stateDir name) = ["var", "lib"] ++ components name := by
  have parent : components "/var/lib" = ["var", "lib"] := by decide
  have start : PersistEnforce.stateDir name = "/var/lib" ++ "/" ++ name := rfl
  rw [start, components_below, parent]

theorem ownEntry_bindMount (f2fsOptions : List String) (name : String) :
    OwnEntry f2fsOptions ("/var/lib/" ++ name) (bindMount ("/var/lib/" ++ name)) := by
  refine .bound ?_ rfl ?_
  · have under := components_stateDir name
    rw [PersistEnforce.stateDir] at under
    rw [under]
    exact ⟨"lib" :: components name, rfl⟩
  · have parent : components "/nix/persist/var/lib" = ["nix", "persist", "var", "lib"] := by decide
    have start : (bindMount ("/var/lib/" ++ name)).device =
        "/nix/persist/var/lib" ++ "/" ++ name := by
      have joined : "/nix/persist/var/lib" ++ "/" = persist ++ "/var/lib/" := by decide
      rw [joined, String.append_assoc]
      rfl
    rw [start, components_below, parent]
    exact ⟨["persist", "var", "lib"] ++ components name, rfl⟩

theorem ownEntry_of_identity {cfg : NixnasOptions} {f2fsOptions : List String}
    (usb : cfg.enable = true ∧ cfg.location = .usb) {key : String} {fs : FileSystem}
    (found : (identity cfg).fileSystems.lookup key = some fs) : OwnEntry f2fsOptions key fs := by
  rw [Identity.identity_of_usb usb] at found
  dsimp only at found
  rw [Identity.fileSystems, AttrSet.lookup_update, Option.or_eq_some_iff] at found
  rcases found with client | ⟨-, nixos⟩
  · have member := AttrSet.mem_of_lookup_listToAttrs client
    obtain ⟨listed, isListed, same⟩ := List.mem_map.mp member
    obtain ⟨name, -, rfl⟩ := List.mem_map.mp isListed
    cases same
    exact ownEntry_bindMount f2fsOptions name
  · have member := AttrSet.mem_of_lookup_listToAttrs nixos
    cases List.mem_singleton.mp member
    exact ownEntry_bindMount f2fsOptions "nixos"

theorem ownEntry_of_journal {persistLogs : Bool} {f2fsOptions : List String} {key : String}
    {fs : FileSystem} (found : (journalFileSystems persistLogs).lookup key = some fs) :
    OwnEntry f2fsOptions key fs := by
  unfold journalFileSystems at found
  cases persistLogs with
  | false => cases found
  | true =>
      cases List.mem_singleton.mp (AttrSet.mem_of_lookup_listToAttrs found)
      exact .bound (by decide) rfl (by decide)

theorem ownEntry_of_disk {f2fsOptions : List String} {key : String} {fs : FileSystem}
    (found : (diskFileSystems f2fsOptions).lookup key = some fs) : OwnEntry f2fsOptions key fs := by
  have member := AttrSet.mem_of_lookup_listToAttrs found
  simp only [List.mem_cons, List.not_mem_nil, or_false, Prod.mk.injEq] at member
  obtain ⟨rfl, rfl⟩ | ⟨rfl, rfl⟩ | ⟨rfl, rfl⟩ := member
  · exact .root rfl (by decide)
  · exact .esp
  · exact .store rfl rfl

/-- The entry stands above the path, or above the directory that is bound there. -/
def HostConfig.Carries (host : HostConfig) (path : List String) (key : String) : Prop :=
  components key <+: path ∨
    ∃ point source, owner (host.table kernel) path = some (point, .bind source) ∧
      components key <+: source

/-- The entry shows a tree on a disk, by itself or by what it binds. -/
def HostConfig.durable (host : HostConfig) (fs : FileSystem) : Bool :=
  if binds fs then host.lasts kernel (components fs.device) else (kernel.treeOf fs).isSome

theorem start_unique {path : List String} {first second : String} (isFirst : [first] <+: path)
    (isSecond : [second] <+: path) : first = second := by
  obtain ⟨rest, rfl⟩ := isFirst
  exact (List.cons_prefix_cons.mp isSecond).1.symm

namespace UsbHost

variable {kernel}
variable (host : UsbHost kernel)

omit [DecidableEq Tree] in
theorem ownEntry {key : String} {fs : FileSystem} (found : host.own.lookup key = some fs) :
    OwnEntry host.f2fsOptions key fs := by
  rw [HostConfig.own, AttrSet.lookup_update, AttrSet.lookup_update, Option.or_eq_some_iff,
    Option.or_eq_some_iff] at found
  rcases found with identity | ⟨-, journal | ⟨-, disk⟩⟩
  · exact ownEntry_of_identity host.usb identity
  · exact ownEntry_of_journal journal
  · exact ownEntry_of_disk disk

omit [DecidableEq Tree] in
/-- The mounts that nixnas itself always makes. -/
theorem lookup_own {key : String} {fs : FileSystem} (found : host.own.lookup key = some fs) :
    host.fileSystems.lookup key = some fs := by
  rw [HostConfig.fileSystems, AttrSet.lookup_update, host.apart key fs found, Option.none_or, found]

omit [DecidableEq Tree] in
theorem exists_own (key : String) (listed : key ∈ ["/", "/boot", "/nix"]) :
    ∃ fs, host.own.lookup key = some fs := by
  have isDisk : ∃ fs, (diskFileSystems host.f2fsOptions).lookup key = some fs :=
    (AttrSet.lookup_listToAttrs_isSome _ _).mpr listed
  obtain ⟨fs, found⟩ := isDisk
  rw [HostConfig.own, AttrSet.lookup_update, AttrSet.lookup_update]
  cases (identity host.nixnas).fileSystems.lookup key with
  | some other => exact ⟨other, rfl⟩
  | none =>
      cases (journalFileSystems host.persistLogs).lookup key with
      | some other => exact ⟨other, rfl⟩
      | none => exact ⟨fs, found⟩

omit [DecidableEq Tree] in
theorem nix_entry : ∃ source, (["nix"], source) ∈ host.table kernel := by
  obtain ⟨fs, found⟩ := host.exists_own "/nix" (by decide)
  have atNix : components "/nix" = ["nix"] := by decide
  refine ⟨sourceOf kernel "/nix" fs, mem_table.mpr ⟨"/nix", fs, .inl (host.lookup_own found), ?_⟩⟩
  rw [entryOf, atNix]

omit [DecidableEq Tree] in
/-- The owner of a path is an entry of the operator, one of nixnas or a dataset. -/
theorem owner_cases {path : List String} {entry : List String × Source (Medium Tree) String}
    (owns : owner (host.table kernel) path = some entry) :
    ∃ key fs, entry = entryOf kernel key fs ∧ components key <+: path ∧
      (host.operator.lookup key = some fs ∨ OwnEntry host.f2fsOptions key fs ∨
        ∃ dataset, HostConfig.datasetMount dataset = fs) := by
  obtain ⟨member, above⟩ := Namespace.owner_above owns
  obtain ⟨key, fs, found | ⟨dataset, _, isDataset⟩, rfl⟩ := mem_table.mp member
  · refine ⟨key, fs, rfl, above, ?_⟩
    rw [HostConfig.fileSystems, AttrSet.lookup_update, Option.or_eq_some_iff] at found
    rcases found with operator | ⟨-, own⟩
    · exact .inl operator
    · exact .inr (.inl (host.ownEntry own))
  · exact ⟨key, fs, rfl, above, .inr (.inr ⟨dataset, isDataset⟩)⟩

omit [DecidableEq Tree] in
theorem root_entry : ([], .device (.memory [])) ∈ host.table kernel := by
  obtain ⟨fs, found⟩ := host.exists_own "/" (by decide)
  have atRoot : components "/" = [] := by decide
  obtain ⟨tmpfs, unbound⟩ := (host.ownEntry found).root_tmpfs atRoot
  refine mem_table.mpr ⟨"/", fs, .inl (host.lookup_own found), ?_⟩
  rw [entryOf, sourceOf, unbound, kernel.tmpfs fs tmpfs, atRoot]
  rfl

omit [DecidableEq Tree] in
theorem store_unbound {fs : FileSystem}
    (options : fs.options = host.f2fsOptions ++ ["x-systemd.device-timeout=0"]) :
    binds fs = false := by
  rw [binds, options, Bool.eq_false_iff, ne_eq, List.elem_iff, List.mem_append]
  rintro (inRecipe | isTimeout)
  · exact host.recipe inRecipe
  · exact absurd (List.mem_singleton.mp isTimeout) (by decide)

/-! ## Owners and what lasts -/

omit [DecidableEq Tree] in
theorem lasts_of_device {path point : List String} {medium : Medium Tree}
    (owns : owner (host.table kernel) path = some (point, .device medium)) :
    host.lasts kernel path = medium.lasting := by
  rw [HostConfig.lasts, target, owns]

omit [DecidableEq Tree] in
/-- A bound directory lasts as what is bound there. -/
theorem lasts_of_bind {path point source : List String}
    (owns : owner (host.table kernel) path = some (point, .bind source)) :
    host.lasts kernel path = host.lasts kernel source := by
  obtain ⟨member, _⟩ := Namespace.owner_above owns
  rw [HostConfig.lasts, HostConfig.lasts, target, target, owns]
  dsimp only
  cases ownsSource : owner (host.table kernel) source with
  | none => rfl
  | some entry =>
      obtain ⟨above, bound⟩ := entry
      cases bound with
      | device medium => rfl
      | bind bound =>
          obtain ⟨isAbove, standsAbove⟩ := Namespace.owner_above ownsSource
          exact absurd standsAbove (host.flat.direct _ member source rfl _ isAbove rfl)

omit [DecidableEq Tree] in
theorem lasts_of_durable {path : List String} {key : String} {fs : FileSystem}
    (owns : owner (host.table kernel) path = some (entryOf kernel key fs))
    (durable : host.durable kernel fs = true) : host.lasts kernel path = true := by
  rw [entryOf, sourceOf] at owns
  rw [HostConfig.durable] at durable
  cases isBind : binds fs with
  | true =>
      rw [isBind] at owns durable
      exact (host.lasts_of_bind owns).trans durable
  | false =>
      rw [isBind] at owns durable
      obtain ⟨tree, isTree⟩ := Option.isSome_iff_exists.mp durable
      rw [isTree] at owns
      exact host.lasts_of_device owns

omit [DecidableEq Tree] in
theorem durable_dataset (dataset : String) :
    host.durable kernel (HostConfig.datasetMount dataset) = true :=
  kernel.zfs (HostConfig.datasetMount dataset) rfl

omit [DecidableEq Tree] in
/-- The store, and what the operator has mounted in it. -/
theorem lasts_in_store {path : List String} (inStore : ["nix"] <+: path)
    (durable : ∀ key fs, host.operator.lookup key = some fs → components key <+: path →
      host.durable kernel fs = true) : host.lasts kernel path = true := by
  obtain ⟨source, isEntry⟩ := host.nix_entry
  obtain ⟨entry, owns, deeper⟩ := Namespace.exists_owner isEntry inStore
  obtain ⟨key, fs, rfl, above, operator | own | ⟨dataset, rfl⟩⟩ := host.owner_cases owns
  · exact host.lasts_of_durable owns (durable key fs operator above)
  · cases own with
    | root tmpfs unbound =>
        have atRoot : components "/" = [] := by decide
        rw [entryOf, atRoot] at deeper
        cases deeper
    | esp =>
        have atBoot : components "/boot" = ["boot"] := by decide
        rw [atBoot] at above
        exact absurd (start_unique above inStore) (by decide)
    | store f2fs options =>
        obtain ⟨tree, isTree⟩ := Option.isSome_iff_exists.mp (kernel.f2fs fs f2fs)
        rw [entryOf, sourceOf, host.store_unbound options, isTree] at owns
        exact host.lasts_of_device owns
    | bound under isBind source =>
        exact absurd (start_unique (under.trans above) inStore) (by decide)
  · exact host.lasts_of_durable owns (host.durable_dataset dataset)

omit [DecidableEq Tree] in
/-- A mount above a directory of a service that is not the root. -/
theorem exists_mount {dir : String} (accepted : host.config.Accepted)
    (declared : host.config.Declares dir) :
    ∃ entry ∈ host.table kernel, entry.1 <+: components (PersistEnforce.stateDir dir) ∧
      entry.1 ≠ [] := by
  obtain ⟨key, ⟨mounted, above⟩, keeps⟩ := PersistEnforce.SystemConfig.exists_keeps
    ((PersistEnforce.SystemConfig.accepted_iff host.usb.2 host.usb.1).mp accepted dir declared)
  obtain ⟨reduced, found⟩ := Option.isSome_iff_exists.mp mounted
  have lookup : host.config.fileSystems.lookup key = (host.fileSystems.lookup key).map _ :=
    AttrSet.lookup_mapAttrs _ _ _
  rw [lookup, Option.map_eq_some_iff] at found
  obtain ⟨fs, found, rfl⟩ := found
  have isEntry : entryOf kernel key fs ∈ host.table kernel := mem_table.mpr ⟨key, fs, .inl found, rfl⟩
  refine ⟨entryOf kernel key fs, isEntry, above, ?_⟩
  intro atRoot
  rcases keeps with own | isBind
  · have ownPoint : (entryOf kernel key fs).1 = components (PersistEnforce.stateDir dir) := own
    rw [atRoot, components_stateDir] at ownPoint
    cases ownPoint
  · have bound : binds fs = true := by
      rw [PersistEnforce.SystemConfig.isBindMountAt, lookup, found] at isBind
      exact (Bool.and_eq_true_iff.mp isBind).2
    have same := Namespace.eq_of_points host.flat.once isEntry host.root_entry atRoot
    rw [entryOf, sourceOf, if_pos bound] at same
    have sources := congrArg Prod.snd same
    cases sources

omit [DecidableEq Tree] in
/-- What is below a directory of a service lasts, as far as what the operator has
mounted there does. -/
theorem declared_lasts {dir : String} (accepted : host.config.Accepted)
    (declared : host.config.Declares dir) {path : List String}
    (below : components (PersistEnforce.stateDir dir) <+: path)
    (durable : ∀ key fs, host.operator.lookup key = some fs → host.Carries kernel path key →
      host.durable kernel fs = true) : host.lasts kernel path = true := by
  obtain ⟨entry, isEntry, above, notRoot⟩ := host.exists_mount accepted declared
  obtain ⟨owning, owns, deeper⟩ := Namespace.exists_owner isEntry (above.trans below)
  have underVar : ["var"] <+: path := by
    rw [components_stateDir] at below
    exact List.IsPrefix.trans ⟨"lib" :: components dir, rfl⟩ below
  obtain ⟨key, fs, rfl, keyAbove, operator | own | ⟨dataset, rfl⟩⟩ := host.owner_cases owns
  · exact host.lasts_of_durable owns (durable key fs operator (.inl keyAbove))
  · cases own with
    | root tmpfs unbound =>
        have atRoot : components "/" = [] := by decide
        rw [entryOf, atRoot] at deeper
        exact absurd (List.eq_nil_of_length_eq_zero (Nat.le_zero.mp deeper)) notRoot
    | esp =>
        have atBoot : components "/boot" = ["boot"] := by decide
        rw [atBoot] at keyAbove
        exact absurd (start_unique keyAbove underVar) (by decide)
    | store f2fs options =>
        have atNix : components "/nix" = ["nix"] := by decide
        rw [atNix] at keyAbove
        exact absurd (start_unique keyAbove underVar) (by decide)
    | bound under isBind source =>
        rw [entryOf, sourceOf, isBind] at owns
        rw [host.lasts_of_bind owns]
        refine host.lasts_in_store source ?_
        intro other otherFs operator above
        exact durable other otherFs operator (.inr ⟨_, _, owns, above⟩)
  · exact host.lasts_of_durable owns (host.durable_dataset dataset)

end UsbHost

/-- In every later boot, whatever was mounted before and in whichever order, a file
that was written and written back reads as it was if its path leads to a disk, and is
gone if it leads to memory, until something writes it.  The files below a directory
that the gate let a service declare are there again, as long as the filesystems that
the operator has put under them are on a disk. -/
theorem state_survives {kernel : Filesystems Tree} (host : UsbHost kernel) {path : List String}
    {place : Place (Medium Tree) String}
    (leads : target (host.table kernel) path = some place) {content : Option Content}
    {state written last final : State Tree Content}
    (reached : (machine kernel host.toHostConfig).Reachable state)
    (ready : Ready (host.table kernel) state.mounted path)
    (write : step kernel host.toHostConfig state (.write path content) = some written)
    (before : SparingSteps kernel host.toHostConfig place
      { written with files := written.files.flush place } last)
    (after : SparingSteps kernel host.toHostConfig place (.boot last.files) final)
    (readyAgain : Ready (host.table kernel) final.mounted path) :
    final.read path = (if host.lasts kernel path then content else none) ∧
      ∀ dir, host.config.Accepted → host.config.Declares dir →
        components (PersistEnforce.stateDir dir) <+: path →
        (∀ key fs, host.operator.lookup key = some fs → host.Carries kernel path key →
          host.durable kernel fs = true) → final.read path = content := by
  have isRead := read_after_boots host leads reached ready write before after readyAgain
  refine ⟨isRead, ?_⟩
  intro dir accepted declared below durable
  rw [isRead, if_pos (host.declared_lasts accepted declared below durable)]

/-! ## A host with a pool -/

namespace Demo

/-- Every device that is no tmpfs holds one tree. -/
def disks : Filesystems String where
  treeOf fs := if fs.fsType = "tmpfs" then none else some fs.device
  tmpfs _ isTmpfs := if_pos isTmpfs
  f2fs fs isF2fs := by
    rw [isF2fs, if_neg (by decide)]
    rfl
  zfs fs isZfs := by
    rw [isZfs, if_neg (by decide)]
    rfl

def poolHost : HostConfig where
  nixnas := Identity.clientHost ["tailscale"]
  persistLogs := false
  f2fsOptions := ["noatime"]
  operator := AttrSet.listToAttrs
    [("/bulk/media/archive", ⟨"/dev/mapper/archive0", "xfs", ["noauto", "nofail"], false⟩),
      ("/var/lib/acme", ⟨"/fast/state/acme", "none", ["bind", "noauto"], false⟩)]
  datasets := AttrSet.listToAttrs [("/fast", "fast"), ("/bulk/media", "bulk/media")]
  services := AttrSet.listToAttrs [("acme", .string "acme"), ("tailscaled", .string "tailscale")]

def pool : UsbHost disks where
  toHostConfig := poolHost
  usb := ⟨rfl, rfl⟩
  recipe := by decide
  apart := by
    intro key fs found
    by_contra isOperator
    obtain ⟨other, isOther⟩ := Option.ne_none_iff_exists'.mp isOperator
    have member := AttrSet.mem_of_lookup_listToAttrs isOther
    simp only [List.mem_cons, List.not_mem_nil, or_false, Prod.mk.injEq] at member
    obtain ⟨rfl, -⟩ | ⟨rfl, -⟩ := member
    · have absent : poolHost.own.lookup "/bulk/media/archive" = none := by decide +kernel
      rw [absent] at found
      cases found
    · have absent : poolHost.own.lookup "/var/lib/acme" = none := by decide +kernel
      rw [absent] at found
      cases found
  flat := by decide +kernel

def certificate : List String := ["var", "lib", "acme", "certs", "key"]

def onPool : Place (Medium String) String := ⟨.disk "fast", ["state", "acme", "certs", "key"]⟩

def empty : State String String := .boot ⟨fun _ => none, fun _ => none⟩

def morning : List (Event String String) :=
  [.mount "/", .selfMount "/fast", .mount "/var/lib/acme"]

def evening : List (Event String String) :=
  [.mount "/", .mount "/nix", .selfMount "/bulk/media", .selfMount "/fast",
    .mount "/var/lib/tailscale", .mount "/bulk/media/archive", .mount "/boot",
    .mount "/var/lib/acme"]

/-- A certificate is written, and the host stops and boots again. -/
def twoBoots (content : String) : List (Event String String) :=
  morning ++ .write certificate (some content) :: .flush onPool :: .stop :: evening

theorem pool_accepted : poolHost.config.Accepted :=
  (by decide +kernel : ∀ a ∈ poolHost.config.assertions, a.assertion = true)

theorem pool_declares : poolHost.config.Declares "acme" :=
  ⟨"acme", .string "acme", by decide +kernel, by decide +kernel, List.not_mem_nil⟩

theorem pool_durable (key : String) (fs : FileSystem)
    (found : poolHost.operator.lookup key = some fs) : poolHost.durable disks fs = true := by
  have member := AttrSet.mem_of_lookup_listToAttrs found
  simp only [List.mem_cons, List.not_mem_nil, or_false, Prod.mk.injEq] at member
  obtain ⟨-, rfl⟩ | ⟨-, rfl⟩ := member
  · rfl
  · decide +kernel

end Demo

open Demo in
theorem state_survives_pool :
    ∃ final, Machine.replay (step disks poolHost) empty (twoBoots "secret") = some final ∧
      final.read certificate = some "secret" := by
  have first : (Machine.replay (step disks poolHost) empty morning).any
      fun state => Ready (poolHost.table disks) state.mounted certificate := by decide +kernel
  have second : (Machine.replay (step disks poolHost) empty (twoBoots "secret")).any
      fun state => Ready (poolHost.table disks) state.mounted certificate := by decide +kernel
  obtain ⟨state, isState, ready⟩ := (Option.any_eq_true _ _).mp first
  obtain ⟨final, isFinal, readyAgain⟩ := (Option.any_eq_true _ _).mp second
  have leads : target (poolHost.table disks) certificate = some onPool := by decide +kernel
  have reached : (machine disks poolHost).Reachable state :=
    Machine.Reachable.steps (.initial ⟨_, rfl⟩)
      (Machine.steps_of_replay morning empty state isState)
  have write : step disks poolHost state (.write certificate (some "secret")) =
      some { state with files := state.files.write onPool (some "secret") } := by
    rw [step, resolve_target pool.flat.once leads reached (of_decide_eq_true ready)]
    rfl
  have rest : Machine.replay (step disks poolHost)
      (.boot ((state.files.write onPool (some "secret")).flush onPool)) evening = some final := by
    rw [twoBoots, Machine.replay_append, isState] at isFinal
    simp only [Option.bind_some, Machine.replay, write] at isFinal
    exact isFinal
  have spares (state : State String String) : ∀ event ∈ evening, Spares onPool state event := by
    intro event member
    refine spares_of_quiet onPool state ?_
    rintro path content rfl
    simp [evening] at member
  have kept := state_survives pool leads reached (of_decide_eq_true ready) write .refl
    (Machine.restrict_steps_of_replay evening spares _ final rest) (of_decide_eq_true readyAgain)
  refine ⟨final, isFinal, kept.2 "acme" pool_accepted pool_declares (by decide +kernel) ?_⟩
  intro key fs found _
  exact pool_durable key fs found

end Nixnas.Modules.Boots
