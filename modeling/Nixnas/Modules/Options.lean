import Mathlib.Data.String.Basic
import Nixnas.Logic.AttrSet

/-!
# The option surface

The options of `modules/options.nix` that the storage and store-location
modules read, with their types: a member's device is a string the option's
`strMatching` accepts.
-/

set_option autoImplicit false

namespace Nixnas.Modules

open Nixnas.Logic

/-- `strMatching "/dev/disk/by-[a-z]+/.+"`. -/
def matchesByAny (device : String) : Bool :=
  let root := "/dev/disk/by-".toList
  let rest := device.toList.drop root.length
  let kind := rest.takeWhile fun c => 'a' ≤ c && c ≤ 'z'
  root.isPrefixOf device.toList && !kind.isEmpty &&
    match rest.drop kind.length with
    | '/' :: _ :: _ => true
    | _ => false

/-- `strMatching "/dev/disk/by-id/.+"`. -/
def matchesById (device : String) : Bool :=
  let root := "/dev/disk/by-id/".toList
  root.isPrefixOf device.toList && root.length < device.toList.length

abbrev DiskByAny := { device : String // matchesByAny device = true }

abbrev DiskById := { device : String // matchesById device = true }

inductive StoreLocation where
  | usb
  | hot
  deriving DecidableEq, Repr

/-- `store.hot` and `store.root`. -/
structure StoreOptions where
  device : Option String
  unlock : AttrSet String DiskByAny

structure StorageOptions where
  unlock : AttrSet String DiskById
  zfsPools : List String

structure PersistOptions where
  overlayClients : List String
  explicitlyEphemeral : List String

/-- `config.nixnas`. -/
structure NixnasOptions where
  enable : Bool
  location : StoreLocation
  hot : StoreOptions
  root : StoreOptions
  storage : StorageOptions
  persist : PersistOptions

/-- The evaluated configuration, as far as these modules read it: their own
options, `nixboot.remoteUnlock.enable`, the names of `boot.initrd.luks.devices`
and the store path of `boot.zfs.package`. -/
structure Config where
  nixnas : NixnasOptions
  remoteUnlockEnable : Bool
  initrdLuksDevices : List String
  zfsPackage : String

structure Assertion where
  assertion : Bool
  message : String
  deriving DecidableEq, Repr

def Config.isHot (config : Config) : Bool :=
  config.nixnas.enable && config.nixnas.location = .hot

end Nixnas.Modules
