import Nixnas.Tui.Sudo

/-!
# Disks, images and the flash worker's protocol

The data of `src/tui/src/flash.rs` that the screens and the worker share.
-/

set_option autoImplicit false

namespace Nixnas.Tui.Flash

open Nixnas.Rust
open Nixnas.Tui.Sudo

structure Part where
  name : String
  size : Option Nat
  label : Option String
  deriving DecidableEq, Repr

/-- A whole disk as the screens present it. -/
structure Disk where
  name : String
  size : Option Nat
  tran : Option String
  removable : Bool
  model : Option String
  parts : List Part
  deriving DecidableEq, Repr

def devPath (name : String) : String := "/dev/" ++ name

def Disk.devPath (d : Disk) : String := Flash.devPath d.name

/-- `.nixnas-image` next to the configuration. -/
def outLink (configDir : String) : String := join configDir ".nixnas-image"

/-- The first `.raw` of the image directory, in the order it is listed. -/
def findImage (configDir : String) (listing : Option (List String)) : Except String String :=
  match listing.bind fun names => names.find? fun name => extension name = some "raw" with
  | some name => .ok (join (outLink configDir) name)
  | none => .error "no built image found — run `Build image` first"

def backupPath (configDir : String) : String := join configDir "nixnas-backup.img"

inductive FlashEvent where
  | phase (title : String)
  | progress (done total : Nat)
  | done (result : Except String String)

def FlashEvent.isDone : FlashEvent → Bool
  | .done _ => true
  | _ => false

/-- The arguments of `spawn_flash`. -/
structure FlashJob where
  image : String
  dev : String
  devSize : Option Nat
  backupTo : Option String
  grow : Bool
  storePass : Option String
  elev : Elevation
  deriving DecidableEq, Repr

end Nixnas.Tui.Flash
