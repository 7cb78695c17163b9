import Nixnas.Rust.Json
import Nixnas.Rust.Parsing
import Nixnas.Tui.Flash

/-!
# The disks that lsblk lists

`list_disks` of `src/tui/src/flash.rs`.  The columns of `lsblk -J -b` are printed
in more than one way: older releases quote their numbers and flags.  A device's
partitions and mappings are its children, to any depth; the disks are the whole
ones at the top, each with the partitions right below it.
-/

set_option autoImplicit false

namespace Nixnas.Tui.Flash

open Nixnas.Rust

/-! ## The source -/

structure LsblkDevice where
  name : String
  size : Option Nat
  devType : Option String
  tran : Option String
  rm : Option Bool
  model : Option String
  label : Option String
  children : List LsblkDevice

/-- `str::eq_ignore_ascii_case`. -/
def eqIgnoreAsciiCase (s t : String) : Bool := s.toList.map Char.toLower = t.toList.map Char.toLower

def flexibleBool : Json → Option (Option Bool) :=
  Json.asOption fun
    | .bool b => some b
    | .string s => some (s = "1" || eqIgnoreAsciiCase s "true")
    | json => json.asI64.map fun n => decide (n ≠ 0)

/-- A quoted number that does not parse is taken for no number. -/
def flexibleU64 : Json → Option (Option Nat)
  | .null => some none
  | .string s => some (parseU64 (trim s))
  | json => json.asU64.map some

def LsblkDevice.fields : List String :=
  ["name", "size", "type", "tran", "rm", "model", "label", "children"]

/-- `depth` is what is left of the 128 levels that `serde_json` goes down. -/
def LsblkDevice.deserialize : Nat → Json → Option LsblkDevice
  | depth + 2, json => do
      let entries ← json.asStruct LsblkDevice.fields
      let name ← Json.field entries "name" Json.asString none
      let size ← Json.field entries "size" flexibleU64 (some none)
      let devType ← Json.field entries "type" (Json.asOption Json.asString) (some none)
      let tran ← Json.field entries "tran" (Json.asOption Json.asString) (some none)
      let rm ← Json.field entries "rm" flexibleBool (some none)
      let model ← Json.field entries "model" (Json.asOption Json.asString) (some none)
      let label ← Json.field entries "label" (Json.asOption Json.asString) (some none)
      let children ← Json.field entries "children"
        (fun json => if depth = 0 then none else json.asVec (deserialize depth)) (some [])
      pure ⟨name, size, devType, tran, rm, model, label, children⟩
  | _, _ => none

/-- `LsblkOut`: two of the levels are those of the struct and of its vector. -/
def LsblkOut.deserialize (json : Json) : Option (List LsblkDevice) := do
  let entries ← json.asStruct ["blockdevices"]
  Json.field entries "blockdevices" (Json.asVec (LsblkDevice.deserialize 126)) none

/-- How `lsblk` ran: its standard output parses, or there is a message why not. -/
inductive LsblkRun where
  | notStarted (cause : String)
  | failed
  | output (parsed : Except String Json)

def partOf (child : LsblkDevice) : Part := ⟨child.name, child.size, child.label⟩

def diskOf (d : LsblkDevice) : Disk where
  name := d.name
  size := d.size
  tran := d.tran
  removable := d.rm.getD false
  model := d.model.filter fun m => trim m ≠ ""
  parts := (d.children.filter fun child => child.devType = some "part").map partOf

def wholeDisks (devices : List LsblkDevice) : List Disk :=
  (devices.filter fun d => d.devType = some "disk").map diskOf

/-- `refusal` is the deserializer's message about a tree that it does not take. -/
def listDisks (refusal : Json → String) : LsblkRun → Except String (List Disk)
  | .notStarted cause => .error ("running lsblk: " ++ cause)
  | .failed => .error "lsblk failed"
  | .output (.error e) => .error ("parsing lsblk output: " ++ e)
  | .output (.ok json) =>
      match LsblkOut.deserialize json with
      | some devices => .ok (wholeDisks devices)
      | none => .error ("parsing lsblk output: " ++ refusal json)

/-! ## What lsblk prints -/

/-- What is not known is printed as null. -/
def OrNull {α : Type} (prints : α → Json → Prop) : Option α → Json → Prop
  | none, json => json = .null
  | some value, json => prints value json

def PrintsText (s : String) (json : Json) : Prop := json = .string s

/-- A number is quoted by an older release, with blanks around it at most. -/
def PrintsNumber (n : Nat) (json : Json) : Prop :=
  n < u64Bound ∧ (json = .number n ∨ ∃ s, json = .string s ∧ trim s = toString n)

/-- A flag is a boolean, and `0` or `1` of an older release. -/
def PrintsFlag (b : Bool) (json : Json) : Prop :=
  json = .bool b ∨ json = .number b.toNat ∨ json = .string (toString b.toNat)

/-- The column is printed, or left out when there is nothing to print. -/
def Column (entries : List (String × Json)) (name : String) (prints : Json → Prop)
    (nothing : Prop) : Prop :=
  (∃ json, (name, json) ∈ entries ∧ prints json) ∨ nothing ∧ name ∉ entries.map Prod.fst

/-- The entries show the device, in any order and among any others. -/
structure Shows (prints : LsblkDevice → Json → Prop) (d : LsblkDevice)
    (entries : List (String × Json)) : Prop where
  once : (entries.map Prod.fst).Nodup
  name : ("name", .string d.name) ∈ entries
  size : Column entries "size" (OrNull PrintsNumber d.size) (d.size = none)
  devType : Column entries "type" (OrNull PrintsText d.devType) (d.devType = none)
  tran : Column entries "tran" (OrNull PrintsText d.tran) (d.tran = none)
  rm : Column entries "rm" (OrNull PrintsFlag d.rm) (d.rm = none)
  model : Column entries "model" (OrNull PrintsText d.model) (d.model = none)
  label : Column entries "label" (OrNull PrintsText d.label) (d.label = none)
  children : Column entries "children"
    (fun json => ∃ items, json = .array items ∧ List.Forall₂ prints d.children items)
    (d.children = [])

/-- The value prints a device, in at most so many levels. -/
def PrintsTree : Nat → LsblkDevice → Json → Prop
  | 0, _, _ => False
  | levels + 1, d, json => ∃ entries, json = .object entries ∧ Shows (PrintsTree levels) d entries

/-- The output prints the devices, in no more levels than `serde_json` goes down. -/
def PrintsAll (devices : List LsblkDevice) (json : Json) : Prop :=
  ∃ entries items, json = .object entries ∧ (entries.map Prod.fst).Nodup ∧
    ("blockdevices", .array items) ∈ entries ∧ List.Forall₂ (PrintsTree 62) devices items

/-- An entry at the top of the output is a disk as a whole, with the name and the
size of this one. -/
def Lists (json : Json) (disk : Disk) : Prop :=
  ∃ top items item entries,
    json.asStruct ["blockdevices"] = some top ∧ ("blockdevices", .array items) ∈ top ∧
      item ∈ items ∧ item.asStruct LsblkDevice.fields = some entries ∧
      ("type", .string "disk") ∈ entries ∧ ("name", .string disk.name) ∈ entries ∧
      ∀ bytes, disk.size = some bytes →
        ∃ size, ("size", size) ∈ entries ∧ flexibleU64 size = some (some bytes)

/-! ## Reading it back -/

theorem field_column {α : Type} {entries : List (String × Json)} {name : String}
    {prints : Json → Prop} {nothing : Prop} {read : Json → Option α} {absent : Option α} {value : α}
    (once : (entries.map Prod.fst).Nodup) (column : Column entries name prints nothing)
    (printed : ∀ json, prints json → read json = some value)
    (left : nothing → absent = some value) :
    Json.field entries name read absent = some value := by
  rcases column with ⟨json, member, prints⟩ | ⟨nothing, missing⟩
  · rw [Json.field_present once member]
    exact printed json prints
  · rw [Json.field_absent missing]
    exact left nothing

theorem text_read {s : Option String} {json : Json} (printed : OrNull PrintsText s json) :
    json.asOption Json.asString = some s := by
  cases s with
  | none =>
      have isNull : json = .null := printed
      rw [isNull]
      rfl
  | some s =>
      have isText : json = .string s := printed
      rw [isText]
      rfl

theorem size_read {n : Option Nat} {json : Json} (printed : OrNull PrintsNumber n json) :
    flexibleU64 json = some n := by
  cases n with
  | none =>
      have isNull : json = .null := printed
      rw [isNull]
      rfl
  | some n =>
      obtain ⟨small, plain | ⟨s, quoted, digits⟩⟩ := printed
      · have holds : (0 : Int) ≤ n ∧ (n : Int) < u64Bound :=
          ⟨Int.natCast_nonneg n, Int.ofNat_lt.mpr small⟩
        rw [plain]
        simp only [flexibleU64, Json.asU64, if_pos holds, Int.toNat_natCast, Option.map_some]
      · rw [quoted, flexibleU64, digits, parseU64_toString small]

theorem flag_read {b : Option Bool} {json : Json} (printed : OrNull PrintsFlag b json) :
    flexibleBool json = some b := by
  cases b with
  | none =>
      have isNull : json = .null := printed
      rw [isNull]
      rfl
  | some b =>
      rcases printed with isBool | isNumber | quoted
      · rw [isBool]
        rfl
      · rw [isNumber]
        cases b <;> rfl
      · rw [quoted]
        cases b <;> decide

theorem deserialize_of_prints (levels : Nat) :
    ∀ (depth : Nat) (d : LsblkDevice) (json : Json), 2 * levels < depth →
      PrintsTree levels d json → LsblkDevice.deserialize depth json = some d := by
  induction levels with
  | zero => exact fun _ _ _ _ printed => printed.elim
  | succ levels ih =>
      rintro depth d json deep ⟨entries, rfl, shows⟩
      obtain ⟨depth, rfl⟩ : ∃ less, depth = less + 2 := ⟨depth - 2, by omega⟩
      have children : Json.field entries "children"
          (fun json => if depth = 0 then none else json.asVec (LsblkDevice.deserialize depth))
          (some []) = some d.children := by
        refine field_column shows.once shows.children ?_ fun none_ => by rw [none_]
        rintro json ⟨items, rfl, printed⟩
        rw [if_neg (by omega), Json.asVec_eq_some]
        refine ⟨items, rfl, ?_⟩
        refine List.Forall₂.imp ?_ printed.flip
        intro item child prints
        exact ih depth child item (by omega) prints
      have name : Json.field entries "name" Json.asString none = some d.name := by
        rw [Json.field_present shows.once shows.name]
        rfl
      have blank {α : Type} {value : Option α} (none_ : value = none) :
          some (none : Option α) = some value := by rw [none_]
      simp only [LsblkDevice.deserialize, Json.asStruct, Option.bind_eq_bind, Option.bind_some,
        name, children,
        field_column shows.once shows.size (fun _ => size_read) blank,
        field_column shows.once shows.devType (fun _ => text_read) blank,
        field_column shows.once shows.tran (fun _ => text_read) blank,
        field_column shows.once shows.rm (fun _ => flag_read) blank,
        field_column shows.once shows.model (fun _ => text_read) blank,
        field_column shows.once shows.label (fun _ => text_read) blank]
      cases d
      rfl

/-- However the devices are printed, the disks are the whole ones among them. -/
theorem listDisks_printed (refusal : Json → String) (devices : List LsblkDevice) (json : Json)
    (printed : PrintsAll devices json) :
    listDisks refusal (.output (.ok json)) = .ok (wholeDisks devices) := by
  obtain ⟨entries, items, rfl, once, member, each⟩ := printed
  have read : LsblkOut.deserialize (.object entries) = some devices := by
    rw [LsblkOut.deserialize]
    simp only [Json.asStruct, Option.bind_eq_bind, Option.bind_some]
    rw [Json.field_present once member, Json.asVec_eq_some]
    refine ⟨items, rfl, ?_⟩
    refine List.Forall₂.imp ?_ each.flip
    intro item device prints
    exact deserialize_of_prints 62 126 device item (by omega) prints
  simp only [listDisks, read]

def stick : LsblkDevice where
  name := "sda"
  size := some 128
  devType := some "disk"
  tran := some "usb"
  rm := some true
  model := none
  label := none
  children := [⟨"sda1", some 64, some "part", none, some true, none, some "boot", []⟩]

/-- The output that shows the stick, with numbers and flags printed in one way. -/
def stickOutput (number : Nat → Json) (flag : Json) : Json :=
  .object [("blockdevices", .array [.object [("name", .string "sda"), ("size", number 128),
    ("type", .string "disk"), ("tran", .string "usb"), ("rm", flag), ("model", .null),
    ("label", .null), ("children", .array [.object [("name", .string "sda1"), ("size", number 64),
      ("type", .string "part"), ("tran", .null), ("rm", flag), ("model", .null),
      ("label", .string "boot")]])]])]

/-- As current releases print it, and as older ones do. -/
def plainStick : Json := stickOutput (fun n => .number n) (.bool true)

def quotedStick : Json := stickOutput (fun n => .string (toString n)) (.string "1")

theorem stick_printed {number : Nat → Json} {flag : Json}
    (numbers : ∀ n < u64Bound, PrintsNumber n (number n)) (flags : PrintsFlag true flag) :
    PrintsAll [stick] (stickOutput number flag) := by
  have part : PrintsTree 61 ⟨"sda1", some 64, some "part", none, some true, none, some "boot", []⟩
      (.object [("name", .string "sda1"), ("size", number 64), ("type", .string "part"),
        ("tran", .null), ("rm", flag), ("model", .null), ("label", .string "boot")]) := by
    refine ⟨_, rfl, ?_⟩
    constructor
    · simp
    · simp
    · exact .inl ⟨_, by simp, numbers 64 (by decide)⟩
    · exact .inl ⟨.string "part", by simp, rfl⟩
    · exact .inl ⟨.null, by simp, rfl⟩
    · exact .inl ⟨_, by simp, flags⟩
    · exact .inl ⟨.null, by simp, rfl⟩
    · exact .inl ⟨.string "boot", by simp, rfl⟩
    · exact .inr ⟨rfl, by simp⟩
  refine ⟨_, _, rfl, by simp, List.mem_cons_self, List.Forall₂.cons ?_ List.Forall₂.nil⟩
  refine ⟨_, rfl, ?_⟩
  constructor
  · simp
  · simp [stick]
  · exact .inl ⟨_, by simp, numbers 128 (by decide)⟩
  · exact .inl ⟨.string "disk", by simp, rfl⟩
  · exact .inl ⟨.string "usb", by simp, rfl⟩
  · exact .inl ⟨_, by simp, flags⟩
  · exact .inl ⟨.null, by simp, rfl⟩
  · exact .inl ⟨.null, by simp, rfl⟩
  · refine .inl ⟨_, List.mem_append_right [_, _, _, _, _, _, _] List.mem_cons_self, _, rfl, ?_⟩
    exact List.Forall₂.cons part List.Forall₂.nil

theorem listDisks_stick :
    listDisks (fun _ => "") (.output (.ok plainStick)) = .ok (wholeDisks [stick]) ∧
      listDisks (fun _ => "") (.output (.ok quotedStick)) = .ok (wholeDisks [stick]) := by
  constructor
  · refine listDisks_printed _ [stick] plainStick (stick_printed ?_ (.inl rfl))
    exact fun n small => ⟨small, .inl rfl⟩
  · refine listDisks_printed _ [stick] quotedStick (stick_printed ?_ (.inr (.inr rfl)))
    intro n small
    refine ⟨small, .inr ⟨_, rfl, trim_of_ends ?_ ?_⟩⟩
    · exact fun c head => toString_noSpace n c (List.mem_of_mem_head? head)
    · exact fun c last => toString_noSpace n c (List.mem_of_mem_getLast? last)

/-! ## What is offered -/

/-- The entries that a device was read from. -/
theorem deserialize_entries {depth : Nat} {json : Json} {d : LsblkDevice}
    (read : LsblkDevice.deserialize depth json = some d) :
    ∃ entries, json.asStruct LsblkDevice.fields = some entries ∧
      ("name", .string d.name) ∈ entries ∧
      (∀ devType, d.devType = some devType → ("type", .string devType) ∈ entries) ∧
      ∀ bytes, d.size = some bytes →
        ∃ size, ("size", size) ∈ entries ∧ flexibleU64 size = some (some bytes) := by
  unfold LsblkDevice.deserialize at read
  split at read
  · simp only [Option.bind_eq_bind, Option.bind_eq_some_iff, Option.pure_def,
      Option.some.injEq] at read
    obtain ⟨entries, isStruct, name, named, size, sized, devType, typed, _, _, _, _, _, _, _, _, _,
      _, rfl⟩ := read
    refine ⟨entries, isStruct, ?_, ?_, ?_⟩
    · rcases Json.of_field named with missing | ⟨json, member, isName⟩
      · cases missing
      · rw [← Json.asString_eq_some isName]
        exact member
    · intro text isText
      dsimp only at isText
      subst isText
      rcases Json.of_field typed with missing | ⟨json, member, isType⟩
      · cases missing
      · rw [← Json.asString_eq_some (Json.asOption_eq_some isType)]
        exact member
    · intro bytes known
      dsimp only at known
      subst known
      rcases Json.of_field sized with missing | found
      · cases missing
      · exact found
  · cases read

/-- A disk is only ever offered as the output lists it. -/
theorem lists_of_listDisks {refusal : Json → String} {run : LsblkRun} {disks : List Disk}
    (listed : listDisks refusal run = .ok disks) {disk : Disk} (member : disk ∈ disks) :
    ∃ json, run = .output (.ok json) ∧ Lists json disk := by
  unfold listDisks at listed
  split at listed <;> try cases listed
  rename_i json
  split at listed <;> cases listed
  rename_i devices read
  obtain ⟨top, isTop, found⟩ := Option.bind_eq_some_iff.mp read
  obtain ⟨d, isDevice, rfl⟩ := List.mem_map.mp member
  obtain ⟨isDevice, isDisk⟩ := List.mem_filter.mp isDevice
  rcases Json.of_field found with missing | ⟨vector, isVector, each⟩
  · cases missing
  · obtain ⟨items, rfl, item, isItem, read⟩ := Json.exists_item each isDevice
    obtain ⟨entries, isStruct, name, devType, size⟩ := deserialize_entries read
    exact ⟨json, rfl, top, items, item, entries, isTop, isVector, isItem, isStruct,
      devType "disk" (of_decide_eq_true isDisk), name, size⟩

end Nixnas.Tui.Flash
