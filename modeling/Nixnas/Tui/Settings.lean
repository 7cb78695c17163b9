import Mathlib.Data.Finmap
import Nixnas.Rust.Text

/-!
# The settings file

`src/tui/src/config.rs`: `Config::load` and `Config::save` over the tables of the
`toml` crate.  Saving merges into the table that is there, so a key of an earlier
save may be stale and a key of another version has to stay.
-/

set_option autoImplicit false

namespace Nixnas.Tui.Settings

open Nixnas.Rust

/-- `toml::Value`; no field of `Config` is of a `Foreign` kind. -/
inductive Value (Foreign : Type) where
  | string (s : String)
  | integer (n : Int)
  | foreign (v : Foreign)
  deriving DecidableEq

/-- `toml::Table`. -/
abbrev Table (Foreign : Type) := Finmap fun _ : String => Value Foreign

/-- The crate: its parser, its pretty printer, and its words for a value that does
not fit a field. -/
structure Toml (Foreign : Type) where
  parse : String → Except String (Table Foreign)
  print : Table Foreign → Except String String
  mismatch : String → Value Foreign → String

/-- What is printed is parsed back. -/
def Toml.Inverts {Foreign : Type} (toml : Toml Foreign) : Prop :=
  ∀ table text, toml.print table = .ok text → toml.parse text = .ok table

structure Config where
  flakeDir : String
  sbKeysSops : Option String
  buildMemoryMib : Option UInt32
  imageAttr : String
  hostAttr : Option String
  deriving DecidableEq

def defaultFlakeDir : String := "."

def defaultImageAttr : String := "imageScript"

/-- `Config::default`. -/
def Config.standard : Config := ⟨defaultFlakeDir, none, none, defaultImageAttr, none⟩

variable {Foreign : Type}

/-! ## The derived serialisation -/

/-- The fields in their order, each with the value it is written as. -/
def Config.fields (c : Config) : List (String × Option (Value Foreign)) :=
  [("flake_dir", some (.string c.flakeDir)),
    ("sb_keys_sops", c.sbKeysSops.map .string),
    ("build_memory_mib", c.buildMemoryMib.map fun n => .integer n.toNat),
    ("image_attr", some (.string c.imageAttr)),
    ("host_attr", c.hostAttr.map .string)]

/-- A field that is `None` makes no key. -/
def Table.ofFields : List (String × Option (Value Foreign)) → Table Foreign
  | [] => ∅
  | (key, some value) :: rest => (Table.ofFields rest).insert key value
  | (_, none) :: rest => Table.ofFields rest

/-- `toml::Value::try_from(self)`, as a table. -/
def Config.toTable (c : Config) : Table Foreign := Table.ofFields c.fields

/-- A field of the table, if it is there and fits. -/
def Toml.field {α : Type} (toml : Toml Foreign) (read : Value Foreign → Option α) (key : String)
    (table : Table Foreign) : Except String (Option α) :=
  match table.lookup key with
  | none => .ok none
  | some value =>
      match read value with
      | some a => .ok (some a)
      | none => .error (toml.mismatch key value)

def Value.asString : Value Foreign → Option String
  | .string s => some s
  | _ => none

def Value.asU32 : Value Foreign → Option UInt32
  | .integer n => if 0 ≤ n ∧ n < u32Bound then some (UInt32.ofNat n.toNat) else none
  | _ => none

/-- The derived `Deserialize`: a missing field has its default, and what is no
field is passed over. -/
def Toml.toConfig (toml : Toml Foreign) (table : Table Foreign) : Except String Config := do
  let flakeDir ← toml.field Value.asString "flake_dir" table
  let sbKeysSops ← toml.field Value.asString "sb_keys_sops" table
  let buildMemoryMib ← toml.field Value.asU32 "build_memory_mib" table
  let imageAttr ← toml.field Value.asString "image_attr" table
  let hostAttr ← toml.field Value.asString "host_attr" table
  pure
    { flakeDir := flakeDir.getD defaultFlakeDir
      sbKeysSops := sbKeysSops
      buildMemoryMib := buildMemoryMib
      imageAttr := imageAttr.getD defaultImageAttr
      hostAttr := hostAttr }

/-! ## Files -/

abbrev Disk := String → Option String

/-- How `fs::write` ends: a failed write leaves some content, or no file. -/
inductive Writing where
  | written
  | failed (error : String) (left : Option String)

def Disk.put (disk : Disk) (path : String) (content : Option String) : Disk :=
  fun other => if other = path then content else disk other

/-- An error under a further `.with_context(…)`. -/
def withContext {α : Type} (what path : String) (result : Except String α) : Except String α :=
  result.mapError fun e => what ++ " " ++ path ++ ": " ++ e

/-- `Config::load`. -/
def Toml.load (toml : Toml Foreign) (disk : Disk) (path : String) : Except String Config :=
  match disk path with
  | none => .ok Config.standard
  | some text => withContext "parsing" path ((toml.parse text).bind toml.toConfig)

/-- The keys that `save` removes when the settings do not have them. -/
def optionalKeys : List String := ["sb_keys_sops", "build_memory_mib", "host_attr"]

/-- The table that is written over one that was read. -/
def Config.merge (c : Config) (table : Table Foreign) : Table Foreign :=
  let own : Table Foreign := c.toTable
  let kept := optionalKeys.foldl
    (fun table key => if key ∈ own then table else table.erase key) table
  own ∪ kept

/-- The table that is there already. -/
def Toml.existing (toml : Toml Foreign) (disk : Disk) (path : String) :
    Except String (Table Foreign) :=
  match disk path with
  | none => .ok ∅
  | some text => withContext "parsing" path (toml.parse text)

/-- `Config::save`. -/
def Toml.save (toml : Toml Foreign) (c : Config) (disk : Disk) (path : String) (writing : Writing) :
    Except String Unit × Disk :=
  match toml.existing disk path with
  | .error e => (.error e, disk)
  | .ok table =>
      match toml.print (c.merge table) with
      | .error e => (.error ("serialising config: " ++ e), disk)
      | .ok text =>
          match writing with
          | .written => (.ok (), disk.put path (some text))
          | .failed e left => (.error ("writing " ++ path ++ ": " ++ e), disk.put path left)

/-! ## The tables -/

theorem lookup_ofFields_other {key : String} (fields : List (String × Option (Value Foreign)))
    (other : key ∉ fields.map (·.1)) : (Table.ofFields fields).lookup key = none := by
  induction fields with
  | nil => rfl
  | cons field rest ih =>
      obtain ⟨name, value⟩ := field
      rw [List.map_cons, List.mem_cons, not_or] at other
      cases value with
      | none => exact ih other.2
      | some value =>
          rw [Table.ofFields, Finmap.lookup_insert_of_ne _ other.1]
          exact ih other.2

/-- With pairwise different names, the table has what the list has. -/
theorem lookup_ofFields {fields : List (String × Option (Value Foreign))}
    (distinct : (fields.map (·.1)).Nodup) {key : String} {value : Option (Value Foreign)}
    (member : (key, value) ∈ fields) : (Table.ofFields fields).lookup key = value := by
  induction fields with
  | nil => cases member
  | cons field rest ih =>
      obtain ⟨name, first⟩ := field
      rw [List.map_cons, List.nodup_cons] at distinct
      rcases List.mem_cons.mp member with same | later
      · cases same
        cases value with
        | none => exact lookup_ofFields_other rest distinct.1
        | some value => exact Finmap.lookup_insert _
      · have differs : key ≠ name := by
          intro same
          exact distinct.1 (List.mem_map.mpr ⟨_, later, same⟩)
        cases first with
        | none => exact ih distinct.2 later
        | some value =>
            rw [Table.ofFields, Finmap.lookup_insert_of_ne _ differs]
            exact ih distinct.2 later

theorem fields_nodup (c : Config) :
    ((c.fields : List (String × Option (Value Foreign))).map (·.1)).Nodup := by
  change ["flake_dir", "sb_keys_sops", "build_memory_mib", "image_attr", "host_attr"].Nodup
  decide

theorem lookup_toTable (c : Config) {key : String} {value : Option (Value Foreign)}
    (member : (key, value) ∈ c.fields) : c.toTable.lookup key = value :=
  lookup_ofFields (fields_nodup c) member

/-- Removing keys hides these and no others. -/
theorem lookup_removed (own : Table Foreign) (keys : List String) (table : Table Foreign)
    (key : String) :
    (keys.foldl (fun table key => if key ∈ own then table else table.erase key) table).lookup key =
      if key ∈ keys ∧ key ∉ own then none else table.lookup key := by
  induction keys generalizing table with
  | nil => simp
  | cons first rest ih =>
      rw [List.foldl_cons, ih]
      by_cases gone : key ∈ rest ∧ key ∉ own
      · rw [if_pos gone, if_pos ⟨List.mem_cons_of_mem _ gone.1, gone.2⟩]
      · rw [if_neg gone]
        by_cases same : key = first
        · subst same
          by_cases present : key ∈ own
          · simp [present]
          · simp [present, Finmap.lookup_erase]
        · have unchanged : (if first ∈ own then table else table.erase first).lookup key =
              table.lookup key := by
            split
            · rfl
            · exact Finmap.lookup_erase_ne same
          rw [unchanged]
          simp only [List.mem_cons, same, false_or]
          rw [if_neg gone]

/-- The merge has the settings' own fields, without a key for those that are
`None`, and what is no field as it was. -/
theorem lookup_merge (c : Config) (table : Table Foreign) {key : String}
    {value : Option (Value Foreign)} (member : (key, value) ∈ c.fields) :
    (c.merge table).lookup key = value := by
  have own : (c.toTable : Table Foreign).lookup key = value := lookup_toTable c member
  rw [Config.merge]
  cases value with
  | some value =>
      rw [Finmap.lookup_union_left (Finmap.mem_of_lookup_eq_some own)]
      exact own
  | none =>
      have absent : key ∉ (c.toTable : Table Foreign) := Finmap.lookup_eq_none.mp own
      have optional : key ∈ optionalKeys := by
        simp only [Config.fields, List.mem_cons, Prod.mk.injEq, List.not_mem_nil, or_false,
          reduceCtorEq, and_false, false_or] at member
        rcases member with ⟨rfl, -⟩ | ⟨rfl, -⟩ | ⟨rfl, -⟩ <;> decide
      rw [Finmap.lookup_union_right absent, lookup_removed, if_pos ⟨optional, absent⟩]

theorem lookup_merge_other (c : Config) (table : Table Foreign) {key : String}
    (other : key ∉ (c.fields : List (String × Option (Value Foreign))).map (·.1)) :
    (c.merge table).lookup key = table.lookup key := by
  have absent : key ∉ (c.toTable : Table Foreign) :=
    Finmap.lookup_eq_none.mp (lookup_ofFields_other c.fields other)
  have required : key ∉ optionalKeys := by
    intro optional
    apply other
    change key ∈ ["flake_dir", "sb_keys_sops", "build_memory_mib", "image_attr", "host_attr"]
    simp only [optionalKeys, List.mem_cons, List.not_mem_nil, or_false] at optional ⊢
    rcases optional with rfl | rfl | rfl <;> simp
  rw [Config.merge, Finmap.lookup_union_right absent, lookup_removed,
    if_neg fun removed => required removed.1]

/-- A second merge changes nothing. -/
theorem merge_merge (c : Config) (table : Table Foreign) :
    c.merge (c.merge table) = c.merge table := by
  apply Finmap.ext_lookup
  intro key
  by_cases other : key ∈ (c.fields : List (String × Option (Value Foreign))).map (·.1)
  · obtain ⟨⟨name, value⟩, member, rfl⟩ := List.mem_map.mp other
    rw [lookup_merge c _ member, lookup_merge c _ member]
  · exact lookup_merge_other c _ other

theorem field_of_lookup {α : Type} (toml : Toml Foreign) {read : Value Foreign → Option α}
    {write : α → Value Foreign} (inverse : ∀ a, read (write a) = some a) {key : String}
    {table : Table Foreign} {value : Option α} (found : table.lookup key = value.map write) :
    toml.field read key table = .ok value := by
  rw [Toml.field, found]
  cases value with
  | none => rfl
  | some a => simp [inverse]

theorem asU32_integer (n : UInt32) : (Value.integer n.toNat : Value Foreign).asU32 = some n := by
  have small := n.toNat_lt
  have bound : n.toNat < u32Bound := small
  rw [Value.asU32, if_pos ⟨Int.natCast_nonneg _, by exact_mod_cast bound⟩]
  simp

/-- The settings are read back from any table they were merged into. -/
theorem toConfig_merge (toml : Toml Foreign) (c : Config) (table : Table Foreign) :
    toml.toConfig (c.merge table) = .ok c := by
  have string : ∀ s, Value.asString (.string s : Value Foreign) = some s := fun _ => rfl
  have flakeDir : toml.field Value.asString "flake_dir" (c.merge table) = .ok (some c.flakeDir) :=
    field_of_lookup toml string (lookup_merge c table (by simp [Config.fields]))
  have sbKeysSops : toml.field Value.asString "sb_keys_sops" (c.merge table) = .ok c.sbKeysSops :=
    field_of_lookup toml string (lookup_merge c table (by simp [Config.fields]))
  have buildMemoryMib :
      toml.field Value.asU32 "build_memory_mib" (c.merge table) = .ok c.buildMemoryMib :=
    field_of_lookup toml asU32_integer (lookup_merge c table (by simp [Config.fields]))
  have imageAttr : toml.field Value.asString "image_attr" (c.merge table) = .ok (some c.imageAttr) :=
    field_of_lookup toml string (lookup_merge c table (by simp [Config.fields]))
  have hostAttr : toml.field Value.asString "host_attr" (c.merge table) = .ok c.hostAttr :=
    field_of_lookup toml string (lookup_merge c table (by simp [Config.fields]))
  rw [Toml.toConfig, flakeDir, sbKeysSops, buildMemoryMib, imageAttr, hostAttr]
  rfl

/-! ## Saving -/

/-- A save that returns has put the merge in the file. -/
theorem save_ok {toml : Toml Foreign} {c : Config} {disk after : Disk} {path : String}
    {writing : Writing} (saved : toml.save c disk path writing = (.ok (), after)) :
    ∃ table text, toml.existing disk path = .ok table ∧ toml.print (c.merge table) = .ok text ∧
      after = disk.put path (some text) := by
  unfold Toml.save at saved
  split at saved
  · cases saved
  · rename_i table existing
    split at saved
    · cases saved
    · rename_i text printed
      cases writing with
      | written =>
          cases saved
          exact ⟨table, text, existing, printed, rfl⟩
      | failed e left => cases saved

/-- The file before the save: absent, or one that parses as `old`. -/
def Toml.Holds (toml : Toml Foreign) (disk : Disk) (path : String) (old : Table Foreign) : Prop :=
  (disk path = none ∧ old = ∅) ∨ ∃ text, disk path = some text ∧ toml.parse text = .ok old

theorem existing_of_holds {toml : Toml Foreign} {disk : Disk} {path : String}
    {old : Table Foreign} (holds : toml.Holds disk path old) :
    toml.existing disk path = .ok old := by
  rw [Toml.existing]
  rcases holds with ⟨absent, rfl⟩ | ⟨text, present, parsed⟩
  · rw [absent]
  · rw [present]
    simp [withContext, parsed, Except.mapError]

/-- After a save the settings load again, what is no field is as it was, a `None`
has no key, and saving again changes nothing. -/
theorem save_load (toml : Toml Foreign) (inverts : toml.Inverts) (c : Config) (path : String)
    (disk after : Disk) (writing : Writing) (old : Table Foreign)
    (holds : toml.Holds disk path old)
    (saved : toml.save c disk path writing = (.ok (), after)) :
    toml.load after path = .ok c ∧
      ∃ table, toml.Holds after path table ∧
        (∀ key, key ∉ (c.fields : List (String × Option (Value Foreign))).map (·.1) →
          table.lookup key = old.lookup key) ∧
        (∀ key, (key, none) ∈ (c.fields : List (String × Option (Value Foreign))) →
          table.lookup key = none) ∧
        ∀ writing' again, toml.save c after path writing' = (.ok (), again) →
          toml.Holds again path table := by
  obtain ⟨_, text, existing, printed, rfl⟩ := save_ok saved
  rw [existing_of_holds holds] at existing
  cases existing
  have parsed := inverts _ _ printed
  have present : (disk.put path (some text)) path = some text := by simp [Disk.put]
  have written : toml.Holds (disk.put path (some text)) path (c.merge old) :=
    Or.inr ⟨text, present, parsed⟩
  refine ⟨?_, c.merge old, written, fun key other => lookup_merge_other c old other,
    fun key cleared => lookup_merge c old cleared, ?_⟩
  · simp only [Toml.load, present, parsed]
    change withContext "parsing" path (toml.toConfig (c.merge old)) = _
    rw [toConfig_merge]
    rfl
  · intro writing' again savedAgain
    obtain ⟨_, text', existing, printed', rfl⟩ := save_ok savedAgain
    rw [existing_of_holds written] at existing
    cases existing
    rw [merge_merge] at printed'
    exact Or.inr ⟨text', by simp [Disk.put], inverts _ _ printed'⟩

/-! ## A file with a stale key -/

namespace Stale

def before : Table Empty :=
  ((∅ : Table Empty).insert "host_attr" (.string "old-box")).insert "theme" (.string "dark")

def beforeText : String := "host_attr = \"old-box\"\ntheme = \"dark\"\n"

def after : Table Empty :=
  (((∅ : Table Empty).insert "flake_dir" (.string ".")).insert "image_attr"
    (.string "imageScript")).insert "theme" (.string "dark")

def afterText : String := "flake_dir = \".\"\nimage_attr = \"imageScript\"\ntheme = \"dark\"\n"

/-- The crate on these two files. -/
def toml : Toml Empty where
  parse text :=
    if text = beforeText then .ok before
    else if text = afterText then .ok after
    else .error "TOML parse error"
  print table :=
    if table = before then .ok beforeText
    else if table = after then .ok afterText
    else .error "unsupported type"
  mismatch key _ := "invalid type for " ++ key

theorem toml_inverts : toml.Inverts := by
  intro table text printed
  simp only [toml] at printed ⊢
  split at printed
  · cases printed
    rename_i same
    rw [if_pos rfl, same]
  · split at printed
    · cases printed
      rename_i same
      rw [if_neg (by decide), if_pos rfl, same]
    · cases printed

theorem saved : toml.save Config.standard (fun _ => some beforeText) "nixnas.config" .written =
    (.ok (), Disk.put (fun _ => some beforeText) "nixnas.config" (some afterText)) := by
  have merged : Config.standard.merge before = after := by decide
  have differs : after ≠ before := by decide
  simp [Toml.save, Toml.existing, withContext, toml, Except.mapError, merged, differs]

end Stale

theorem save_load_stale :
    Stale.toml.load (Disk.put (fun _ => some Stale.beforeText) "nixnas.config"
      (some Stale.afterText)) "nixnas.config" = .ok Config.standard :=
  (save_load Stale.toml Stale.toml_inverts Config.standard "nixnas.config" _ _ .written Stale.before
    (Or.inr ⟨Stale.beforeText, rfl, by simp [Stale.toml]⟩) Stale.saved).1

end Nixnas.Tui.Settings
