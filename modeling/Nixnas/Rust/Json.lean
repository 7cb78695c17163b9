import Mathlib.Data.List.Forall2
import Nixnas.Rust.Text

/-!
# JSON as it is deserialized

The tree that `serde_json` reads, and what the visitors of `serde` take from it.
The message of a refusal is not part of this: a value is there or it is not.
-/

set_option autoImplicit false

namespace Nixnas.Rust

inductive Json where
  | null
  | bool (b : Bool)
  | number (n : Int)
  | float
  | string (s : String)
  | array (items : List Json)
  | object (entries : List (String × Json))

namespace Json

section Visitors

variable {α : Type}

def asString : Json → Option String
  | .string s => some s
  | _ => none

def asI64 : Json → Option Int
  | .number n => if -9223372036854775808 ≤ n ∧ n < 9223372036854775808 then some n else none
  | _ => none

def asU64 : Json → Option Nat
  | .number n => if 0 ≤ n ∧ n < u64Bound then some n.toNat else none
  | _ => none

/-- `Option<T>`. -/
def asOption (read : Json → Option α) : Json → Option (Option α)
  | .null => some none
  | json => (read json).map some

/-- `Vec<T>`. -/
def asVec (read : Json → Option α) : Json → Option (List α)
  | .array items => items.mapM read
  | _ => none

/-- The entries of a struct, which may be given as a sequence in the order of its
fields too. -/
def asStruct (fields : List String) : Json → Option (List (String × Json))
  | .object entries => some entries
  | .array items => if items.length ≤ fields.length then some (fields.zip items) else none
  | _ => none

/-- A field of a struct, which is given once at most. -/
def field (entries : List (String × Json)) (name : String) (read : Json → Option α)
    (absent : Option α) : Option α :=
  match entries.filter fun entry => entry.1 = name with
  | [] => absent
  | [entry] => read entry.2
  | _ => none

end Visitors

/-! ## One field -/

variable {α : Type} {entries : List (String × Json)} {name : String} {read : Json → Option α}
  {absent : Option α} {value : α} {json : Json}

theorem field_absent (missing : name ∉ entries.map Prod.fst) :
    field entries name read absent = absent := by
  have none_ : entries.filter (fun entry => entry.1 = name) = [] := by
    rw [List.filter_eq_nil_iff]
    intro entry member same
    exact missing (List.mem_map.mpr ⟨entry, member, of_decide_eq_true same⟩)
  rw [field, none_]

theorem filter_once (once : (entries.map Prod.fst).Nodup) (member : (name, json) ∈ entries) :
    entries.filter (fun entry => entry.1 = name) = [(name, json)] := by
  induction entries with
  | nil => cases member
  | cons first rest ih =>
      obtain ⟨fresh, once⟩ := List.nodup_cons.mp once
      rcases List.mem_cons.mp member with rfl | later
      · rw [List.filter_cons_of_pos (by simp)]
        have others : rest.filter (fun entry => entry.1 = name) = [] := by
          rw [List.filter_eq_nil_iff]
          intro entry isEntry same
          exact fresh (List.mem_map.mpr ⟨entry, isEntry, of_decide_eq_true same⟩)
        rw [others]
      · have differs : ¬ first.1 = name := by
          intro same
          exact fresh (List.mem_map.mpr ⟨(name, json), later, same.symm⟩)
        rw [List.filter_cons_of_neg (by simpa using differs), ih once later]

theorem field_present (once : (entries.map Prod.fst).Nodup) (member : (name, json) ∈ entries) :
    field entries name read absent = read json := by
  rw [field, filter_once once member]

/-- A field that is read stands among the entries, or its default was taken. -/
theorem of_field (found : field entries name read absent = some value) :
    absent = some value ∨ ∃ json, (name, json) ∈ entries ∧ read json = some value := by
  unfold field at found
  split at found
  · exact .inl found
  · rename_i entry single
    have member : entry ∈ entries.filter fun entry => entry.1 = name := by simp [single]
    obtain ⟨isEntry, same⟩ := List.mem_filter.mp member
    refine .inr ⟨entry.2, ?_, found⟩
    rw [← of_decide_eq_true same]
    exact isEntry
  · cases found

theorem asString_eq_some {s : String} (read : json.asString = some s) : json = .string s := by
  cases json with
  | string t => exact congrArg Json.string (Option.some.inj read)
  | null | bool b | number n | float | array items | object entries => cases read

theorem asOption_eq_some {value : α} (found : json.asOption read = some (some value)) :
    read json = some value := by
  cases json with
  | null => cases found
  | bool b | number n | float | string s | array items | object entries =>
      obtain ⟨inner, isRead, same⟩ := Option.map_eq_some_iff.mp found
      rw [isRead, Option.some.inj same]

theorem mapM_eq_some {items : List Json} {values : List α} :
    items.mapM read = some values ↔
      List.Forall₂ (fun item value => read item = some value) items values := by
  induction items generalizing values with
  | nil =>
      rw [List.mapM_nil, List.forall₂_nil_left_iff]
      exact ⟨fun same => (Option.some.inj same).symm, fun same => same ▸ rfl⟩
  | cons first rest ih =>
      rw [List.mapM_cons]
      simp only [Option.bind_eq_bind, Option.pure_def, Option.bind_eq_some_iff, ih]
      constructor
      · rintro ⟨value, isValue, others, areOthers, same⟩
        rw [← Option.some.inj same]
        exact List.Forall₂.cons isValue areOthers
      · intro all
        cases all with
        | cons isValue areOthers => exact ⟨_, isValue, _, areOthers, rfl⟩

/-- The items of a vector are read one by one. -/
theorem asVec_eq_some {values : List α} :
    json.asVec read = some values ↔ ∃ items, json = .array items ∧
      List.Forall₂ (fun item value => read item = some value) items values := by
  cases json with
  | array items =>
      rw [asVec, mapM_eq_some]
      constructor
      · exact fun all => ⟨items, rfl, all⟩
      · rintro ⟨other, same, all⟩
        rw [Json.array.inj same]
        exact all
  | null | bool b | number n | float | string s | object entries =>
      constructor
      · exact fun none_ => by cases none_
      · exact fun ⟨_, other, _⟩ => by cases other

theorem exists_item {values : List α} (found : json.asVec read = some values)
    (member : value ∈ values) :
    ∃ items, json = .array items ∧ ∃ item ∈ items, read item = some value := by
  obtain ⟨items, isArray, each⟩ := asVec_eq_some.mp found
  refine ⟨items, isArray, ?_⟩
  clear found isArray
  induction each with
  | nil => cases member
  | cons isValue _ ih =>
      rcases List.mem_cons.mp member with rfl | later
      · exact ⟨_, List.mem_cons_self, isValue⟩
      · obtain ⟨item, isItem, isRead⟩ := ih later
        exact ⟨item, List.mem_cons_of_mem _ isItem, isRead⟩

end Json

end Nixnas.Rust
