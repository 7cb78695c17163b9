import Nixnas.Rust.Lines
import Nixnas.Tui.Settings

/-!
# Saving over a file of bytes

`Config::save` of `src/tui/src/config.rs` over the bytes of the settings file,
with every place at which it can fail.

`fs::write` empties the file before it writes, so a write that stops leaves the
beginning of the new text where the old one was.  Every other failure leaves the
file alone.
-/

set_option autoImplicit false

namespace Nixnas.Tui.Settings

open Nixnas.Rust

variable {Foreign : Type}

/-- How `fs::write` goes: the file cannot be opened, or the write stops after
some of its bytes. -/
inductive FileWrite where
  | completes
  | notOpened (error : String)
  | stops (after : Nat) (error : String)
  deriving DecidableEq, Repr

/-- What the file system answers to one save. -/
structure Attempt where
  «exists» : Bool
  readError : Option String
  write : FileWrite
  deriving DecidableEq, Repr

/-- `fs::read_to_string`. -/
def Attempt.readToString (attempt : Attempt) (file : Option Bytes) : Except String String :=
  match attempt.readError, file with
  | some e, _ => .error e
  | none, none => .error "No such file or directory (os error 2)"
  | none, some bytes =>
      match fromUtf8 bytes with
      | some text => .ok text
      | none => .error "stream did not contain valid UTF-8"

/-- `fs::write`; a write stops before its last byte. -/
def FileWrite.over (write : FileWrite) (contents : Bytes) (file : Option Bytes) :
    Except String Unit × Option Bytes :=
  match write with
  | .completes => (.ok (), some contents)
  | .notOpened e => (.error e, file)
  | .stops after e =>
      if after < contents.length then (.error e, some (contents.take after))
      else (.ok (), some contents)

/-- The table that is there already. -/
def Toml.existingIn (toml : Toml Foreign) (attempt : Attempt) (path : String)
    (file : Option Bytes) : Except String (Table Foreign) :=
  if attempt.exists then
    match withContext "reading" path (attempt.readToString file) with
    | .ok text => withContext "parsing" path (toml.parse text)
    | .error e => .error e
  else .ok ∅

/-- The text that `save` writes. -/
def Toml.textOver (toml : Toml Foreign) (c : Config) (attempt : Attempt) (path : String)
    (file : Option Bytes) : Except String String :=
  match toml.existingIn attempt path file with
  | .error e => .error e
  | .ok table => (toml.print (c.merge table)).mapError fun e => "serialising config: " ++ e

/-- `Config::save`: its result and the file it leaves. -/
def Toml.saveFile (toml : Toml Foreign) (c : Config) (attempt : Attempt) (path : String)
    (file : Option Bytes) : Except String Unit × Option Bytes :=
  match toml.textOver c attempt path file with
  | .error e => (.error e, file)
  | .ok text =>
      let (result, left) := attempt.write.over (asBytes text) file
      (withContext "writing" path result, left)

/-! ## The bytes and the text -/

theorem fromUtf8_asBytes (s : String) : fromUtf8 (asBytes s) = some s := by
  have bytes : (⟨(asBytes s).toArray⟩ : ByteArray) = s.toByteArray := by
    rw [← String.utf8Encode_toList, List.utf8Encode, ← List.data_toByteArray]
    rfl
  have valid := s.isValidUTF8
  rw [fromUtf8, bytes, String.fromUTF8?, dif_pos (by simpa using valid)]
  rfl

/-- On a readable text, and with a write that completes, the bytes are those of
`Toml.save`. -/
theorem saveFile_text (toml : Toml Foreign) (c : Config) (disk : Disk) (path : String) :
    toml.saveFile c ⟨(disk path).isSome, none, .completes⟩ path ((disk path).map asBytes) =
      ((toml.save c disk path .written).1,
        ((toml.save c disk path .written).2 path).map asBytes) := by
  have existing : toml.existingIn ⟨(disk path).isSome, none, .completes⟩ path
      ((disk path).map asBytes) = toml.existing disk path := by
    rw [Toml.existingIn, Toml.existing]
    cases content : disk path with
    | none => rfl
    | some text => simp [Attempt.readToString, fromUtf8_asBytes, withContext, Except.mapError]
  rw [Toml.saveFile, Toml.textOver, existing, Toml.save]
  cases toml.existing disk path with
  | error e => rfl
  | ok table =>
      cases printed : toml.print (c.merge table) with
      | error e => simp [printed, Except.mapError]
      | ok text => simp [printed, Except.mapError, FileWrite.over, withContext, Disk.put]

/-! ## What a failed save leaves -/

/-- The write has begun when it stops, and what it leaves is not what was there. -/
def Toml.CutShort (toml : Toml Foreign) (c : Config) (attempt : Attempt) (path : String)
    (file : Option Bytes) : Prop :=
  ∃ text after e, toml.textOver c attempt path file = .ok text ∧
    attempt.write = .stops after e ∧ after < (asBytes text).length ∧
      file ≠ some ((asBytes text).take after)

theorem saveFile_error_iff {toml : Toml Foreign} {c : Config} {attempt : Attempt} {path : String}
    {file : Option Bytes} {message : String}
    (failed : (toml.saveFile c attempt path file).1 = .error message) :
    (toml.saveFile c attempt path file).2 = file ↔ ¬ toml.CutShort c attempt path file := by
  cases written : toml.textOver c attempt path file with
  | error e =>
      have kept : (toml.saveFile c attempt path file).2 = file := by rw [Toml.saveFile, written]
      have uncut : ¬ toml.CutShort c attempt path file := by
        rintro ⟨text, after, e', isText, -⟩
        rw [written] at isText
        cases isText
      exact ⟨fun _ => uncut, fun _ => kept⟩
  | ok text =>
      rw [Toml.saveFile, written] at failed ⊢
      cases write : attempt.write with
      | completes => simp [write, FileWrite.over, withContext, Except.mapError] at failed
      | notOpened e =>
          have uncut : ¬ toml.CutShort c attempt path file := by
            rintro ⟨_, _, _, _, stops, -⟩
            rw [write] at stops
            cases stops
          simp [FileWrite.over, uncut]
      | stops after e =>
          by_cases short : after < (asBytes text).length
          · simp only [FileWrite.over, if_pos short]
            constructor
            · rintro same ⟨text', after', e', isText, stops, -, differs⟩
              rw [written] at isText
              rw [write] at stops
              cases isText
              cases stops
              exact differs same.symm
            · intro uncut
              by_contra differs
              exact uncut ⟨text, after, e, written, write, short, fun same => differs same.symm⟩
          · simp [write, FileWrite.over, if_neg short, withContext, Except.mapError] at failed

end Nixnas.Tui.Settings
