/-!
# Strings and paths of the standard library

`str::trim` and `split_whitespace` with the Unicode `White_Space` property,
`lines`, `as_bytes`, `parse` for the unsigned integers, and `Path::join` on
paths written as strings.
-/

set_option autoImplicit false

namespace Nixnas.Rust

abbrev Bytes := List UInt8

/-- `char::is_whitespace`. -/
def isWhitespace (c : Char) : Bool :=
  let n := c.toNat
  (0x09 ≤ n && n ≤ 0x0D) || n = 0x20 || n = 0x85 || n = 0xA0 || n = 0x1680 ||
    (0x2000 ≤ n && n ≤ 0x200A) || n = 0x2028 || n = 0x2029 || n = 0x202F || n = 0x205F || n = 0x3000

/-- `str::trim`. -/
def trim (s : String) : String :=
  String.ofList ((s.toList.dropWhile isWhitespace).reverse.dropWhile isWhitespace).reverse

/-- `str::starts_with`. -/
def startsWith (s pattern : String) : Bool := pattern.toList.isPrefixOf s.toList

/-- `str::as_bytes`. -/
def asBytes (s : String) : Bytes := s.toList.flatMap String.utf8EncodeChar

/-- `Path::join`: an absolute path replaces the base. -/
def join (base path : String) : String :=
  if startsWith path "/" || base = "" then path
  else if base.toList.getLast? = some '/' then base ++ path
  else base ++ "/" ++ path

/-- `String::pop`, without the character it returns. -/
def pop (s : String) : String := String.ofList s.toList.dropLast

/-- `str::strip_prefix`. -/
def stripPrefix (s pattern : String) : Option String :=
  if startsWith s pattern then some (String.ofList (s.toList.drop pattern.toList.length)) else none

/-- `str::trim_matches` with a character. -/
def trimMatches (s : String) (c : Char) : String :=
  String.ofList ((s.toList.dropWhile (· = c)).reverse.dropWhile (· = c)).reverse

/-- `str::split_whitespace`. -/
def splitWhitespace (s : String) : List String :=
  ((s.toList.splitOnP isWhitespace).filter fun word => !word.isEmpty).map String.ofList

/-- `{:<width}` and `{:>width}`. -/
def padEnd (width : Nat) (s : String) : String :=
  s ++ String.ofList (List.replicate (width - s.toList.length) ' ')

def padStart (width : Nat) (s : String) : String :=
  String.ofList (List.replicate (width - s.toList.length) ' ') ++ s

/-- `str::to_ascii_lowercase`. -/
def toAsciiLowercase (s : String) : String := String.ofList (s.toList.map Char.toLower)

/-- `str::ends_with`. -/
def endsWith (s pattern : String) : Bool := pattern.toList.isSuffixOf s.toList

/-- `{:02x}` of each byte. -/
def hex (bytes : Bytes) : String :=
  String.ofList (bytes.flatMap fun b => [Nat.digitChar (b.toNat / 16), Nat.digitChar (b.toNat % 16)])

theorem digitChar_inj : ∀ m < 16, ∀ n < 16, Nat.digitChar m = Nat.digitChar n → m = n := by
  decide

/-- The digits determine the bytes. -/
theorem hex_inj {xs ys : Bytes} (same : hex xs = hex ys) : xs = ys := by
  have digits := String.ofList_injective same
  clear same
  induction xs generalizing ys with
  | nil =>
      cases ys with
      | nil => rfl
      | cons y ys => simp at digits
  | cons x xs ih =>
      cases ys with
      | nil => simp at digits
      | cons y ys =>
          simp only [List.flatMap_cons, List.cons_append, List.nil_append, List.cons.injEq] at digits
          obtain ⟨high, low, rest⟩ := digits
          have boundX := x.toNat_lt
          have boundY := y.toNat_lt
          have sameHigh := digitChar_inj _ (by omega) _ (by omega) high
          have sameLow := digitChar_inj _ (by omega) _ (by omega) low
          have same : x = y := UInt8.toNat_inj.mp (by omega)
          rw [same, ih rest]

/-- A line without the carriage return it may end in. -/
def stripReturn (line : List Char) : List Char :=
  if line.getLast? = some '\r' then line.dropLast else line

/-- `str::lines`: a last line break ends a line and starts none. -/
def lines (s : String) : List String :=
  let pieces := s.toList.splitOn '\n'
  let pieces := if pieces.getLast? = some [] then pieces.dropLast else pieces
  pieces.map fun line => String.ofList (stripReturn line)

def parseDigits (bound n : Nat) : List Char → Except String Nat
  | [] => .ok n
  | c :: rest =>
      if !c.isDigit then .error "invalid digit found in string"
      else
        let next := 10 * n + (c.toNat - '0'.toNat)
        if next < bound then parseDigits bound next rest
        else .error "number too large to fit in target type"

/-- `str::parse` for the unsigned type of the numbers below `bound`. -/
def parseUnsigned (bound : Nat) (s : String) : Except String Nat :=
  match s.toList with
  | [] => .error "cannot parse integer from empty string"
  | '+' :: [] => .error "invalid digit found in string"
  | '+' :: digits => parseDigits bound 0 digits
  | digits => parseDigits bound 0 digits

/-- `u32::MAX + 1` and `u64::MAX + 1`. -/
def u32Bound : Nat := 4294967296

def u64Bound : Nat := 18446744073709551616

def parseU64 (s : String) : Option Nat := (parseUnsigned u64Bound s).toOption

/-- `Path::extension`: what follows the last dot of a name that has something
before it. -/
def extension (name : String) : Option String :=
  let reversed := name.toList.reverse
  let tail := reversed.takeWhile (· ≠ '.')
  if tail.length + 1 < reversed.length then some (String.ofList tail.reverse) else none

end Nixnas.Rust
