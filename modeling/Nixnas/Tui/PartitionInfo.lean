import Nixnas.Rust.Parsing
import Nixnas.Tui.Grow

/-!
# The identity of the last partition

`partition_info` reads what `sgdisk --info` prints of a partition, and the
delete-and-recreate call writes it back.  `sgdiskInfo` is the printed text and
`Edit` the documented meaning of the options of the call; the partition keeps
its identity when what is read is what was printed.
-/

set_option autoImplicit false

namespace Nixnas.Tui.Flash

open Nixnas.Logic Nixnas.Logic.Action
open Nixnas.Rust
open Nixnas.Tui.Sudo

/-! ## What `sgdisk` prints -/

def isGuidChar (c : Char) : Bool := c.isDigit || ('A' ≤ c && c ≤ 'F') || c = '-'

/-- Groups of 8, 4, 4, 4 and 12 digits. -/
def isGuid (s : String) : Bool :=
  (s.toList.splitOn '-').map List.length = [8, 4, 4, 4, 12] && s.toList.all isGuidChar

abbrev Guid := { s : String // isGuid s = true }

/-- An entry of the partition table, in sectors; its name has no line break. -/
structure Partition where
  firstSector : Nat
  lastSector : Nat
  typeGuid : Guid
  uniqueGuid : Guid
  name : String
  fits : firstSector < u64Bound
  oneLine : '\n' ∉ name.toList

def Partition.info (p : Partition) : PartInfo where
  firstSector := p.firstSector
  typeGuid := p.typeGuid
  uniqueGuid := p.uniqueGuid
  name := p.name

/-- What is printed beside the entry: the description of its type, the sizes in
other units and the attribute flags. -/
structure Notes where
  description : String
  first : String
  last : String
  size : String
  flags : String
  oneLine : ∀ note ∈ [description, first, last, size], '\n' ∉ note.toList
  someFlags : flags ≠ ""
  plainFlags : ∀ c ∈ flags.toList, isGuidChar c = true

def infoLine (label value : String) : String := label ++ (" " ++ value)

def infoLines (p : Partition) (notes : Notes) : List String :=
  [infoLine "Partition GUID code:" (p.typeGuid.1 ++ " " ++ ("(" ++ notes.description ++ ")")),
    infoLine "Partition unique GUID:" p.uniqueGuid.1,
    infoLine "First sector:" (toString p.firstSector ++ " " ++ ("(" ++ ("at " ++ notes.first) ++ ")")),
    infoLine "Last sector:" (toString p.lastSector ++ " " ++ ("(" ++ ("at " ++ notes.last) ++ ")")),
    infoLine "Partition size:"
      (toString (p.lastSector + 1 - p.firstSector) ++ " " ++ ("sectors (" ++ notes.size ++ ")")),
    infoLine "Attribute flags:" notes.flags,
    infoLine "Partition name:" ("'" ++ p.name ++ "'")]

def sgdiskInfo (p : Partition) (notes : Notes) : String :=
  String.intercalate "\n" (infoLines p notes) ++ "\n"

/-! ## What `sgdisk` does -/

/-- The options of the call that recreates a partition. -/
inductive Edit where
  | delete (n : Nat)
  | create (n first : Nat)
  | typecode (n : Nat) (guid : String)
  | partitionGuid (n : Nat) (guid : String)
  | changeName (n : Nat) (name : String)

/-- The argument of an option; the last sector 0 is the largest possible. -/
def Edit.render : Edit → String
  | .delete n => "--delete=" ++ toString n
  | .create n first => "--new=" ++ toString n ++ ":" ++ toString first ++ ":0"
  | .typecode n guid => "--typecode=" ++ toString n ++ ":" ++ guid
  | .partitionGuid n guid => "--partition-guid=" ++ toString n ++ ":" ++ guid
  | .changeName n name => "--change-name=" ++ toString n ++ ":" ++ name

abbrev Table := Nat → Option PartInfo

/-- A new partition has a type, a GUID and a name of `sgdisk`'s choice. -/
def Edit.apply (fresh : PartInfo) (table : Table) : Edit → Table
  | .delete n => Function.update table n none
  | .create n first => Function.update table n (some { fresh with firstSector := first })
  | .typecode n guid =>
      Function.update table n ((table n).map fun info => { info with typeGuid := guid })
  | .partitionGuid n guid =>
      Function.update table n ((table n).map fun info => { info with uniqueGuid := guid })
  | .changeName n name =>
      Function.update table n ((table n).map fun info => { info with name := name })

def recreateEdits (n : Nat) (info : PartInfo) : List Edit :=
  [.delete n, .create n info.firstSector, .typecode n info.typeGuid,
    .partitionGuid n info.uniqueGuid, .changeName n info.name]

theorem recreate_eq_render (n : Nat) (info : PartInfo) :
    recreate n info = (recreateEdits n info).map Edit.render := rfl

/-- The call leaves a partition with the identity it was given. -/
theorem recreate_apply (n : Nat) (info fresh : PartInfo) (table : Table) :
    (recreateEdits n info).foldl (Edit.apply fresh) table n = some info := by
  simp [recreateEdits, Edit.apply]

/-! ## What is asked of it -/

/-- The run of `sgdisk --info` from this world prints the text. -/
structure Prints (env : Env) (w : World FlashEvent) (text : String) : Prop where
  spawns : (env.reply w.clock).error = none
  waits : (env.reply (w.clock + 1)).error = none
  success : (env.reply (w.clock + 1)).output.success = true
  stdout : (env.reply (w.clock + 1)).output.stdout = text

/-- `partition_info` returns the identity of the partition, and the call that
recreates a partition from what it returns leaves it with that identity. -/
structure Kept (p : Partition) (notes : Notes) : Prop where
  returned : ∀ env dev n w fuel, Prints env w (sgdiskInfo p notes) → 2 ≤ fuel →
    ∃ after left, partitionInfo env dev n w fuel = .ok p.info after left
  rebuilt : ∀ env dev n w fuel info after left, Prints env w (sgdiskInfo p notes) →
    partitionInfo env dev n w fuel = .ok info after left → ∀ fresh table,
      (recreateEdits n info).foldl (Edit.apply fresh) table n = some p.info

/-! ## Reading the lines back -/

theorem isGuidChar_noSpace {c : Char} (isGuid : isGuidChar c = true) : isWhitespace c = false := by
  simp only [isGuidChar, Char.isDigit, Bool.or_eq_true, Bool.and_eq_true, decide_eq_true_eq,
    Char.le_def, UInt32.le_iff_toNat_le] at isGuid
  rcases isGuid with (⟨low, high⟩ | ⟨low, high⟩) | rfl
  · change 48 ≤ c.toNat at low
    change c.toNat ≤ 57 at high
    simp only [isWhitespace, Bool.or_eq_false_iff, Bool.and_eq_false_iff, decide_eq_false_iff_not]
    omega
  · change 65 ≤ c.toNat at low
    change c.toNat ≤ 70 at high
    simp only [isWhitespace, Bool.or_eq_false_iff, Bool.and_eq_false_iff, decide_eq_false_iff_not]
    omega
  · decide

theorem guid_noSpace (guid : Guid) : ∀ c ∈ guid.1.toList, isWhitespace c = false := by
  have isGuid := guid.2
  rw [Flash.isGuid, Bool.and_eq_true, List.all_eq_true] at isGuid
  exact fun c member => isGuidChar_noSpace (isGuid.2 c member)

theorem guid_some (guid : Guid) : guid.1 ≠ "" := by
  intro empty
  have isGuid := guid.2
  rw [empty] at isGuid
  revert isGuid
  decide

/-- A word: something, and no white space in it. -/
def IsWord (s : String) : Prop := s ≠ "" ∧ ∀ c ∈ s.toList, isWhitespace c = false

theorem isWord_guid (guid : Guid) : IsWord guid.1 := ⟨guid_some guid, guid_noSpace guid⟩

theorem isWord_number (n : Nat) : IsWord (toString n) := ⟨Nat.repr_ne_empty, toString_noSpace n⟩

theorem isWord_flags (notes : Notes) : IsWord notes.flags :=
  ⟨notes.someFlags, fun c member => isGuidChar_noSpace (notes.plainFlags c member)⟩

/-- A text of one line that is not blank at either end. -/
structure Solid (s : String) : Prop where
  head : ∃ c, s.toList.head? = some c ∧ isWhitespace c = false
  last : ∃ c, s.toList.getLast? = some c ∧ isWhitespace c = false
  oneLine : '\n' ∉ s.toList

theorem Solid.trim {s : String} (solid : Solid s) : Rust.trim s = s := by
  obtain ⟨c, isHead, notSpace⟩ := solid.head
  obtain ⟨d, isLast, notSpace'⟩ := solid.last
  apply trim_of_ends
  · intro e isHead'
    cases isHead.symm.trans isHead'
    exact notSpace
  · intro e isLast'
    cases isLast.symm.trans isLast'
    exact notSpace'

theorem Solid.noReturn {s : String} (solid : Solid s) : s.toList.getLast? ≠ some '\r' := by
  obtain ⟨d, isLast, notSpace⟩ := solid.last
  intro isReturn
  cases isLast.symm.trans isReturn
  revert notSpace
  decide

theorem IsWord.solid {s : String} (word : IsWord s) : Solid s := by
  obtain ⟨some, noSpace⟩ := word
  have nonempty : s.toList ≠ [] := fun empty => some (String.toList_eq_nil_iff.mp empty)
  refine ⟨⟨_, List.head?_eq_some_head nonempty, noSpace _ (List.head_mem nonempty)⟩,
    ⟨_, List.getLast?_eq_some_getLast nonempty, noSpace _ (List.getLast_mem nonempty)⟩, ?_⟩
  intro isBreak
  exact absurd (noSpace '\n' isBreak) (by decide)

/-- What stands between two solid texts may be blank. -/
theorem Solid.around {front back : String} (isFront : Solid front) (isBack : Solid back)
    {middle : String} (oneLine : '\n' ∉ middle.toList) : Solid (front ++ middle ++ back) := by
  obtain ⟨c, isHead, notSpace⟩ := isFront.head
  obtain ⟨d, isLast, notSpace'⟩ := isBack.last
  refine ⟨⟨c, ?_, notSpace⟩, ⟨d, ?_, notSpace'⟩, ?_⟩
  · rw [String.toList_append, String.toList_append, List.append_assoc, List.head?_append, isHead]
    rfl
  · rw [String.toList_append, List.getLast?_append, isLast]
    rfl
  · simp only [String.toList_append, List.mem_append, not_or]
    exact ⟨⟨isFront.oneLine, oneLine⟩, isBack.oneLine⟩

theorem solid_infoLine {label value : String} (isLabel : Solid label) (isValue : Solid value) :
    Solid (infoLine label value) := by
  rw [infoLine, ← String.append_assoc]
  exact isLabel.around isValue (by decide)

theorem solid_parens {front note : String} (isFront : Solid front) (oneLine : '\n' ∉ note.toList) :
    Solid (front ++ note ++ ")") :=
  isFront.around ⟨⟨')', by decide, by decide⟩, ⟨')', by decide, by decide⟩, by decide⟩ oneLine

/-- A word with a note behind it. -/
theorem solid_noted {word front note : String} (isWord : IsWord word) (isFront : Solid front)
    (oneLine : '\n' ∉ note.toList) : Solid (word ++ " " ++ (front ++ note ++ ")")) :=
  isWord.solid.around (solid_parens isFront oneLine) (by decide)

theorem solid_quoted (p : Partition) : Solid ("'" ++ p.name ++ "'") := by
  have quote : Solid "'" := ⟨⟨_, rfl, by decide⟩, ⟨_, rfl, by decide⟩, by decide⟩
  exact quote.around quote p.oneLine

/-- The same by computation, for literal texts. -/
def isSolid (s : String) : Bool :=
  s.toList.head?.any (fun c => !isWhitespace c) && s.toList.getLast?.any (fun c => !isWhitespace c) &&
    s.toList.all fun c => c ≠ '\n'

theorem solid_of_isSolid {s : String} (computed : isSolid s = true) : Solid s := by
  simp only [isSolid, Bool.and_eq_true, Option.any_eq_true, Bool.not_eq_true', List.all_eq_true]
    at computed
  obtain ⟨⟨⟨c, isHead, notSpace⟩, d, isLast, notSpace'⟩, oneLine⟩ := computed
  refine ⟨⟨c, isHead, notSpace⟩, ⟨d, isLast, notSpace'⟩, ?_⟩
  intro isBreak
  simpa using oneLine '\n' isBreak

theorem oneLine_append {front back : String} (isFront : '\n' ∉ front.toList)
    (isBack : '\n' ∉ back.toList) : '\n' ∉ (front ++ back).toList := by
  rw [String.toList_append, List.mem_append, not_or]
  exact ⟨isFront, isBack⟩

theorem solid_infoLines (p : Partition) (notes : Notes) : ∀ line ∈ infoLines p notes, Solid line := by
  have notesOneLine := notes.oneLine
  simp only [List.forall_mem_cons] at notesOneLine
  obtain ⟨description, first, last, size, _⟩ := notesOneLine
  have paren : Solid "(" := solid_of_isSolid (by decide)
  have sectors : Solid "sectors (" := solid_of_isSolid (by decide)
  have atOneLine : '\n' ∉ "at ".toList := by decide
  simp only [infoLines, List.forall_mem_cons]
  refine ⟨solid_infoLine (solid_of_isSolid (by decide)) ?_,
    solid_infoLine (solid_of_isSolid (by decide)) (isWord_guid _).solid,
    solid_infoLine (solid_of_isSolid (by decide)) ?_,
    solid_infoLine (solid_of_isSolid (by decide)) ?_,
    solid_infoLine (solid_of_isSolid (by decide)) ?_,
    solid_infoLine (solid_of_isSolid (by decide)) (isWord_flags notes).solid,
    solid_infoLine (solid_of_isSolid (by decide)) (solid_quoted p), by simp⟩
  · exact solid_noted (isWord_guid _) paren description
  · exact solid_noted (isWord_number _) paren (oneLine_append atOneLine first)
  · exact solid_noted (isWord_number _) paren (oneLine_append atOneLine last)
  · exact solid_noted (isWord_number _) sectors size

/-! ## Finding the labels -/

theorem lines_sgdiskInfo (p : Partition) (notes : Notes) :
    lines (sgdiskInfo p notes) = infoLines p notes :=
  lines_of_lines (List.cons_ne_nil _ _) (fun line member => (solid_infoLines p notes line member).oneLine)
    fun line member => (solid_infoLines p notes line member).noReturn

theorem after_sgdiskInfo (p : Partition) (notes : Notes) (label : String) :
    after (sgdiskInfo p notes) label =
      (infoLines p notes).findSome? fun line => (stripPrefix line label).map trim := by
  rw [after, lines_sgdiskInfo]
  apply findSome?_congr
  intro line member
  rw [(solid_infoLines p notes line member).trim]

theorem stripPrefix_infoLine (label value : String) :
    stripPrefix (infoLine label value) label = some (" " ++ value) :=
  stripPrefix_append label (" " ++ value)

theorem stripPrefix_other {label other : String} (differs : differ label.toList other.toList = true)
    (value : String) : stripPrefix (infoLine label value) other = none :=
  stripPrefix_of_differ differs (" " ++ value)

/-- The value of the line with the label. -/
theorem findSome?_infoLine {label value : String} {lines : List String} (solid : Solid value) :
    ((infoLine label value :: lines).findSome? fun line => (stripPrefix line label).map trim) =
      some value := by
  rw [List.findSome?_cons, stripPrefix_infoLine]
  simp only [Option.map_some]
  rw [trim_blank, solid.trim]

theorem findSome?_other {label other value : String} {lines : List String}
    (differs : differ label.toList other.toList = true) :
    ((infoLine label value :: lines).findSome? fun line => (stripPrefix line other).map trim) =
      lines.findSome? fun line => (stripPrefix line other).map trim := by
  rw [List.findSome?_cons, stripPrefix_other differs]
  rfl

theorem after_guidCode (p : Partition) (notes : Notes) :
    after (sgdiskInfo p notes) "Partition GUID code:" =
      some (p.typeGuid.1 ++ " " ++ ("(" ++ notes.description ++ ")")) := by
  rw [after_sgdiskInfo, infoLines, findSome?_infoLine]
  exact solid_noted (isWord_guid _) (solid_of_isSolid (by decide))
    (notes.oneLine _ List.mem_cons_self)

theorem after_uniqueGuid (p : Partition) (notes : Notes) :
    after (sgdiskInfo p notes) "Partition unique GUID:" = some p.uniqueGuid.1 := by
  rw [after_sgdiskInfo, infoLines, findSome?_other (by decide),
    findSome?_infoLine (isWord_guid _).solid]

theorem after_firstSector (p : Partition) (notes : Notes) :
    after (sgdiskInfo p notes) "First sector:" =
      some (toString p.firstSector ++ " " ++ ("(" ++ ("at " ++ notes.first) ++ ")")) := by
  rw [after_sgdiskInfo, infoLines, findSome?_other (by decide),
    findSome?_other (by decide), findSome?_infoLine]
  have first := notes.oneLine _ (List.mem_cons_of_mem _ List.mem_cons_self)
  exact solid_noted (isWord_number _) (solid_of_isSolid (by decide)) (oneLine_append (by decide) first)

theorem after_name (p : Partition) (notes : Notes) :
    after (sgdiskInfo p notes) "Partition name:" = some ("'" ++ p.name ++ "'") := by
  rw [after_sgdiskInfo, infoLines]
  repeat rw [findSome?_other (by decide)]
  rw [findSome?_infoLine (solid_quoted p)]

/-- What is read is what was printed, but for quotes at the ends of the name. -/
theorem parseInfo_sgdiskInfo (p : Partition) (notes : Notes) :
    parseInfo (sgdiskInfo p notes) =
      .ok { p.info with name := trimMatches ("'" ++ p.name ++ "'") '\'' } := by
  have typeGuid := splitWhitespace_head (guid_some p.typeGuid) (guid_noSpace p.typeGuid)
    ("(" ++ notes.description ++ ")")
  have firstSector := splitWhitespace_head (isWord_number p.firstSector).1
    (toString_noSpace p.firstSector) ("(" ++ ("at " ++ notes.first) ++ ")")
  rw [parseInfo, after_guidCode, after_uniqueGuid, after_firstSector, after_name]
  simp only [Option.bind_some, typeGuid, firstSector, parseU64_toString p.fits, Option.map_some,
    Option.getD_some]
  rfl

/-! ## The run -/

theorem partitionInfo_run {env : Env} {w : World FlashEvent} {text : String}
    (prints : Prints env w text) (dev : String) (n fuel : Nat) :
    partitionInfo env dev n w (fuel + 2) =
      match parseInfo text with
      | .ok info => .ok info { w with clock := w.clock + 2 } fuel
      | .error e => .error e { w with clock := w.clock + 2 } fuel := by
  obtain ⟨spawns, waits, success, stdout⟩ := prints
  have captured : context "running sgdisk --info (is gptfdisk installed?)"
      (runCaptured env ["sgdisk", "--info=" ++ toString n, dev] readOnly) w (fuel + 2) =
      .ok (env.reply (w.clock + 1)).output { w with clock := w.clock + 2 } fuel := by
    simp [context, runCaptured, ioContext, waitWithOutput, ask, call, bind, Action.bind, mapError,
      perform, readOnly, spawns, waits]
  change Action.bind _ _ w (fuel + 2) = _
  rw [Action.bind, captured]
  simp only [success, stdout, Bool.not_true, Bool.false_eq_true, if_false]
  cases parseInfo text with
  | ok info => rfl
  | error e => rfl

/-- It does not return before its two operations. -/
theorem partitionInfo_enough {env : Env} {dev : String} {n fuel left : Nat}
    {w after : World FlashEvent} {info : PartInfo} {text : String} (prints : Prints env w text)
    (returned : partitionInfo env dev n w fuel = .ok info after left) : 2 ≤ fuel := by
  match fuel with
  | 0 => cases returned
  | 1 =>
      have captured : context "running sgdisk --info (is gptfdisk installed?)"
          (runCaptured env ["sgdisk", "--info=" ++ toString n, dev] readOnly) w 1 =
          .stopped { w with clock := w.clock + 1 } := by
        simp [context, runCaptured, ioContext, waitWithOutput, ask, call, bind, Action.bind, mapError,
          perform, prints.spawns]
      rw [partitionInfo, bind_stopped captured] at returned
      cases returned
  | rest + 2 => exact Nat.le_add_left 2 rest

/-- A machine on which every command succeeds and prints the text. -/
def printing (text : String) : Env where
  image _ := []
  reply _ :=
    { error := none
      count := 0
      short := 0
      output := ⟨true, text, ""⟩
      blockdev := fun _ => ⟨true, text, ""⟩
      present := true
      deliver := fun _ _ held => held
      settle := fun _ _ held => held
      tool := id }

def emptyWorld : World FlashEvent where
  clock := 0
  devices _ := []
  files _ := none
  synced _ := true
  original := []
  accepted := []
  wrote := false
  delivered := []
  ended := false
  events := []

theorem printing_prints (text : String) : Prints (printing text) emptyWorld text :=
  ⟨rfl, rfl, rfl, rfl⟩

/-! ## When the identity is kept -/

/-- A name that is quoted on neither end. -/
def Partition.Unquoted (p : Partition) : Prop :=
  p.name.toList.head? ≠ some '\'' ∧ p.name.toList.getLast? ≠ some '\''

theorem trimMatches_name (p : Partition) :
    trimMatches ("'" ++ p.name ++ "'") '\'' = p.name ↔ p.Unquoted := by
  have quote : "'" = String.singleton '\'' := by decide
  rw [quote]
  exact trimMatches_quoted '\'' p.name

theorem unquoted_of_kept {p : Partition} {notes : Notes} (kept : Kept p notes) : p.Unquoted := by
  have prints := printing_prints (sgdiskInfo p notes)
  obtain ⟨after, left, returned⟩ := kept.returned _ "" 0 _ 2 prints (Nat.le_refl 2)
  have run := partitionInfo_run prints "" 0 0
  rw [parseInfo_sgdiskInfo, returned] at run
  injection run with same
  rw [← trimMatches_name]
  exact (congrArg PartInfo.name same).symm

theorem kept_of_unquoted {p : Partition} (notes : Notes) (unquoted : p.Unquoted) : Kept p notes := by
  have parsed : parseInfo (sgdiskInfo p notes) = .ok p.info := by
    rw [parseInfo_sgdiskInfo, (trimMatches_name p).mpr unquoted]
    rfl
  have run : ∀ env dev n w fuel, Prints env w (sgdiskInfo p notes) →
      partitionInfo env dev n w (fuel + 2) = .ok p.info { w with clock := w.clock + 2 } fuel := by
    intro env dev n w fuel prints
    rw [partitionInfo_run prints, parsed]
  constructor
  · intro env dev n w fuel prints enough
    obtain ⟨rest, rfl⟩ := Nat.exists_eq_add_of_le' enough
    exact ⟨_, _, run env dev n w rest prints⟩
  · intro env dev n w fuel info after left prints returned fresh table
    obtain ⟨rest, rfl⟩ := Nat.exists_eq_add_of_le' (partitionInfo_enough prints returned)
    rw [run env dev n w rest prints] at returned
    cases returned
    exact recreate_apply n p.info fresh table

/-- The recreated partition has the identity of the old one exactly when its name
neither starts nor ends with a quote. -/
theorem kept_iff_unquoted (p : Partition) (notes : Notes) : Kept p notes ↔ p.Unquoted :=
  ⟨unquoted_of_kept, kept_of_unquoted notes⟩

/-- A partition with the name of some notes and sizes. -/
def namedPartition (name : String) (oneLine : '\n' ∉ name.toList) : Partition where
  firstSector := 2099200
  lastSector := 12580863
  typeGuid := ⟨"CA7D7CCB-63ED-4C53-861C-1742536059CC", by decide⟩
  uniqueGuid := ⟨"0FC63DAF-8483-4772-8E79-3D69D8477DE4", by decide⟩
  name := name
  fits := by decide
  oneLine := oneLine

def demoNotes : Notes where
  description := "Linux LUKS"
  first := "1.0 GiB"
  last := "6.0 GiB"
  size := "5.0 GiB"
  flags := "0000000000000000"
  oneLine := by decide
  someFlags := by decide
  plainFlags := by
    have all : "0000000000000000".toList.all isGuidChar = true := by decide
    exact List.all_eq_true.mp all

/-- A name that ends in a quote. -/
theorem quoted_name_not_kept : ¬ ∀ (p : Partition) (notes : Notes), Kept p notes := by
  intro every
  have kept := every (namedPartition "Joe's'" (by decide)) demoNotes
  exact (unquoted_of_kept kept).2 (by decide)

end Nixnas.Tui.Flash
