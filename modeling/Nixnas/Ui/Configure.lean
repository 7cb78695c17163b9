import Mathlib.Data.Fin.VecNotation
import Nixnas.Logic.Machine
import Nixnas.Rust.Parsing
import Nixnas.Tui.SettingsFile
import Nixnas.Ui.App

/-!
# The Configure screen

`src/tui/src/ui/configure.rs`: the settings as a form of five edit buffers that
are written in four places, its file browser, and the key that saves.

The buffers become settings only at the end, trimmed and with empty ones
replaced, so settings whose strings are trimmed come back from the form
unchanged.  While the form is not marked dirty its buffers stand for the
settings in memory.  A save that fails changes neither these nor the mark; it
changes the file when the write had begun.
-/

set_option autoImplicit false

namespace Nixnas.Ui.Configure

open Nixnas.Logic Nixnas.Rust
open Nixnas.Tui.Settings

/-! ## Paths -/

/-- The pieces of a path from its end, without what `Path` passes over there: an
empty piece, or a dot that is not the first. -/
def trimBack : List String → List String
  | [] => []
  | [first] => [first]
  | piece :: rest => if piece = "" ∨ piece = "." then trimBack rest else piece :: rest

def fromBack (pieces : List String) : String :=
  if pieces = [""] then "/" else String.intercalate "/" pieces.reverse

/-- `Path::parent`. -/
def parent (path : String) : Option String :=
  match trimBack ((path.toList.splitOn '/').map String.ofList).reverse with
  | [] => none
  | [first] => if first = "" then none else some ""
  | _ :: rest => some (fromBack (trimBack rest))

def isAbsolute (path : String) : Bool := startsWith path "/"

/-- `config_dir`. -/
def configDir (configPath : String) : String :=
  match parent configPath with
  | some p => if p ≠ "" then p else "."
  | none => "."

/-- What the file system says about paths.  `readDir` has the readable entries of a
directory, each with whether it leads to a directory. -/
structure Files where
  isDir : String → Bool
  isFile : String → Bool
  readDir : String → Option (List (String × Bool))
  canonicalize : String → Option String
  /-- `str::to_lowercase`, which is Unicode's. -/
  toLowercase : String → String

/-! ## The form -/

inductive FieldKind where
  | dirPath
  | filePath
  | text
  | number
  deriving DecidableEq, Repr

structure FieldMeta where
  label : String
  kind : FieldKind
  /-- May be cleared to empty. -/
  optional : Bool
  deriving DecidableEq, Repr

/-- `FIELDS`. -/
def fields : Fin 5 → FieldMeta :=
  ![⟨"flake_dir", .dirPath, false⟩, ⟨"sb_keys_sops", .filePath, true⟩,
    ⟨"image_attr", .text, false⟩, ⟨"host_attr", .text, true⟩,
    ⟨"build_memory_mib", .number, true⟩]

/-- The file browser; `field` is the form field that receives the picked path. -/
structure Browser where
  field : Fin 5
  pickDir : Bool
  cwd : String
  entries : List (String × Bool)
  selected : Nat
  showHidden : Bool
  filter : String

structure ConfigureState where
  values : Fin 5 → String
  selected : Fin 5
  /-- The buffer of the inline edit. -/
  edit : Option String
  browser : Option Browser
  /-- A message, and whether it is an error. -/
  notice : Option (String × Bool)
  dirty : Bool
  yazi : Bool

/-- `ConfigureState::from_config`; `yazi` is whether it is on the path. -/
def ConfigureState.fromConfig (cfg : Config) (yazi : Bool) : ConfigureState where
  values :=
    ![cfg.flakeDir, cfg.sbKeysSops.getD "", cfg.imageAttr, cfg.hostAttr.getD "",
      (cfg.buildMemoryMib.map fun m => toString m.toNat).getD ""]
  selected := 0
  edit := none
  browser := none
  notice := none
  dirty := false
  yazi := yazi

/-- The trimmed text, or what an empty one stands for. -/
def orDefault (fallback s : String) : String := if trim s = "" then fallback else trim s

def orNone (s : String) : Option String := if trim s = "" then none else some (trim s)

def parseMemory (s : String) : Except String (Option UInt32) :=
  if trim s = "" then .ok none
  else
    match parseUnsigned u32Bound (trim s) with
    | .ok m => .ok (some (UInt32.ofNat m))
    | .error _ => .error ("build_memory_mib: `" ++ trim s ++ "` is not a whole number of MiB")

/-- `ConfigureState::to_config`. -/
def ConfigureState.toConfig (st : ConfigureState) : Except String Config := do
  let memory ← parseMemory (st.values 4)
  pure
    { flakeDir := orDefault "." (st.values 0)
      sbKeysSops := orNone (st.values 1)
      buildMemoryMib := memory
      imageAttr := orDefault "imageScript" (st.values 2)
      hostAttr := orNone (st.values 3) }

/-- A value that a pick, an edit or a clear puts into its field. -/
def ConfigureState.put (st : ConfigureState) (field : Fin 5) (value : String) : ConfigureState :=
  { st with values := Function.update st.values field value, dirty := true }

/-! ## The browser -/

variable (files : Files)

/-- Directories first, then by name without regard to case. -/
def entryLe (a b : String × Bool) : Bool :=
  if a.2 = b.2 then files.toLowercase a.1 ≤ files.toLowercase b.1 else a.2

def Browser.reread (b : Browser) : Browser :=
  let read := ((files.readDir b.cwd).getD []).filter fun entry =>
    b.showHidden || !startsWith entry.1 "."
  { b with entries := read.mergeSort (entryLe files), selected := 0 }

/-- `Browser::new`. -/
def Browser.new (field : Fin 5) (pickDir : Bool) (start : String) : Browser :=
  Browser.reread files
    { field := field, pickDir := pickDir, cwd := start, entries := [], selected := 0,
      showHidden := false, filter := "" }

/-- `str::contains`. -/
def contains (s needle : String) : Bool := s.toList.tails.any needle.toList.isPrefixOf

/-- The indices of the entries that the filter lets through. -/
def Browser.visible (b : Browser) : List Nat :=
  let needle := files.toLowercase b.filter
  (b.entries.zipIdx.filter fun entry =>
    needle = "" || contains (files.toLowercase entry.1.1) needle).map (·.2)

def Browser.rowCount (b : Browser) : Nat := (b.visible files).length + b.pickDir.toNat

def Browser.descend (b : Browser) (name : String) : Browser :=
  Browser.reread files { b with cwd := join b.cwd name, filter := "" }

def Browser.ascend (b : Browser) : Browser :=
  match parent b.cwd with
  | some p => Browser.reread files { b with cwd := p, filter := "" }
  | none => b

def browserStart (value configPath : String) : String :=
  let base := configDir configPath
  let candidate :=
    if trim value = "" then base
    else if isAbsolute (trim value) then trim value
    else join base (trim value)
  let dir :=
    if files.isDir candidate then candidate
    else if files.isFile candidate then (parent candidate).getD base
    else base
  (files.canonicalize dir).getD dir

/-- What Enter does on the selected row. -/
inductive Choice where
  | nothing
  | descended (b : Browser)
  | picked (path : String)

def Browser.enter (b : Browser) : Choice :=
  if b.pickDir ∧ b.selected = 0 then .picked b.cwd
  else
    match ((b.visible files)[b.selected - b.pickDir.toNat]?).bind fun i => b.entries[i]? with
    | none => .nothing
    | some (name, isDir) =>
        if isDir then .descended (b.descend files name)
        else if b.pickDir then .nothing
        else .picked (join b.cwd name)

/-- `char::is_control`. -/
def isControl (c : Char) : Bool := c.toNat ≤ 0x1F || (0x7F ≤ c.toNat && c.toNat ≤ 0x9F)

def browserKey (st : ConfigureState) (b : Browser) : KeyCode → ConfigureState
  | .esc => { st with browser := none }
  | .up => { st with browser := some { b with selected := b.selected - 1 } }
  | .down =>
      { st with browser := some { b with selected := min (b.selected + 1) (b.rowCount files - 1) } }
  | .backspace =>
      if b.filter = "" then { st with browser := some (b.ascend files) }
      else { st with browser := some { b with filter := pop b.filter, selected := 0 } }
  | .enter =>
      match b.enter files with
      | .nothing => st
      | .descended b => { st with browser := some b }
      | .picked path => { st.put b.field path with browser := none }
  -- The dot is the toggle and cannot be typed into the filter.
  | .char '.' =>
      { st with browser := some (Browser.reread files { b with showHidden := !b.showHidden }) }
  | .char c =>
      if isControl c then st
      else
        { st with browser := some { b with
            filter := b.filter.push c, selected := if b.pickDir then 1 else 0 } }
  | _ => st

/-! ## The keys -/

/-- `YaziRequest`. -/
structure YaziRequest where
  field : Fin 5
  start : String
  deriving DecidableEq, Repr

/-- The application as far as this screen reads and writes it, and the bytes of the
settings file. -/
structure ConfigureApp where
  cfg : Config
  screen : Screen
  configure : Option ConfigureState
  yaziPick : Option YaziRequest
  file : Option Bytes

def ConfigureApp.show (app : ConfigureApp) (st : ConfigureState) : ConfigureApp :=
  { app with configure := some st }

def editKey (st : ConfigureState) (buf : String) : KeyCode → ConfigureState
  | .esc => { st with edit := none }
  | .enter => { st.put st.selected (trim buf) with edit := none }
  | .backspace => { st with edit := some (pop buf) }
  | .char c => { st with edit := some (buf.push c) }
  | _ => st

def ConfigureState.startEdit (st : ConfigureState) : ConfigureState :=
  { st with edit := some (st.values st.selected) }

def ConfigureState.openBrowser (configPath : String) (st : ConfigureState) : ConfigureState :=
  { st with browser := some (Browser.new files st.selected
      ((fields st.selected).kind = .dirPath) (browserStart files (st.values st.selected) configPath)) }

def isPath (kind : FieldKind) : Bool := kind = .dirPath || kind = .filePath

variable {Foreign : Type} (toml : Toml Foreign) (configPath : String)

/-- The key that saves. -/
def saveKey (attempt : Attempt) (app : ConfigureApp) (st : ConfigureState) : ConfigureApp :=
  match st.toConfig with
  | .error message => app.show { st with notice := some (message, true) }
  | .ok cfg =>
      match toml.saveFile cfg attempt configPath app.file with
      | (.ok (), file) =>
          { app with
            cfg := cfg
            file := file
            configure :=
              some { st with notice := some ("Saved " ++ configPath, false), dirty := false } }
      | (.error e, file) =>
          { app with file := file, configure := some { st with notice := some (e, true) } }

def formKey (attempt : Attempt) (app : ConfigureApp) (st : ConfigureState) :
    KeyCode → ConfigureApp
  | .esc => { app with configure := none, screen := .home }
  | .up | .char 'k' =>
      app.show { st with selected := if st.selected = 0 then 4 else st.selected - 1 }
  | .down | .char 'j' => app.show { st with selected := st.selected + 1 }
  | .enter =>
      if isPath (fields st.selected).kind then
        if st.yazi then
          let start := browserStart files (st.values st.selected) configPath
          { app with yaziPick := some ⟨st.selected, start⟩ }
        else app.show (st.openBrowser files configPath)
      else app.show st.startEdit
  | .char 'b' =>
      if isPath (fields st.selected).kind then app.show (st.openBrowser files configPath) else app
  | .char 'e' => app.show st.startEdit
  | .char 'd' | .delete =>
      if (fields st.selected).optional then app.show (st.put st.selected "") else app
  | .char 's' => saveKey toml configPath attempt app st
  | _ => app

/-- `on_key`: the browser has the keyboard first, then the inline edit. -/
def onKey (attempt : Attempt) (app : ConfigureApp) (key : KeyCode) : ConfigureApp :=
  match app.configure with
  | none => app
  | some st =>
      match st.browser, st.edit with
      | some b, _ => app.show (browserKey files st b key)
      | none, some buf => app.show (editKey st buf key)
      | none, none => formKey files toml configPath attempt app st key

/-- `apply_picked`: a directory field takes the parent of a file. -/
def applyPicked (app : ConfigureApp) (field : Nat) (path : String) : ConfigureApp :=
  match app.configure with
  | none => app
  | some st =>
      if inForm : field < 5 then
        let picked :=
          if (fields ⟨field, inForm⟩).kind = .dirPath ∧ files.isFile path then
            (parent path).getD path
          else path
        app.show (st.put ⟨field, inForm⟩ picked)
      else app

/-- `draw_browser`: every frame puts the cursor back among the rows. -/
def drawBrowser (app : ConfigureApp) : ConfigureApp :=
  match app.configure with
  | none => app
  | some st =>
      match st.browser with
      | none => app
      | some b =>
          app.show
            { st with browser := some { b with selected := min b.selected (b.rowCount files - 1) } }

/-! ## Normal settings -/

/-- What a buffer is trimmed to and kept as. -/
def Trimmed (s : String) : Prop := s ≠ "" ∧ trim s = s

structure Normal (c : Config) : Prop where
  flakeDir : Trimmed c.flakeDir
  sbKeysSops : ∀ s ∈ c.sbKeysSops, Trimmed s
  imageAttr : Trimmed c.imageAttr
  hostAttr : ∀ s ∈ c.hostAttr, Trimmed s

theorem orDefault_trimmed {fallback : String} (standard : Trimmed fallback) (s : String) :
    Trimmed (orDefault fallback s) := by
  rw [orDefault]
  split
  · exact standard
  · rename_i some
    exact ⟨some, trim_trim s⟩

theorem orNone_trimmed {s value : String} (present : value ∈ orNone s) : Trimmed value := by
  rw [orNone] at present
  split at present
  · cases present
  · rename_i some
    cases present
    exact ⟨some, trim_trim s⟩

theorem orDefault_of_trimmed {s : String} (trimmed : Trimmed s) (fallback : String) :
    orDefault fallback s = s := by
  rw [orDefault, trimmed.2, if_neg trimmed.1]

theorem trim_empty : trim "" = "" := rfl

theorem orNone_getD {value : Option String} (trimmed : ∀ s ∈ value, Trimmed s) :
    orNone (value.getD "") = value := by
  cases value with
  | none => rw [Option.getD_none, orNone, if_pos trim_empty]
  | some s =>
      have isTrimmed := trimmed s rfl
      rw [Option.getD_some, orNone, isTrimmed.2, if_neg isTrimmed.1]

theorem trim_toString (n : Nat) : trim (toString n) = toString n := by
  apply trim_of_ends
  · intro c isHead
    exact toString_noSpace n c (List.mem_of_mem_head? isHead)
  · intro c isLast
    exact toString_noSpace n c (List.mem_of_mem_getLast? isLast)

theorem toString_ne_empty (n : Nat) : toString n ≠ "" := by
  intro empty
  have digits : (toString n).toList = Nat.toDigits 10 n := Nat.toList_repr
  rw [empty] at digits
  exact Nat.toDigits_ne_nil digits.symm

/-- A number of MiB is read back from its digits. -/
theorem parseMemory_getD (memory : Option UInt32) :
    parseMemory ((memory.map fun m => toString m.toNat).getD "") = .ok memory := by
  cases memory with
  | none => rw [Option.map_none, Option.getD_none, parseMemory, if_pos trim_empty]
  | some m =>
      have small : m.toNat < u32Bound := m.toNat_lt
      rw [Option.map_some, Option.getD_some, parseMemory, trim_toString,
        if_neg (toString_ne_empty _), parseUnsigned_toString small]
      simp

/-- The form makes normal settings or none. -/
theorem toConfig_normal {st : ConfigureState} {c : Config} (valid : st.toConfig = .ok c) :
    Normal c := by
  cases memory : parseMemory (st.values 4) with
  | error e =>
      simp [ConfigureState.toConfig, memory, bind, Except.bind] at valid
  | ok m =>
      simp only [ConfigureState.toConfig, memory, bind, Except.bind, pure, Except.pure,
        Except.ok.injEq] at valid
      subst valid
      have here : Trimmed "." := ⟨by decide, rfl⟩
      have script : Trimmed "imageScript" := ⟨by decide, rfl⟩
      constructor
      · dsimp only
        exact orDefault_trimmed here (st.values 0)
      · intro s present
        dsimp only at present
        exact orNone_trimmed present
      · dsimp only
        exact orDefault_trimmed script (st.values 2)
      · intro s present
        dsimp only at present
        exact orNone_trimmed present

/-- Normal settings come back from a fresh form. -/
theorem toConfig_fromConfig {c : Config} (normal : Normal c) (yazi : Bool) :
    (ConfigureState.fromConfig c yazi).toConfig = .ok c := by
  change (do
    let memory ← parseMemory ((c.buildMemoryMib.map fun m => toString m.toNat).getD "")
    pure
      { flakeDir := orDefault "." c.flakeDir
        sbKeysSops := orNone (c.sbKeysSops.getD "")
        buildMemoryMib := memory
        imageAttr := orDefault "imageScript" c.imageAttr
        hostAttr := orNone (c.hostAttr.getD "") } : Except String Config) = .ok c
  rw [parseMemory_getD, orDefault_of_trimmed normal.flakeDir, orDefault_of_trimmed normal.imageAttr,
    orNone_getD normal.sbKeysSops, orNone_getD normal.hostAttr]
  rfl

/-- The settings of a missing file are normal. -/
theorem standard_normal : Normal Config.standard where
  flakeDir := ⟨by decide, rfl⟩
  sbKeysSops s present := by cases present
  imageAttr := ⟨by decide, rfl⟩
  hostAttr s present := by cases present

theorem toConfig_congr {st st' : ConfigureState} (same : st'.values = st.values) :
    st'.toConfig = st.toConfig := by
  rw [ConfigureState.toConfig, ConfigureState.toConfig, same]

/-! ## What an event does to the form -/

/-- The values and the mark are as they were, or the mark is set. -/
def Marks (st st' : ConfigureState) : Prop :=
  (st'.values = st.values ∧ st'.dirty = st.dirty) ∨ st'.dirty = true

/-- What an event leads to: a closed form, a form whose changes are marked, or a
save that put the form's settings in memory. -/
inductive Leads (app : ConfigureApp) : ConfigureApp → Prop where
  | closed {after : ConfigureApp} : after.cfg = app.cfg → after.configure = none → Leads app after
  | edited {after : ConfigureApp} {st st' : ConfigureState} : after.cfg = app.cfg →
      app.configure = some st → after.configure = some st' → Marks st st' → Leads app after
  | saved {after : ConfigureApp} {st st' : ConfigureState} : st.toConfig = .ok after.cfg →
      app.configure = some st → after.configure = some st' → st'.values = st.values →
      Leads app after

theorem marks_put (st : ConfigureState) (field : Fin 5) (value : String) :
    Marks st (st.put field value) := Or.inr rfl

theorem marks_browserKey (st : ConfigureState) (b : Browser) (key : KeyCode) :
    Marks st (browserKey files st b key) := by
  cases key with
  | enter =>
      rw [browserKey]
      cases b.enter files with
      | nothing => exact .inl ⟨rfl, rfl⟩
      | descended b => exact .inl ⟨rfl, rfl⟩
      | picked path => exact .inr rfl
  | backspace =>
      rw [browserKey]
      split <;> exact .inl ⟨rfl, rfl⟩
  | char c =>
      by_cases dot : c = '.'
      · subst dot
        exact .inl ⟨rfl, rfl⟩
      · rw [browserKey]
        · split <;> exact .inl ⟨rfl, rfl⟩
        · exact dot
  | esc | up | down | delete | pageUp | pageDown | «end» | other => exact .inl ⟨rfl, rfl⟩

theorem marks_editKey (st : ConfigureState) (buf : String) (key : KeyCode) :
    Marks st (editKey st buf key) := by
  cases key with
  | enter => exact .inr rfl
  | esc | backspace | char | up | down | delete | pageUp | pageDown | «end» | other =>
      exact .inl ⟨rfl, rfl⟩

variable {files toml configPath}

theorem leads_show {app : ConfigureApp} {st st' : ConfigureState}
    (shown : app.configure = some st) (marks : Marks st st') : Leads app (app.show st') :=
  .edited rfl shown rfl marks

theorem leads_same {app : ConfigureApp} {st : ConfigureState} (shown : app.configure = some st) :
    Leads app app := .edited rfl shown shown (.inl ⟨rfl, rfl⟩)

theorem saveKey_invalid {attempt : Attempt} {app : ConfigureApp} {st : ConfigureState}
    {message : String} (invalid : st.toConfig = .error message) :
    saveKey toml configPath attempt app st =
      app.show { st with notice := some (message, true) } := by
  simp only [saveKey, invalid]

theorem saveKey_saved {attempt : Attempt} {app : ConfigureApp} {st : ConfigureState} {c : Config}
    {file : Option Bytes} (valid : st.toConfig = .ok c)
    (saved : toml.saveFile c attempt configPath app.file = (.ok (), file)) :
    saveKey toml configPath attempt app st =
      { app with
        cfg := c
        file := file
        configure := some { st with notice := some ("Saved " ++ configPath, false), dirty := false } } := by
  simp only [saveKey, valid, saved]

theorem saveKey_failed {attempt : Attempt} {app : ConfigureApp} {st : ConfigureState} {c : Config}
    {file : Option Bytes} {e : String} (valid : st.toConfig = .ok c)
    (failed : toml.saveFile c attempt configPath app.file = (.error e, file)) :
    saveKey toml configPath attempt app st =
      { app with file := file, configure := some { st with notice := some (e, true) } } := by
  simp only [saveKey, valid, failed]

/-- A save ends in settings that are the form's, or in an error that leaves the
settings and the form as they were. -/
theorem saveKey_leads {attempt : Attempt} {app : ConfigureApp} {st : ConfigureState}
    (shown : app.configure = some st) : Leads app (saveKey toml configPath attempt app st) := by
  cases valid : st.toConfig with
  | error message =>
      rw [saveKey_invalid valid]
      exact leads_show shown (.inl ⟨rfl, rfl⟩)
  | ok c =>
      cases saved : toml.saveFile c attempt configPath app.file with
      | mk result file =>
          cases result with
          | ok =>
              rw [saveKey_saved valid saved]
              exact .saved valid shown rfl rfl
          | error e =>
              rw [saveKey_failed valid saved]
              exact .edited rfl shown rfl (.inl ⟨rfl, rfl⟩)

theorem formKey_leads {attempt : Attempt} {app : ConfigureApp} {st : ConfigureState}
    (shown : app.configure = some st) (key : KeyCode) :
    Leads app (formKey files toml configPath attempt app st key) := by
  unfold formKey
  split
  · exact .closed rfl rfl
  · exact leads_show shown (.inl ⟨rfl, rfl⟩)
  · exact leads_show shown (.inl ⟨rfl, rfl⟩)
  · exact leads_show shown (.inl ⟨rfl, rfl⟩)
  · exact leads_show shown (.inl ⟨rfl, rfl⟩)
  · split
    · split
      · exact .edited rfl shown shown (.inl ⟨rfl, rfl⟩)
      · exact leads_show shown (.inl ⟨rfl, rfl⟩)
    · exact leads_show shown (.inl ⟨rfl, rfl⟩)
  · split
    · exact leads_show shown (.inl ⟨rfl, rfl⟩)
    · exact leads_same shown
  · exact leads_show shown (.inl ⟨rfl, rfl⟩)
  · split
    · exact leads_show shown (marks_put st st.selected "")
    · exact leads_same shown
  · split
    · exact leads_show shown (marks_put st st.selected "")
    · exact leads_same shown
  · exact saveKey_leads shown
  · exact leads_same shown

theorem onKey_leads (attempt : Attempt) (app : ConfigureApp) (key : KeyCode) :
    Leads app (onKey files toml configPath attempt app key) := by
  rw [onKey]
  cases shown : app.configure with
  | none => exact .closed rfl shown
  | some st =>
      cases browser : st.browser with
      | some b =>
          simp only [browser]
          exact leads_show shown (marks_browserKey files st b key)
      | none =>
          cases edit : st.edit with
          | some buf =>
              simp only [browser, edit]
              exact leads_show shown (marks_editKey st buf key)
          | none =>
              simp only [browser, edit]
              exact formKey_leads shown key

theorem applyPicked_leads (app : ConfigureApp) (field : Nat) (path : String) :
    Leads app (applyPicked files app field path) := by
  rw [applyPicked]
  cases shown : app.configure with
  | none => exact .closed rfl shown
  | some st =>
      by_cases inForm : field < 5
      · simp only [inForm, dif_pos]
        exact leads_show shown (marks_put st _ _)
      · simp only [inForm, dif_neg, not_false_eq_true]
        exact leads_same shown

theorem drawBrowser_leads (app : ConfigureApp) : Leads app (drawBrowser files app) := by
  rw [drawBrowser]
  cases shown : app.configure with
  | none => exact .closed rfl shown
  | some st =>
      cases browser : st.browser with
      | none =>
          simp only [browser]
          exact leads_same shown
      | some b =>
          simp only [browser]
          exact leads_show shown (.inl ⟨rfl, rfl⟩)

/-! ## The mark is truthful -/

inductive Event where
  /-- Enter on the menu of HOME. -/
  | opened (yazi : Bool)
  | key (files : Files) (attempt : Attempt) (key : KeyCode)
  | picked (files : Files) (field : Nat) (path : String)
  /-- A frame of the screen is drawn. -/
  | drawn (files : Files)

variable (toml configPath)

def step (app : ConfigureApp) : Event → ConfigureApp
  | .opened yazi =>
      { app with configure := some (.fromConfig app.cfg yazi), screen := .configure }
  | .key files attempt key => onKey files toml configPath attempt app key
  | .picked files field path => applyPicked files app field path
  | .drawn files => drawBrowser files app

def machine : Machine ConfigureApp Event where
  initial app := Normal app.cfg ∧ app.configure = none
  step app event next := next = step toml configPath app event

/-- A form that is not marked stands for the settings in memory. -/
def Truthful (app : ConfigureApp) : Prop :=
  ∀ st, app.configure = some st → st.dirty = false → st.toConfig = .ok app.cfg

variable {toml configPath}

theorem Leads.normal {app after : ConfigureApp} (leads : Leads app after)
    (normal : Normal app.cfg) : Normal after.cfg := by
  cases leads with
  | closed cfg => rwa [cfg]
  | edited cfg => rwa [cfg]
  | saved valid => exact toConfig_normal valid

theorem Leads.truthful {app after : ConfigureApp} (leads : Leads app after)
    (truthful : Truthful app) : Truthful after := by
  intro st' shown' unmarked
  cases leads with
  | closed cfg gone =>
      rw [gone] at shown'
      cases shown'
  | @edited st _ cfg shown after marks =>
      rw [after] at shown'
      cases shown'
      rcases marks with ⟨values, dirty⟩ | dirty
      · rw [toConfig_congr values, cfg]
        exact truthful st shown (dirty ▸ unmarked)
      · rw [dirty] at unmarked
        cases unmarked
  | saved valid shown after values =>
      rw [after] at shown'
      cases shown'
      rw [toConfig_congr values, valid]

/-- An event on an unmarked form leaves the settings in memory as they are. -/
theorem Leads.cfg {app after : ConfigureApp} (leads : Leads app after) (truthful : Truthful app)
    (unmarked : ∀ st, app.configure = some st → st.dirty = false) : after.cfg = app.cfg := by
  cases leads with
  | closed cfg => exact cfg
  | edited cfg => exact cfg
  | @saved st _ valid shown =>
      rw [truthful st shown (unmarked st shown)] at valid
      exact (Except.ok.inj valid).symm

theorem step_key_or_opened (app : ConfigureApp) (event : Event) :
    Leads app (step toml configPath app event) ∨
      ∃ yazi, step toml configPath app event =
        { app with configure := some (.fromConfig app.cfg yazi), screen := .configure } := by
  cases event with
  | opened yazi => exact .inr ⟨yazi, rfl⟩
  | key files attempt key => exact .inl (onKey_leads attempt app key)
  | picked files field path => exact .inl (applyPicked_leads app field path)
  | drawn files => exact .inl (drawBrowser_leads app)

theorem reachable_truthful {app : ConfigureApp} (reached : (machine toml configPath).Reachable app) :
    Normal app.cfg ∧ Truthful app := by
  have every : ∀ app, (machine toml configPath).Reachable app → Normal app.cfg ∧ Truthful app := by
    apply Machine.invariant
    · intro app first
      refine ⟨first.1, fun st shown => ?_⟩
      rw [first.2] at shown
      cases shown
    · intro app event next _ held taken
      obtain ⟨normal, truthful⟩ := held
      subst taken
      rcases step_key_or_opened app event with leads | ⟨yazi, opened⟩
      · exact ⟨leads.normal normal, leads.truthful truthful⟩
      · rw [opened]
        refine ⟨normal, fun st shown _ => ?_⟩
        cases shown
        exact toConfig_fromConfig normal yazi
  exact every app reached

/-- The form makes normal settings or none, gives normal settings back unchanged,
and, whatever is pressed or picked, stands for the settings in memory while it is
not marked; a form that is not marked never changes them. -/
theorem form_truthful (toml : Toml Foreign) (configPath : String) :
    (∀ (st : ConfigureState) (c : Config), st.toConfig = .ok c → Normal c) ∧
      (∀ (c : Config) (yazi : Bool), Normal c →
        (ConfigureState.fromConfig c yazi).toConfig = .ok c) ∧
      ∀ app, (machine toml configPath).Reachable app →
        (∀ st, app.configure = some st → st.dirty = false → st.toConfig = .ok app.cfg) ∧
          ((∀ st, app.configure = some st → st.dirty = false) →
            ∀ event, (step toml configPath app event).cfg = app.cfg) := by
  refine ⟨fun st c valid => toConfig_normal valid, fun c yazi normal =>
    toConfig_fromConfig normal yazi, fun app reached => ?_⟩
  obtain ⟨_, truthful⟩ := reachable_truthful reached
  refine ⟨truthful, fun unmarked event => ?_⟩
  have which : Leads app (step toml configPath app event) ∨
      ∃ yazi, step toml configPath app event =
        { app with configure := some (.fromConfig app.cfg yazi), screen := .configure } :=
    step_key_or_opened app event
  rcases which with leads | ⟨yazi, opened⟩
  · exact leads.cfg truthful unmarked
  · rw [opened]

/-! ## A save that fails -/

/-- The form shows an error. -/
def Reports (app : ConfigureApp) : Prop :=
  ∃ st message, app.configure = some st ∧ st.notice = some (message, true)

/-- The file, the settings in memory and the mark are as before. -/
structure Untouched (app : ConfigureApp) (st : ConfigureState) (after : ConfigureApp) : Prop where
  file : after.file = app.file
  cfg : after.cfg = app.cfg
  dirty : st.dirty = true → ∃ st', after.configure = some st' ∧ st'.dirty = true

/-- When the key that saves reports an error, everything is as before, unless the
form is valid and the write that had begun left something else in the file. -/
theorem save_error_untouched_iff (files : Files) (toml : Toml Foreign) (configPath : String)
    (attempt : Attempt) (app : ConfigureApp) (st : ConfigureState)
    (shown : app.configure = some st) (noBrowser : st.browser = none) (noEdit : st.edit = none)
    (reports : Reports (onKey files toml configPath attempt app (.char 's'))) :
    Untouched app st (onKey files toml configPath attempt app (.char 's')) ↔
      ∀ c, st.toConfig = .ok c → ¬ toml.CutShort c attempt configPath app.file := by
  have isSave : onKey files toml configPath attempt app (.char 's') =
      saveKey toml configPath attempt app st := by
    rw [onKey, shown]
    simp only [noBrowser, noEdit]
    rfl
  rw [isSave] at reports ⊢
  cases valid : st.toConfig with
  | error message =>
      rw [saveKey_invalid valid]
      have untouched : Untouched app st (app.show { st with notice := some (message, true) }) :=
        ⟨rfl, rfl, fun dirty => ⟨_, rfl, dirty⟩⟩
      simp [untouched]
  | ok c =>
      cases saved : toml.saveFile c attempt configPath app.file with
      | mk result file =>
          cases result with
          | ok =>
              rw [saveKey_saved valid saved] at reports
              obtain ⟨st', message, shown', notice⟩ := reports
              cases shown'
              cases notice
          | error e =>
              have failed : (toml.saveFile c attempt configPath app.file).1 = .error e := by
                rw [saved]
              have left := saveFile_error_iff failed
              rw [saved] at left
              rw [saveKey_failed valid saved]
              constructor
              · intro untouched c' isConfig
                cases isConfig
                exact left.mp untouched.file
              · intro uncut
                exact ⟨left.mpr (uncut c rfl), rfl, fun dirty => ⟨_, rfl, dirty⟩⟩

/-! ## A write that stops -/

/-- A fresh form over a settings file with a key of another version. -/
def themed : ConfigureApp where
  cfg := Config.standard
  screen := .configure
  configure := some (.fromConfig Config.standard false)
  yaziPick := none
  file := some (asBytes Stale.beforeText)

def nowhere : Files where
  isDir _ := false
  isFile _ := false
  readDir _ := none
  canonicalize _ := none
  toLowercase := id

theorem themed_text (write : FileWrite) :
    Stale.toml.textOver Config.standard ⟨true, none, write⟩ "nixnas.config" themed.file =
      .ok Stale.afterText := by
  have merged : Config.standard.merge Stale.before = Stale.after := by decide
  have differs : Stale.after ≠ Stale.before := by decide
  simp [Toml.textOver, Toml.existingIn, Attempt.readToString, themed, fromUtf8_asBytes, withContext,
    Except.mapError, Stale.toml, merged, differs]

theorem themed_saveKey {write : FileWrite} {e : String} {file : Option Bytes}
    (written : write.over (asBytes Stale.afterText) themed.file = (.error e, file)) :
    onKey nowhere Stale.toml "nixnas.config" ⟨true, none, write⟩ themed (.char 's') =
      { themed with
        file := file
        configure := some { ConfigureState.fromConfig Config.standard false with
          notice := some ("writing nixnas.config: " ++ e, true) } } := by
  have failed : Stale.toml.saveFile Config.standard ⟨true, none, write⟩ "nixnas.config"
      themed.file = (.error ("writing nixnas.config: " ++ e), file) := by
    rw [Toml.saveFile, themed_text]
    simp only [written]
    rfl
  have valid : (ConfigureState.fromConfig Config.standard false).toConfig = .ok Config.standard :=
    toConfig_fromConfig standard_normal false
  change saveKey Stale.toml "nixnas.config" ⟨true, none, write⟩ themed
    (.fromConfig Config.standard false) = _
  exact saveKey_failed valid failed

/-- The file cannot be opened for writing. -/
theorem save_error_untouched_themed :
    Untouched themed (.fromConfig Config.standard false)
      (onKey nowhere Stale.toml "nixnas.config" ⟨true, none, .notOpened "Permission denied"⟩ themed
        (.char 's')) := by
  refine (save_error_untouched_iff nowhere Stale.toml "nixnas.config"
    ⟨true, none, .notOpened "Permission denied"⟩ themed (.fromConfig Config.standard false) rfl rfl
    rfl ?_).mpr ?_
  · rw [themed_saveKey rfl]
    exact ⟨_, _, rfl, rfl⟩
  · rintro c - ⟨text, after, e, -, stops, -⟩
    cases stops

/-- The disk is full: the key of the other version is gone. -/
theorem save_error_not_untouched :
    ¬ ∀ (files : Files) (toml : Toml Empty) (configPath : String) (attempt : Attempt)
        (app : ConfigureApp) (st : ConfigureState), app.configure = some st → st.browser = none →
          st.edit = none → Reports (onKey files toml configPath attempt app (.char 's')) →
            Untouched app st (onKey files toml configPath attempt app (.char 's')) := by
  intro untouched
  have stopped : (FileWrite.stops 0 "No space left on device").over (asBytes Stale.afterText)
      themed.file = (.error "No space left on device", some []) := by decide
  have key := themed_saveKey stopped
  have reports : Reports (onKey nowhere Stale.toml "nixnas.config"
      ⟨true, none, .stops 0 "No space left on device"⟩ themed (.char 's')) := by
    rw [key]
    exact ⟨_, _, rfl, rfl⟩
  have same := (untouched nowhere Stale.toml "nixnas.config"
    ⟨true, none, .stops 0 "No space left on device"⟩ themed _ rfl rfl rfl reports).file
  rw [key] at same
  revert same
  decide

end Nixnas.Ui.Configure
