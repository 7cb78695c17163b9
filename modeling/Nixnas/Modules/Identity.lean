import Nixnas.Logic.ShellWords
import Nixnas.Modules.Options
import Nixnas.Systemd.Units

/-!
# Identity on the encrypted store

`modules/appliance/identity.nix`: in usb mode the state directories of the
overlay clients are bind mounts of directories on the store, and an initrd
service makes these directories before anything is mounted from them.
-/

set_option autoImplicit false

namespace Nixnas.Modules.Identity

open Nixnas.Logic
open Nixnas.Systemd

/-! ## The module -/

/-- A service of the initrd. -/
structure Service where
  description : String
  wantedBy : List String
  after : List String
  before : List String
  defaultDependencies : Bool
  serviceType : String
  remainAfterExit : Bool
  script : String

/-- An entry of `fileSystems`. -/
structure FileSystem where
  device : String
  fsType : String
  options : List String
  neededForBoot : Bool
  deriving DecidableEq

/-- What the module adds to `boot.initrd.systemd.services` and `fileSystems`. -/
structure Output where
  initrdServices : AttrSet String Service
  fileSystems : AttrSet String FileSystem

def persist : String := "/nix/persist"

def overlayMountUnit (name : String) : String := "sysroot-var-lib-" ++ name ++ ".mount"

/-- The script, with the list of the clients' directories unquoted at its end. -/
def persistDirsScript (overlayClients : List String) : String :=
  "mkdir -p \\\n  /sysroot" ++ persist ++ "/etc \\\n  /sysroot" ++ persist ++ "/ssh \\\n  /sysroot" ++
    persist ++ "/var/lib/nixos \\\n  " ++
    String.intercalate " "
      (overlayClients.map fun name => "/sysroot" ++ persist ++ "/var/lib/" ++ name) ++ "\n"

def persistDirs (overlayClients : List String) : Service where
  description := "Create the nixnas identity-persistence directories"
  wantedBy := ["initrd-fs.target"]
  after := ["sysroot-nix.mount"]
  before := ["sysroot-var-lib-nixos.mount"] ++ overlayClients.map overlayMountUnit
  defaultDependencies := false
  serviceType := "oneshot"
  remainAfterExit := true
  script := persistDirsScript overlayClients

/-- The bind mount of a path. -/
def bindMount (path : String) : FileSystem where
  device := persist ++ path
  fsType := "none"
  options := ["bind"]
  neededForBoot := true

def fileSystems (overlayClients : List String) : AttrSet String FileSystem :=
  (AttrSet.listToAttrs [("/var/lib/nixos", ⟨persist ++ "/var/lib/nixos", "none", ["bind"], true⟩)]).update
    (AttrSet.genAttrs (overlayClients.map fun name => "/var/lib/" ++ name) bindMount)

def identity (cfg : NixnasOptions) : Output :=
  if cfg.enable && cfg.location = .usb then
    { initrdServices :=
        AttrSet.listToAttrs [("nixnas-persist-dirs", persistDirs cfg.persist.overlayClients)]
      fileSystems := fileSystems cfg.persist.overlayClients }
  else ⟨∅, ∅⟩

/-! ## What is asked of it -/

/-- The directories that the script of a service makes; `none` when it is no plain
`mkdir -p`. -/
def madeDirectories (script : String) : Option (List String) :=
  match Shell.words script with
  | some ("mkdir" :: "-p" :: directories) => some directories
  | _ => none

/-- The service of the name is ordered before the mount unit and makes the source of
its mount, so that in whatever order units start, the source is there. -/
structure Prepares (serviceName : String) (service : Service) (unit source : String) : Prop where
  ordered : unit ∈ service.before
  creates : ∃ directories, madeDirectories service.script = some directories ∧ source ∈ directories
  inTime : ∀ order, Respects (Edge serviceName service.before service.after) order →
    serviceName ∈ order → ∀ j : Nat, order[j]? = some unit → ∃ i < j, order[i]? = some serviceName

/-- Every client has its bind mount in the initrd, whose source is there when it is
started. -/
def Protected (cfg : NixnasOptions) : Prop :=
  ∃ service, (identity cfg).initrdServices.lookup "nixnas-persist-dirs" = some service ∧
    ∀ name ∈ cfg.persist.overlayClients, ∃ fs unit,
      (identity cfg).fileSystems.lookup ("/var/lib/" ++ name) = some fs ∧
        fs.neededForBoot = true ∧ "bind" ∈ fs.options ∧
        mountUnit ("/sysroot" ++ "/var/lib/" ++ name) = some unit ∧
        Prepares "nixnas-persist-dirs.service" service unit ("/sysroot" ++ fs.device)

/-! ## The bind mounts -/

theorem lookup_fileSystems {clients : List String} {name : String} (member : name ∈ clients) :
    (fileSystems clients).lookup ("/var/lib/" ++ name) = some (bindMount ("/var/lib/" ++ name)) := by
  have listed : "/var/lib/" ++ name ∈ clients.map fun name => "/var/lib/" ++ name :=
    List.mem_map_of_mem member
  rw [fileSystems, AttrSet.lookup_update, AttrSet.lookup_genAttrs_of_mem bindMount listed,
    Option.some_or]

theorem intercalate_client (name : String) :
    String.intercalate "/" ["sysroot", "var", "lib", name] = "sysroot/var/lib/" ++ name := by
  have parent : "sysroot/var/lib/" = "sysroot" ++ "/" ++ "var" ++ "/" ++ "lib" ++ "/" := by
    decide
  rw [parent]
  rfl

theorem pathParts_client {name : String} (dir : DirName name) :
    pathParts ("/sysroot" ++ "/var/lib/" ++ name) = ["sysroot", "var", "lib", name] := by
  have isAbsolute : "/sysroot" ++ "/var/lib/" ++ name = absolute ["sysroot", "var", "lib", name] := by
    have start : "/sysroot" ++ "/var/lib/" = "/" ++ "sysroot/var/lib/" := by decide
    rw [start, absolute, intercalate_client, String.append_assoc]
  have apart : ∀ part ∈ ["sysroot", "var", "lib", name], '/' ∉ part.toList := by
    simp only [List.forall_mem_cons]
    exact ⟨by decide, by decide, by decide, dir.noSlash, by simp⟩
  have nonempty : ∀ part ∈ ["sysroot", "var", "lib", name], part ≠ "" := by
    simp only [List.forall_mem_cons]
    exact ⟨by decide, by decide, by decide, dir.some, by simp⟩
  rw [pathParts, isAbsolute, components_absolute apart nonempty]
  simp [dir.notHere]

/-- The unit of a client's mount, as the manager names it. -/
theorem mountUnit_client {name : String} (dir : DirName name) :
    mountUnit ("/sysroot" ++ "/var/lib/" ++ name) =
      some ("sysroot-var-lib-" ++ escapeInside name ++ ".mount") := by
  rw [mountUnit_of_parts (pathParts_client dir) (by simp)]
  · have parent : escape "sysroot/var/lib/" = "sysroot-var-lib-" := by decide
    rw [intercalate_client, escape_append (by decide), parent]
  · simp [dir.notUp.symm]

/-! ## The directories the script makes -/

theorem isLiteral_of_isPlain {c : Char} (plain : isPlain c = true) : Shell.isLiteral c = true := by
  have apart : (' ' :: '\t' :: Shell.metacharacters).all (fun d => !isPlain d) = true := by
    decide
  have notListed : c ∉ ' ' :: '\t' :: Shell.metacharacters := by
    intro listed
    have notPlain := List.all_eq_true.mp apart c listed
    simp [plain] at notPlain
  simp only [List.mem_cons, not_or] at notListed
  simp [Shell.isLiteral, Shell.isBlank, notListed.1, notListed.2.1, notListed.2.2]

def clientDirectory (name : String) : String := "/sysroot" ++ persist ++ "/var/lib/" ++ name

/-- The words of the script before those of the clients. -/
def ownWords : List String :=
  ["mkdir", "-p", "/sysroot/nix/persist/etc", "/sysroot/nix/persist/ssh",
    "/sysroot/nix/persist/var/lib/nixos"]

/-- The same words in the joined line. -/
def ownLine : List Char :=
  ("mkdir -p   /sysroot/nix/persist/etc   /sysroot/nix/persist/ssh   " ++
    "/sysroot/nix/persist/var/lib/nixos  ").toList

-- A text is taken apart before anything is computed: characters are cheap, texts are not.
theorem ownLine_chars : ownLine =
    "mkdir -p   /sysroot/nix/persist/etc   /sysroot/nix/persist/ssh   ".toList ++
      "/sysroot/nix/persist/var/lib/nixos  ".toList := String.toList_append

theorem fields_ownLine : Shell.fields ownLine = ownWords.map String.toList := by
  unfold ownWords
  simp only [List.map_cons, List.map_nil]
  rw [ownLine_chars]
  repeat rw [String.toList_ofList]
  decide

theorem literal_ownLine : ∀ c ∈ ownLine, (Shell.isBlank c || Shell.isLiteral c) = true := by
  have all : ownLine.all (fun c => Shell.isBlank c || Shell.isLiteral c) = true := by
    rw [ownLine_chars]
    repeat rw [String.toList_ofList]
    decide
  exact List.all_eq_true.mp all

theorem literal_clientDirectory {name : String} (plain : Plain name) :
    ∀ c ∈ (clientDirectory name).toList, Shell.isLiteral c = true := by
  have parent : ("/sysroot" ++ persist ++ "/var/lib/").toList.all Shell.isLiteral = true := by
    rw [String.toList_append, String.toList_append, persist]
    repeat rw [String.toList_ofList]
    decide
  intro c member
  rw [clientDirectory, String.toList_append, List.mem_append] at member
  rcases member with inParent | inName
  · exact List.all_eq_true.mp parent c inParent
  · exact isLiteral_of_isPlain (plain c inName)

/-- The script up to its list of clients. -/
def ownText : String :=
  "mkdir -p \\\n  /sysroot" ++ persist ++ "/etc \\\n  /sysroot" ++ persist ++ "/ssh \\\n  /sysroot" ++
    persist ++ "/var/lib/nixos \\\n  "

theorem joinLines_ownText : Shell.joinLines ownText.toList = ownLine ++ [' '] := by
  have pieces : ∀ a b c d p : String, (a ++ p ++ b ++ p ++ c ++ p ++ d).toList =
      a.toList ++ p.toList ++ b.toList ++ p.toList ++ c.toList ++ p.toList ++ d.toList := by
    intro a b c d p
    simp only [String.toList_append]
  unfold ownText
  rw [pieces, ownLine_chars, persist]
  repeat rw [String.toList_ofList]
  decide

/-- The directories of the clients, as the script lists them. -/
def clientWords (clients : List String) : List (List Char) :=
  clients.map fun name => (clientDirectory name).toList

theorem mem_clientWords {clients : List String} (plain : ∀ name ∈ clients, Plain name)
    {word : List Char} (member : word ∈ clientWords clients) :
    word ≠ [] ∧ ∀ c ∈ word, Shell.isLiteral c = true := by
  obtain ⟨name, isClient, rfl⟩ := List.mem_map.mp member
  refine ⟨?_, literal_clientDirectory (plain name isClient)⟩
  simp [clientDirectory]

theorem literal_intercalate {clients : List String} (plain : ∀ name ∈ clients, Plain name) {c : Char}
    (member : c ∈ [' '].intercalate (clientWords clients)) : c = ' ' ∨ Shell.isLiteral c = true := by
  rcases mem_intercalate member with blank | ⟨word, isWord, inWord⟩
  · exact Or.inl blank
  · exact Or.inr ((mem_clientWords plain isWord).2 c inWord)

/-- The script is one line of words once its lines are joined. -/
theorem joinLines_persistDirsScript {clients : List String} (plain : ∀ name ∈ clients, Plain name) :
    Shell.joinLines (persistDirsScript clients).toList =
      ownLine ++ ' ' :: [' '].intercalate (clientWords clients) ++ ['\n'] := by
  have text : (persistDirsScript clients).toList =
      ownText.toList ++ ([' '].intercalate (clientWords clients) ++ ['\n']) := by
    have isText : persistDirsScript clients =
        ownText ++ String.intercalate " " (clients.map clientDirectory) ++ "\n" := rfl
    rw [isText, String.toList_append, String.toList_append, String.toList_intercalate, List.map_map,
      List.append_assoc]
    rfl
  have noBackslash : '\\' ∉ [' '].intercalate (clientWords clients) ++ ['\n'] := by
    intro member
    rcases List.mem_append.mp member with inClients | isBreak
    · rcases literal_intercalate plain inClients with blank | literal
      · cases blank
      · revert literal
        decide
    · rw [List.mem_singleton] at isBreak
      cases isBreak
  have ended : ownText.toList.getLast? ≠ some '\\' := by
    have back : ∃ front, ownText.toList = front ++ "/var/lib/nixos \\\n  ".toList :=
      ⟨_, String.toList_append⟩
    obtain ⟨front, split⟩ := back
    rw [split, String.toList_ofList, List.getLast?_append]
    simp
  rw [text, Shell.joinLines_append ended, joinLines_ownText, Shell.joinLines_of_noBackslash noBackslash]
  simp only [List.append_assoc, List.cons_append, List.nil_append]

theorem words_persistDirsScript {clients : List String} (plain : ∀ name ∈ clients, Plain name) :
    Shell.words (persistDirsScript clients) = some (ownWords ++ clients.map clientDirectory) := by
  have noBlank : ∀ word ∈ clientWords clients, word ≠ [] ∧ ∀ c ∈ word, Shell.isBlank c = false := by
    intro word member
    obtain ⟨nonempty, literal⟩ := mem_clientWords plain member
    refine ⟨nonempty, ?_⟩
    intro c inWord
    have isLiteral := literal c inWord
    simp only [Shell.isLiteral, Bool.and_eq_true, Bool.not_eq_true'] at isLiteral
    exact isLiteral.1
  rw [Shell.words_of_line (joinLines_persistDirsScript plain), Shell.fields_append, fields_ownLine, Shell.fields,
    fieldsBy_intercalate rfl noBlank]
  · simp [clientWords, Function.comp_def]
  · intro c member
    rw [List.mem_append, List.mem_cons] at member
    rcases member with own | rfl | inClients
    · exact literal_ownLine c own
    · rfl
    · rcases literal_intercalate plain inClients with rfl | literal
      · rfl
      · rw [literal, Bool.or_true]

theorem madeDirectories_persistDirsScript {clients : List String}
    (plain : ∀ name ∈ clients, Plain name) :
    madeDirectories (persistDirsScript clients) =
      some (ownWords.drop 2 ++ clients.map clientDirectory) := by
  rw [madeDirectories, words_persistDirsScript plain]
  rfl

/-! ## When it holds -/

theorem overlayMountUnit_inj {name other : String}
    (same : overlayMountUnit name = overlayMountUnit other) : name = other := by
  unfold overlayMountUnit at same
  have stem := (String.append_left_inj _).mp same
  exact (String.append_right_inj _).mp stem

/-- A unit that is ordered before another starts first. -/
theorem prepares_of_ordered {serviceName unit source : String} {service : Service}
    (ordered : unit ∈ service.before)
    (creates : ∃ directories, madeDirectories service.script = some directories ∧
      source ∈ directories) : Prepares serviceName service unit source := by
  refine ⟨ordered, creates, ?_⟩
  intro order respects member j atUnit
  obtain ⟨i, atService⟩ := List.mem_iff_getElem?.mp member
  exact ⟨i, respects _ _ (Or.inl ⟨rfl, ordered⟩) i j atService atUnit, atService⟩

/-- A unit of the service's list is that of a name whose escape is a name. -/
theorem escape_listed {clients : List String} {name : String}
    (ordered : "sysroot-var-lib-" ++ escapeInside name ++ ".mount" ∈ (persistDirs clients).before) :
    escapeInside name = "nixos" ∨ escapeInside name ∈ clients := by
  change overlayMountUnit (escapeInside name) ∈ _ at ordered
  rcases List.mem_append.mp ordered with bespoke | listed
  · left
    have isNixos : "sysroot-var-lib-nixos.mount" = overlayMountUnit "nixos" := by decide
    rw [isNixos, List.mem_singleton] at bespoke
    exact overlayMountUnit_inj bespoke
  · right
    obtain ⟨other, member, same⟩ := List.mem_map.mp listed
    rw [← overlayMountUnit_inj same]
    exact member

theorem identity_of_usb {cfg : NixnasOptions} (usb : cfg.enable = true ∧ cfg.location = .usb) :
    identity cfg =
      ⟨AttrSet.listToAttrs [("nixnas-persist-dirs", persistDirs cfg.persist.overlayClients)],
        fileSystems cfg.persist.overlayClients⟩ := by
  simp [identity, usb.1, usb.2]

theorem lookup_persistDirs {cfg : NixnasOptions} (usb : cfg.enable = true ∧ cfg.location = .usb) :
    (identity cfg).initrdServices.lookup "nixnas-persist-dirs" =
      some (persistDirs cfg.persist.overlayClients) := by
  rw [identity_of_usb usb, AttrSet.lookup_listToAttrs_cons, if_pos rfl]

/-- The escapes of the clients' names are all among them, or `nixos`. -/
theorem plain_of_protected {cfg : NixnasOptions} (usb : cfg.enable = true ∧ cfg.location = .usb)
    (usable : ∀ name ∈ cfg.persist.overlayClients, DirName name) (safe : Protected cfg) :
    ∀ name ∈ cfg.persist.overlayClients, Plain name := by
  obtain ⟨service, found, mounts⟩ := safe
  rw [lookup_persistDirs usb] at found
  cases found
  have closed : ∀ name ∈ "nixos" :: cfg.persist.overlayClients,
      escapeInside name ∈ "nixos" :: cfg.persist.overlayClients := by
    intro name member
    rcases List.mem_cons.mp member with rfl | isClient
    · have kept : escapeInside "nixos" = "nixos" := by decide
      rw [kept]
      exact List.mem_cons_self
    · obtain ⟨fs, unit, _, _, _, isUnit, prepares⟩ := mounts name isClient
      rw [mountUnit_client (usable name isClient)] at isUnit
      cases isUnit
      exact List.mem_cons.mpr (escape_listed prepares.ordered)
  intro name isClient
  exact plain_of_closed closed name (List.mem_cons_of_mem "nixos" isClient)

theorem protected_of_plain {cfg : NixnasOptions} (usb : cfg.enable = true ∧ cfg.location = .usb)
    (usable : ∀ name ∈ cfg.persist.overlayClients, DirName name)
    (plain : ∀ name ∈ cfg.persist.overlayClients, Plain name) : Protected cfg := by
  refine ⟨_, lookup_persistDirs usb, ?_⟩
  intro name isClient
  have isMount : (identity cfg).fileSystems.lookup ("/var/lib/" ++ name) =
      some (bindMount ("/var/lib/" ++ name)) := by
    rw [identity_of_usb usb]
    exact lookup_fileSystems isClient
  have bound : "bind" ∈ (bindMount ("/var/lib/" ++ name)).options := List.mem_singleton_self "bind"
  refine ⟨_, _, isMount, rfl, bound, mountUnit_client (usable name isClient), ?_⟩
  apply prepares_of_ordered
  · rw [escapeInside_of_plain (plain name isClient)]
    exact List.mem_append_right _ (List.mem_map_of_mem isClient)
  · refine ⟨_, madeDirectories_persistDirsScript plain, List.mem_append_right _ ?_⟩
    have source : "/sysroot" ++ (bindMount ("/var/lib/" ++ name)).device = clientDirectory name := by
      rw [bindMount, clientDirectory, String.append_assoc, String.append_assoc]
    rw [source]
    exact List.mem_map_of_mem isClient

/-- The directories of the clients are there before they are mounted from exactly when
the hand-built unit names are the manager's, that is when every name consists of
characters that the manager keeps. -/
theorem protected_iff_plain {cfg : NixnasOptions} (usb : cfg.enable = true ∧ cfg.location = .usb)
    (usable : ∀ name ∈ cfg.persist.overlayClients, DirName name) :
    Protected cfg ↔ ∀ name ∈ cfg.persist.overlayClients, Plain name :=
  ⟨plain_of_protected usb usable, protected_of_plain usb usable⟩

/-- A usb host with the given clients, and nothing else. -/
def clientHost (clients : List String) : NixnasOptions where
  enable := true
  location := .usb
  hot := ⟨none, ∅⟩
  root := ⟨none, ∅⟩
  storage := ⟨∅, []⟩
  persist := ⟨clients, []⟩

theorem demo_protected : Protected (clientHost ["tailscale"]) := by
  have dir : DirName "tailscale" := by constructor <;> decide
  have plain : Plain "tailscale" := plain_iff_all.mpr (by decide)
  have usable : ∀ name ∈ (clientHost ["tailscale"]).persist.overlayClients, DirName name :=
    fun _ member => List.mem_singleton.mp member ▸ dir
  apply (protected_iff_plain ⟨rfl, rfl⟩ usable).mpr
  exact fun _ member => List.mem_singleton.mp member ▸ plain

/-- The unit of a client with a dash in its name is not the one the service is
ordered before. -/
theorem dashed_client_not_protected :
    ¬ ∀ cfg : NixnasOptions, cfg.enable = true ∧ cfg.location = .usb →
      (∀ name ∈ cfg.persist.overlayClients, DirName name) → Protected cfg := by
  intro every
  have dir : DirName "cloudflare-warp" := by constructor <;> decide
  have usable : ∀ name ∈ (clientHost ["cloudflare-warp"]).persist.overlayClients, DirName name :=
    fun _ member => List.mem_singleton.mp member ▸ dir
  have safe := every (clientHost ["cloudflare-warp"]) ⟨rfl, rfl⟩ usable
  have plain := plain_of_protected ⟨rfl, rfl⟩ usable safe "cloudflare-warp" List.mem_cons_self
  exact absurd (plain_iff_all.mp plain) (by decide)

end Nixnas.Modules.Identity
