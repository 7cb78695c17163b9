import Nixnas.Tui.Verify

/-!
# What a verification says about its target

`LaidOut` is the layout of a nixnas stick, as a property of the bytes of the
target, and `Carries` says that a device starts with an image, up to the digest.
A verification that returns has found both; one whose reads succeed returns
when both are there.
-/

set_option autoImplicit false

namespace Nixnas.Tui.Verify

open Nixnas.Logic Nixnas.Logic.Action
open Nixnas.Rust
open Nixnas.Tui.Sudo

/-! ## The layout -/

def Partition.range (p : Partition) : Option (Nat × Nat) :=
  match p.bytesStart, p.bytesLen with
  | .ok start, .ok len => some (start, len)
  | _, _ => none

/-- Exactly two partitions, one of the EFI type and one not. -/
def TwoParts (used : List Partition) (esp store : Nat × Nat) : Prop :=
  ∃ e s, (used = [e, s] ∨ used = [s, e]) ∧ e.efi = true ∧ s.efi = false ∧
    e.range = some esp ∧ s.range = some store

/-- The table of the medium names the ESP and the store. -/
def Tabled (lib : Crates) (content : Bytes) (esp store : Nat × Nat) : Prop :=
  ∃ partitions, lib.gpt content = .ok partitions ∧
    TwoParts (partitions.filter Partition.used) esp store

/-- The ESP holds a loader and a UKI. -/
def Bootable (fs : FatVolume) : Prop :=
  ((bootx64 fs).isSome = true ∨ systemdBoot fs = true) ∧
    ∃ dir e, fs.openDir "EFI/Linux" = some dir ∧ some e ∈ dir ∧ isUki e = true

def luksHeader : Bytes := luksMagic ++ [0, 2]

structure Layout (lib : Crates) (content : Bytes) (esp store : Nat × Nat) : Prop where
  table : Tabled lib content esp store
  boot : ∃ fs, lib.fat (window esp content) = .ok fs ∧ Bootable fs
  header : window (store.1, 8) content = luksHeader

theorem Layout.inside {lib : Crates} {content : Bytes} {esp store : Nat × Nat}
    (layout : Layout lib content esp store) : store.1 + 8 ≤ content.length := by
  have length := congrArg List.length layout.header
  simp only [window, List.length_take, List.length_drop] at length
  have eight : luksHeader.length = 8 := rfl
  omega

def LaidOut (lib : Crates) (content : Bytes) : Prop := ∃ esp store, Layout lib content esp store

/-- The device starts with the image, as far as the digests tell. -/
def Carries (lib : Crates) (content image : Bytes) : Prop :=
  image.length ≤ content.length ∧
    hex (lib.sha256 (content.take image.length)) = hex (lib.sha256 image)

/-! ## What an empty issue list means -/

/-- What the rows leave behind, if every range is in bounds. -/
def noted : List Partition → Located → Located
  | [], found => found
  | p :: rest, found => noted rest (p.range.elim found (found.note p.efi))

/-- Every row has a byte range. -/
def Ranged (used : List Partition) : Prop := ∀ p ∈ used, p.range ≠ none

theorem twoParts_noted {used : List Partition} {esp store : Nat × Nat}
    (two : TwoParts used esp store) :
    Ranged used ∧ noted used ⟨none, none⟩ = ⟨some esp, some store⟩ := by
  obtain ⟨e, s, order, isEfi, notEfi, espAt, storeAt⟩ := two
  rcases order with rfl | rfl
  · simp [Ranged, noted, Located.note, isEfi, notEfi, espAt, storeAt]
  · simp [Ranged, noted, Located.note, isEfi, notEfi, espAt, storeAt]

theorem tableIssues_two {used : List Partition} {esp store : Nat × Nat}
    (two : TwoParts used esp store) : tableIssues used ⟨some esp, some store⟩ = [] := by
  obtain ⟨e, s, order, -⟩ := two
  rcases order with rfl | rfl <;> rfl

theorem twoParts_of_noted {used : List Partition} (ranged : Ranged used)
    (clean : tableIssues used (noted used ⟨none, none⟩) = []) :
    ∃ esp store, TwoParts used esp store ∧ noted used ⟨none, none⟩ = ⟨some esp, some store⟩ := by
  have count : used.length = 2 := by
    by_cases two : used.length = 2
    · exact two
    · simp [tableIssues, two] at clean
  match used, count with
  | [a, b], _ =>
      obtain ⟨first, atFirst⟩ := Option.ne_none_iff_exists'.mp (ranged a (by simp))
      obtain ⟨second, atSecond⟩ := Option.ne_none_iff_exists'.mp (ranged b (by simp))
      cases kindA : a.efi with
      | true =>
          cases kindB : b.efi with
          | true => simp [tableIssues, noted, Located.note, kindA, kindB, atFirst, atSecond] at clean
          | false =>
              have two : TwoParts [a, b] first second :=
                ⟨a, b, Or.inl rfl, kindA, kindB, atFirst, atSecond⟩
              exact ⟨first, second, two, (twoParts_noted two).2⟩
      | false =>
          cases kindB : b.efi with
          | true =>
              have two : TwoParts [a, b] second first :=
                ⟨b, a, Or.inr rfl, kindB, kindA, atSecond, atFirst⟩
              exact ⟨second, first, two, (twoParts_noted two).2⟩
          | false => simp [tableIssues, noted, Located.note, kindA, kindB, atFirst, atSecond] at clean

theorem ukisOf_eq_nil {dir : List (Option FatEntry)} :
    ukisOf dir = [] ↔ ∀ e, some e ∈ dir → isUki e = false := by
  have sorted : ∀ (l : List (String × Nat)) (le : String × Nat → String × Nat → Bool),
      l.mergeSort le = [] ↔ l = [] := by
    intro l le
    rw [← List.length_eq_zero_iff, List.length_mergeSort, List.length_eq_zero_iff]
  unfold ukisOf
  rw [sorted, List.map_eq_nil_iff, List.filter_eq_nil_iff]
  simp

theorem bootIssues_eq_nil {fs : FatVolume} : loaderIssues fs ++ ukiIssues fs = [] ↔ Bootable fs := by
  have loader : loaderIssues fs = [] ↔
      ((bootx64 fs).isSome = true ∨ systemdBoot fs = true) := by
    cases found : bootx64 fs <;> cases present : systemdBoot fs <;>
      simp [loaderIssues, found, present]
  have uki : ukiIssues fs = [] ↔
      ∃ dir e, fs.openDir "EFI/Linux" = some dir ∧ some e ∈ dir ∧ isUki e = true := by
    unfold ukiIssues
    cases listed : fs.openDir "EFI/Linux" with
    | none => simp
    | some dir =>
        by_cases none : ukisOf dir = []
        · have no := ukisOf_eq_nil.mp none
          simp only [none, List.isEmpty_nil, if_true]
          constructor
          · intro impossible
            cases impossible
          · rintro ⟨dir', e, same, member, isUki⟩
            cases same
            rw [no e member] at isUki
            cases isUki
        · have some := mt ukisOf_eq_nil.mpr none
          simp only [List.isEmpty_iff, none, if_false, true_iff]
          have found : ∃ e, Option.some e ∈ dir ∧ isUki e = true := by
            apply Classical.byContradiction
            intro absent
            apply some
            intro e member
            cases kind : isUki e with
            | false => rfl
            | true => exact absurd ⟨e, member, kind⟩ absent
          obtain ⟨e, member, kind⟩ := found
          exact ⟨dir, e, rfl, member, kind⟩
  rw [List.append_eq_nil_iff, loader, uki]
  rfl

theorem headerIssues_eq_nil {hdr : Bytes} (length : hdr.length = 8) :
    headerIssues hdr = [] ↔ hdr = luksHeader := by
  constructor
  · intro clean
    have both : hdr.take 6 = luksMagic ∧ luksVersion hdr = 2 := by
      by_cases good : (magicOk hdr && luksVersion hdr = 2) = true
      · simpa [magicOk] using good
      · simp [headerIssues, good] at clean
    obtain ⟨magic, version⟩ := both
    match hdr, length with
    | [b0, b1, b2, b3, b4, b5, high, low], _ =>
        have split : 256 * high.toNat + low.toNat = 2 := version
        have bound := low.toNat_lt
        have zero : high.toNat = 0 := by omega
        have two : low.toNat = 2 := by omega
        have first : [b0, b1, b2, b3, b4, b5] = luksMagic := magic
        have isZero : high = 0 := UInt8.toNat_inj.mp zero
        have isTwo : low = 2 := UInt8.toNat_inj.mp two
        rw [show ([b0, b1, b2, b3, b4, b5, high, low] : Bytes) =
          [b0, b1, b2, b3, b4, b5] ++ [high, low] from rfl, first, isZero, isTwo]
        rfl
  · intro same
    rw [same]
    decide

/-! ## The checks, one by one -/

section Checks

variable {env : Env} {lib : Crates} {content : Bytes} {file : DevReader} {α : Type}

/-- An event between two operations. -/
theorem event_spec {node : Node} {event : VerifyEvent} {rest : Step VerifyEvent α}
    {post : Post VerifyWorld String α}
    (spec : Spec (fun w => w.content env node = content) rest post) :
    Spec (fun w => w.content env node = content) (send event >>= fun _ => rest) post :=
  Spec.bind _ (Spec.modify fun _ held => held) fun _ => spec

theorem event_ends {node : Node} {event : VerifyEvent} {rest : Step VerifyEvent α}
    {ok : α → VerifyWorld → Prop} (ends : Ends (fun w => w.content env node = content) rest ok) :
    Ends (fun w => w.content env node = content) (send event >>= fun _ => rest) ok :=
  Ends.bind _ (Ends.modify fun _ held => held) fun _ => ends

theorem events_spec {node : Node} {post : Post VerifyWorld String α} {value : α}
    {event : VerifyEvent}
    (done : ∀ w : VerifyWorld, w.content env node = content → post.ok value w) :
    Spec (fun w => w.content env node = content) (send event >>= fun _ => pure value) post :=
  event_spec (Spec.pure done)

/-- What a crate made of the target: right, or an error; and right if nothing
fails. -/
structure Heard {β : Type} (env : Env) (answer truth : Except String β) : Prop where
  right : ∀ value, answer = .ok value → truth = .ok value
  calm : env.Reliable → answer = truth

theorem lend_heard {β : Type} (sound : file.Sound content) (parse : Bytes → Except String β) :
    Spec (fun w : VerifyWorld => w.content env file.node = content) (file.lend env parse)
      (.onReturn
        (fun result w => (file.Follows env content result.2 ∧
          (file.Exact env content → Heard env result.1 (parse content))) ∧
          w.content env file.node = content)
        fun _ _ => True) := by
  have keeps : Preserves World.devices
      (file.lend env parse : Step VerifyEvent (Except String β × DevReader)) :=
    (file.lend_still env parse).comp World.devices
  refine (Spec.holding (DevReader.lend_spec sound parse) keeps).imp ?_
  intro result w met
  obtain ⟨⟨follows, hears⟩, held⟩ := met
  exact ⟨⟨follows, fun exact => ⟨(hears exact).1, fun calm => (hears exact).2 calm.answers⟩⟩, held⟩

/-- The target stays as it is while the handle is moved and read. -/
theorem seekStart_held (sound : file.Sound content) (pos : Nat) :
    Spec (fun w : VerifyWorld => w.content env file.node = content) (file.seekStart env pos)
      (.onReturn
        (fun next w => (file.Follows env content next ∧ next.pos = pos) ∧
          w.content env file.node = content)
        fun _ _ => True) :=
  Spec.holding (DevReader.seekStart_spec sound pos)
    ((file.seekStart_still env pos).comp World.devices)

theorem readExact_held (sound : file.Sound content) (size : Nat) :
    Spec (fun w : VerifyWorld => w.content env file.node = content) (file.readExact env size)
      (.onReturn
        (fun result w => file.Reads env content size result.1 result.2 ∧
          w.content env file.node = content)
        fun _ _ => True) :=
  Spec.holding (DevReader.readExact_spec sound size)
    ((file.readExact_still env size).comp World.devices)

theorem readExact_ends (reliable : env.Reliable) (sound : file.Sound content)
    (exact : file.Exact env content) {size : Nat} (inside : file.pos + size ≤ content.length) :
    Ends (fun w : VerifyWorld => w.content env file.node = content) (file.readExact env size)
      fun result w => file.Reads env content size result.1 result.2 ∧
        w.content env file.node = content :=
  ((DevReader.readExact_ends reliable sound exact inside).with_spec
    (readExact_held sound size)).weaken (fun _ held => held) fun _ _ met => met.2

/-- An image is no device: reading it, the target is not even looked at. -/
theorem readImage_held {node : Node} {path : String} {imgFile : DevReader}
    (follows : (DevReader.file (.image path) 0).Follows env (env.image path) imgFile) (size : Nat) :
    Spec (fun w : VerifyWorld => w.content env node = content) (imgFile.readExact env size)
      (.onReturn
        (fun result w => imgFile.Reads env (env.image path) size result.1 result.2 ∧
          w.content env node = content)
        fun _ _ => True) := by
  have reads : Spec (fun w : VerifyWorld => w.content env imgFile.node = env.image path)
      (imgFile.readExact env size) _ := DevReader.readExact_spec follows.sound size
  have kept : Preserves World.devices (imgFile.readExact env size : Io VerifyWorld _) :=
    (imgFile.readExact_still env size).comp World.devices
  refine (reads.and (content_kept kept)).weaken ?_ (fun _ _ met => met) (fun _ _ _ => trivial)
    fun _ _ => trivial
  intro w held
  rw [follows.node]
  exact ⟨rfl, held⟩

/-! ### The table -/

theorem ofExcept_spec {β : Type} {node : Node} (result : Except String β) :
    Spec (fun w => w.content env node = content) (ofExcept result)
      (.onReturn (fun value w => result = .ok value ∧ w.content env node = content)
        fun _ _ => True) := by
  cases result with
  | error e => exact Spec.fail fun _ _ => trivial
  | ok value => exact Spec.pure fun _ held => ⟨rfl, held⟩

theorem noteRows_spec {node : Node} (used : List Partition) (found : Located) :
    Spec (fun w => w.content env node = content) (noteRows lib used found)
      (.onReturn
        (fun result w => (Ranged used ∧ result = noted used found) ∧
          w.content env node = content)
        fun _ _ => True) := by
  induction used generalizing found with
  | nil =>
      apply Spec.pure
      intro w held
      exact ⟨⟨fun p member => absurd member (by simp), rfl⟩, held⟩
  | cons p rest ih =>
      refine Spec.bind _ (ofExcept_spec p.bytesStart) ?_
      intro start
      refine Spec.assume fun atStart => ?_
      refine Spec.bind _ (ofExcept_spec p.bytesLen) ?_
      intro len
      refine Spec.assume fun long => ?_
      have range : p.range = some (start, len) := by simp [Partition.range, atStart, long]
      apply event_spec
      refine (ih _).imp ?_
      intro result w met
      obtain ⟨⟨ranged, same⟩, held⟩ := met
      refine ⟨⟨?_, ?_⟩, held⟩
      · intro q member
        rcases List.mem_cons.mp member with rfl | member
        · rw [range]
          exact Option.some_ne_none _
        · exact ranged q member
      · rw [same]
        simp [noted, range]

theorem noteRows_ends {node : Node} {used : List Partition} (ranged : Ranged used)
    (found : Located) :
    Ends (fun w => w.content env node = content) (noteRows lib used found) fun _ _ => True := by
  induction used generalizing found with
  | nil => exact Ends.pure fun _ _ => trivial
  | cons p rest ih =>
      have known := ranged p (by simp)
      unfold noteRows
      cases start : p.bytesStart with
      | error e => simp [Partition.range, start] at known
      | ok first =>
          cases length : p.bytesLen with
          | error e => simp [Partition.range, start, length] at known
          | ok len =>
              refine Ends.bind (fun _ w => w.content env node = content)
                (Ends.pure fun _ held => held) ?_
              intro _
              refine Ends.bind (fun _ w => w.content env node = content)
                (Ends.pure fun _ held => held) ?_
              intro _
              exact event_ends (ih (fun q member => ranged q (by simp [member])) _)

/-- The table check: no issue is found exactly when the table names the ESP and
the store. -/
structure TableFound (env : Env) (lib : Crates) (content : Bytes) (found : Located)
    (issues : List String) : Prop where
  right : issues = [] → ∃ esp store, Tabled lib content esp store ∧ found = ⟨some esp, some store⟩
  calm : env.Reliable → ∀ esp store, Tabled lib content esp store →
    found = ⟨some esp, some store⟩ ∧ issues = []

theorem checkTable_spec (sound : file.Sound content) :
    Spec (fun w => w.content env file.node = content) (checkTable env lib file)
      (.onReturn
        (fun result w => (file.Follows env content result.2 ∧
          (file.Exact env content → TableFound env lib content result.1.1 result.1.2)) ∧
          w.content env file.node = content)
        fun _ _ => True) := by
  apply event_spec
  refine Spec.bind _ (lend_heard sound lib.gpt) ?_
  intro result
  obtain ⟨disk, next⟩ := result
  refine Spec.assume fun known => ?_
  obtain ⟨follows, hears⟩ := known
  cases disk with
  | error e =>
      apply event_spec
      apply events_spec
      intro w held
      refine ⟨⟨follows, fun exact => ⟨fun impossible => by simp at impossible, ?_⟩⟩, held⟩
      intro calm esp store tabled
      obtain ⟨partitions, read, -⟩ := tabled
      have same := (hears exact).calm calm
      rw [read] at same
      cases same
  | ok partitions =>
      refine Spec.bind _ (noteRows_spec (partitions.filter Partition.used) ⟨none, none⟩) ?_
      intro found
      refine Spec.assume fun noting => ?_
      obtain ⟨ranged, rfl⟩ := noting
      apply events_spec
      intro w held
      refine ⟨⟨follows, fun exact => ⟨?_, ?_⟩⟩, held⟩
      · intro clean
        obtain ⟨esp, store, two, same⟩ := twoParts_of_noted ranged clean
        exact ⟨esp, store, ⟨partitions, (hears exact).right partitions rfl, two⟩, same⟩
      · intro calm esp store tabled
        obtain ⟨others, read, two⟩ := tabled
        have same := (hears exact).calm calm
        rw [read] at same
        cases same
        dsimp only
        rw [(twoParts_noted two).2]
        exact ⟨rfl, tableIssues_two two⟩

theorem checkTable_ends (reliable : env.Reliable) (sound : file.Sound content)
    (exact : file.Exact env content) {esp store : Nat × Nat}
    (tabled : Tabled lib content esp store) :
    Ends (fun w => w.content env file.node = content) (checkTable env lib file)
      fun _ _ => True := by
  apply event_ends
  refine Ends.bind _
    ((DevReader.lend_ends reliable file lib.gpt).with_spec (lend_heard sound lib.gpt)) ?_
  intro result
  obtain ⟨disk, next⟩ := result
  refine Ends.assume fun _ => Ends.assume fun known => ?_
  obtain ⟨partitions, read, two⟩ := tabled
  have same : disk = .ok partitions := ((known.2 exact).calm reliable).trans read
  subst same
  refine Ends.bind (fun _ w => w.content env file.node = content) ?_ ?_
  · refine ((noteRows_ends (twoParts_noted two).1 _).with_spec (noteRows_spec _ _)).weaken
      (fun _ held => held) ?_
    exact fun _ _ met => met.2.2
  · exact fun _ => event_ends (Ends.pure fun _ _ => trivial)

/-! ### The boot files -/

theorem checkLoader_spec {node : Node} (fs : FatVolume) :
    Spec (fun w => w.content env node = content) (checkLoader lib fs)
      (.onReturn (fun issues w => issues = loaderIssues fs ∧ w.content env node = content)
        fun _ _ => True) := by
  apply event_spec
  apply event_spec
  apply events_spec
  exact fun _ held => ⟨rfl, held⟩

theorem checkUkis_spec {node : Node} (fs : FatVolume) :
    Spec (fun w => w.content env node = content) (checkUkis lib fs)
      (.onReturn (fun issues w => issues = ukiIssues fs ∧ w.content env node = content)
        fun _ _ => True) := by
  apply event_spec
  apply Spec.bind fun _ w => w.content env node = content
  · exact Spec.forM (fun _ => Spec.modify fun _ held => held) fun _ held => held
  intro _
  apply events_spec
  exact fun _ held => ⟨rfl, held⟩

theorem checkLoader_ends {node : Node} (fs : FatVolume) :
    Ends (fun w => w.content env node = content) (checkLoader lib fs)
      fun _ w => w.content env node = content := by
  apply event_ends
  apply event_ends
  exact event_ends (Ends.pure fun _ held => held)

theorem checkUkis_ends {node : Node} (fs : FatVolume) :
    Ends (fun w => w.content env node = content) (checkUkis lib fs)
      fun _ w => w.content env node = content := by
  apply event_ends
  refine Ends.bind _ (Ends.forM fun _ => Ends.modify fun _ held => held) ?_
  exact fun _ => event_ends (Ends.pure fun _ held => held)

/-- The ESP that was located holds a loader and a UKI. -/
def EspBoots (lib : Crates) (content : Bytes) (esp : Nat × Nat) : Prop :=
  ∃ fs, lib.fat (window esp content) = .ok fs ∧ Bootable fs

structure BootFound (env : Env) (lib : Crates) (content : Bytes) (esp : Nat × Nat)
    (issues : List String) : Prop where
  right : issues = [] → EspBoots lib content esp
  calm : env.Reliable → EspBoots lib content esp → issues = []

theorem checkBoot_spec (sound : file.Sound content) (esp : Option (Nat × Nat)) :
    Spec (fun w => w.content env file.node = content) (checkBoot env lib file esp)
      (.onReturn
        (fun result w => (file.Follows env content result.2 ∧
          (file.Exact env content → ∀ range, esp = some range →
            BootFound env lib content range result.1)) ∧
          w.content env file.node = content)
        fun _ _ => True) := by
  cases esp with
  | none =>
      apply event_spec
      apply events_spec
      intro w held
      refine ⟨⟨⟨rfl, sound, fun same => same⟩, fun _ range impossible => ?_⟩, held⟩
      cases impossible
  | some esp =>
      apply event_spec
      refine Spec.bind _ (lend_heard sound fun medium => lib.fat (window esp medium)) ?_
      intro result
      obtain ⟨mounted, next⟩ := result
      refine Spec.assume fun known => ?_
      obtain ⟨follows, hears⟩ := known
      cases mounted with
      | error e =>
          apply event_spec
          apply events_spec
          intro w held
          refine ⟨⟨follows, fun exact range same => ?_⟩, held⟩
          cases same
          refine ⟨fun impossible => by simp at impossible, fun calm boots => ?_⟩
          obtain ⟨fs, mounts, -⟩ := boots
          have same := ((hears exact).calm calm).trans mounts
          cases same
      | ok fs =>
          refine Spec.bind _ (checkLoader_spec fs) ?_
          intro loader
          refine Spec.assume fun same => ?_
          subst same
          refine Spec.bind _ (checkUkis_spec fs) ?_
          intro ukis
          refine Spec.assume fun same => ?_
          subst same
          apply Spec.pure
          intro w held
          refine ⟨⟨follows, fun exact range same => ?_⟩, held⟩
          cases same
          constructor
          · exact fun clean => ⟨fs, (hears exact).right fs rfl, bootIssues_eq_nil.mp clean⟩
          · intro calm boots
            obtain ⟨other, mounts, bootable⟩ := boots
            have same := ((hears exact).calm calm).trans mounts
            cases same
            exact bootIssues_eq_nil.mpr bootable

theorem checkBoot_ends (reliable : env.Reliable) (sound : file.Sound content)
    (esp : Option (Nat × Nat)) :
    Ends (fun w => w.content env file.node = content) (checkBoot env lib file esp)
      fun _ _ => True := by
  cases esp with
  | none =>
      apply event_ends
      exact event_ends (Ends.pure fun _ _ => trivial)
  | some esp =>
      apply event_ends
      have lent : Spec (fun w => w.content env file.node = content)
          (file.lend env fun medium => lib.fat (window esp medium)) _ := lend_heard sound _
      refine Ends.bind (fun _ w => w.content env file.node = content) ?_ ?_
      · refine ((DevReader.lend_ends reliable file _).with_spec lent).weaken (fun _ held => held) ?_
        exact fun _ _ met => met.2.2
      · intro result
        obtain ⟨mounted, next⟩ := result
        cases mounted with
        | error e =>
            apply event_ends
            exact event_ends (Ends.pure fun _ _ => trivial)
        | ok fs =>
            apply Ends.bind _ (checkLoader_ends fs)
            intro loader
            apply Ends.bind _ (checkUkis_ends fs)
            exact fun ukis => Ends.pure fun _ _ => trivial

/-! ### The header -/

theorem checkHeader_spec (sound : file.Sound content) (store : Option (Nat × Nat)) :
    Spec (fun w => w.content env file.node = content) (checkHeader env file store)
      (.onReturn
        (fun result w => (file.Follows env content result.2 ∧
          ∀ range, store = some range →
            (result.1 = [] ↔ window (range.1, 8) content = luksHeader)) ∧
          w.content env file.node = content)
        fun _ _ => True) := by
  cases store with
  | none =>
      apply events_spec
      intro w held
      refine ⟨⟨⟨rfl, sound, fun same => same⟩, fun range impossible => ?_⟩, held⟩
      cases impossible
  | some store =>
      apply event_spec
      refine Spec.bind _ (Spec.mapError (seekStart_held sound store.1)) ?_
      intro next
      refine Spec.assume fun known => ?_
      obtain ⟨follows, start⟩ := known
      have reads : Spec (fun w => w.content env next.node = content) (next.readExact env 8) _ :=
        readExact_held follows.sound 8
      rw [follows.node] at reads
      refine Spec.bind _ (Spec.mapError reads) ?_
      intro result
      obtain ⟨hdr, last⟩ := result
      refine Spec.assume fun read => ?_
      apply event_spec
      apply event_spec
      apply events_spec
      intro w held
      refine ⟨⟨follows.trans read.follows, fun range same => ?_⟩, held⟩
      cases same
      have isWindow : hdr = window (store.1, 8) content := by
        have bytes := read.bytes
        rw [start] at bytes
        exact bytes
      rw [← isWindow]
      exact headerIssues_eq_nil read.length

theorem checkHeader_ends (reliable : env.Reliable) (sound : file.Sound content)
    (exact : file.Exact env content) {store : Nat × Nat}
    (inside : store.1 + 8 ≤ content.length) :
    Ends (fun w => w.content env file.node = content) (checkHeader env file (some store))
      fun _ _ => True := by
  apply event_ends
  have seeks := (DevReader.seekStart_ends reliable file store.1).with_spec
    (seekStart_held sound store.1)
  refine Ends.bind _ (Ends.mapError seeks) ?_
  intro next
  refine Ends.assume fun _ => Ends.assume fun known => ?_
  obtain ⟨follows, start⟩ := known
  rw [← follows.node]
  refine Ends.bind (fun _ w => w.content env next.node = content) ?_ ?_
  · apply Ends.mapError
    refine (readExact_ends reliable follows.sound (follows.exact exact) ?_).weaken
      (fun _ held => held) fun _ _ met => met.2
    omega
  · intro result
    apply event_ends
    apply event_ends
    exact event_ends (Ends.pure fun _ _ => trivial)

/-! ### The digest of an image -/

theorem skipped_spec {node : Node} (skip : Option (Nat → Bool)) (done : Nat) :
    Spec (fun w => w.content env node = content) (skipped env skip done)
      (.onReturn
        (fun result w => (skip.any fun flag => flag done) = result ∧ w.content env node = content)
        fun _ _ => True) := by
  apply call_spec fun _ _ => trivial
  exact fun _ held => ⟨rfl, held⟩

theorem skipped_ends {node : Node} (skip : Option (Nat → Bool)) (done : Nat) :
    Ends (fun w => w.content env node = content) (skipped env skip done)
      fun result w => (skip.any fun flag => flag done) = result ∧ w.content env node = content := by
  apply call_ends
  exact fun _ held => ⟨_, _, rfl, rfl, held⟩

/-- How far `sha256_range` has got. -/
structure Hashing (env : Env) (content : Bytes) (file : DevReader)
    (st : DevReader × Bytes × Nat) : Prop where
  follows : file.Follows env content st.1
  pos : st.1.pos = st.2.2
  bound : st.2.2 ≤ content.length

theorem hashTurn_ends (reliable : env.Reliable) (exact : file.Exact env content)
    (st : DevReader × Bytes × Nat) :
    Ends (fun w => Hashing env content file st ∧ w.content env file.node = content)
      (hashTurn env lib none content.length st) fun
        | .inl next => fun w => (Hashing env content file next ∧ w.content env file.node = content) ∧
            content.length - next.2.2 < content.length - st.2.2
        | .inr digest => fun w => digest.isSome = true ∧ w.content env file.node = content := by
  obtain ⟨src, hasher, done⟩ := st
  refine Ends.assume fun hashing => ?_
  have follows : file.Follows env content src := hashing.follows
  have pos : src.pos = done := hashing.pos
  have positive : 0 < chunkSize := by decide
  by_cases full : content.length ≤ done
  · simp only [hashTurn, if_pos full]
    exact Ends.pure fun _ held => ⟨rfl, held⟩
  · simp only [hashTurn, if_neg full]
    apply Ends.bind _ (skipped_ends none done)
    intro skip
    refine Ends.assume fun unset => ?_
    have noSkip : skip = false := unset.symm
    subst noSkip
    simp only [Bool.false_eq_true, if_false]
    rw [← follows.node]
    apply Ends.bind _ (Ends.mapError (readExact_ends reliable follows.sound (follows.exact exact) _))
    · intro result
      refine Ends.assume fun read => ?_
      apply event_ends
      apply Ends.pure
      intro w held
      have moved := read.pos
      refine ⟨⟨⟨follows.trans read.follows, ?_, ?_⟩, held⟩, ?_⟩
      · rw [moved, pos]
      · change done + min chunkSize (content.length - done) ≤ content.length
        omega
      · change content.length - (done + min chunkSize (content.length - done)) <
          content.length - done
        omega
    · omega

theorem sha256Range_ends (reliable : env.Reliable) (sound : file.Sound content)
    (exact : file.Exact env content) :
    Ends (fun w => w.content env file.node = content) (sha256Range env lib file content.length none)
      fun digest w => digest.isSome = true ∧ w.content env file.node = content := by
  have seeks := (DevReader.seekStart_ends reliable file 0).with_spec (seekStart_held sound 0)
  refine Ends.bind _ (Ends.mapError seeks) ?_
  intro next
  refine Ends.assume fun _ => Ends.assume fun known => ?_
  intro w held
  refine Ends.loop
    (fun st w => Hashing env content file st ∧ w.content env file.node = content)
    (fun st => content.length - st.2.2) ?_ (next, [], 0) w ⟨⟨known.1, known.2, Nat.zero_le _⟩, held⟩
  intro st
  refine (hashTurn_ends reliable exact st).weaken (fun _ holds => holds) ?_
  intro result w met
  cases result <;> exact met

theorem checkDigest_ends (reliable : env.Reliable) (sound : file.Sound content)
    (exact : file.Exact env content) :
    Ends (fun w => w.content env file.node = content) (checkDigest env lib file content.length)
      fun _ _ => True := by
  apply event_ends
  apply event_ends
  apply Ends.bind _ (sha256Range_ends reliable sound exact)
  intro digest
  refine Ends.assume fun some => ?_
  obtain ⟨text, rfl⟩ := Option.isSome_iff_exists.mp some
  apply event_ends
  exact event_ends (Ends.pure fun _ _ => trivial)

/-- The digest is only shown. -/
theorem checkDigest_spec (targetLen : Nat) {before : VerifyWorld → Prop} :
    Spec before (checkDigest env lib file targetLen)
      (.onReturn (fun issues _ => issues = []) fun _ _ => True) := by
  have any : ∀ {β : Type} (action : Step VerifyEvent β) {before : VerifyWorld → Prop},
      Spec before action ⟨fun _ _ => True, fun _ _ => True, fun _ => True⟩ := by
    intro β action before w fuel _
    cases action w fuel <;> exact trivial
  apply Spec.bind _ (any _)
  intro _
  apply Spec.bind _ (any _)
  intro _
  apply Spec.bind _ (any _)
  intro digest
  cases digest with
  | none => exact Spec.fail fun _ _ => trivial
  | some digest =>
      apply Spec.bind _ (any _)
      intro _
      apply Spec.bind _ (any _)
      exact fun _ => Spec.pure fun _ _ => rfl

/-! ### The comparison with the image -/

/-- The operator's flag is set at a look before one of the chunks. -/
def Seen (skip : Option (Nat → Bool)) (len : Nat) : Prop :=
  ∃ flag k, skip = some flag ∧ k * chunkSize < len ∧ flag (k * chunkSize) = true

/-- The comparison has come to this chunk, without having seen the flag. -/
structure Chunked (skip : Option (Nat → Bool)) (common done : Nat) : Prop where
  bound : done ≤ common
  chunks : done < common → ∃ k, done = k * chunkSize
  unseen : ∀ flag k, skip = some flag → k * chunkSize < done → flag (k * chunkSize) = false

section Chunks

variable {skip : Option (Nat → Bool)} {common done : Nat}

variable (skip common) in
theorem Chunked.start : Chunked skip common 0 where
  bound := Nat.zero_le _
  chunks _ := ⟨0, by simp⟩
  unseen _ k _ below := absurd below (Nat.not_lt_zero _)

theorem Chunked.next (chunked : Chunked skip common done) (more : done < common)
    (unset : ∀ flag, skip = some flag → flag done = false) :
    Chunked skip common (done + min chunkSize (common - done)) := by
  obtain ⟨here, atHere⟩ := chunked.chunks more
  have positive : 0 < chunkSize := by decide
  constructor
  · omega
  · intro still
    refine ⟨here + 1, ?_⟩
    rw [Nat.succ_mul, ← atHere]
    omega
  · intro flag k isFlag below
    by_cases earlier : k * chunkSize < done
    · exact chunked.unseen flag k isFlag earlier
    · have same : k = here := by
        have low : here * chunkSize ≤ k * chunkSize := by omega
        have high : k * chunkSize < (here + 1) * chunkSize := by
          rw [Nat.succ_mul]
          omega
        have le := Nat.le_of_mul_le_mul_right low positive
        have lt := Nat.lt_of_mul_lt_mul_right high
        omega
      rw [same, ← atHere]
      exact unset flag isFlag

theorem Chunked.seen (chunked : Chunked skip common done) (more : done < common)
    (set : (skip.any fun flag => flag done) = true) : Seen skip common := by
  obtain ⟨here, atHere⟩ := chunked.chunks more
  obtain ⟨flag, isFlag, set⟩ := (Option.any_eq_true _ _).mp set
  exact ⟨flag, here, isFlag, by omega, by rw [← atHere]; exact set⟩

theorem Chunked.full (chunked : Chunked skip common done) (full : common ≤ done) :
    ¬ Seen skip common := by
  intro seen
  obtain ⟨flag, k, isFlag, below, set⟩ := seen
  rw [chunked.unseen flag k isFlag (by omega)] at set
  cases set

end Chunks

/-- How far the comparison has got, without having seen the flag. -/
structure Compared (env : Env) (content : Bytes) (file : DevReader) (path : String)
    (skip : Option (Nat → Bool)) (common : Nat) (st : Comparing) : Prop where
  follows : file.Follows env content st.file
  pos : st.file.pos = st.done
  imgFollows : (DevReader.file (.image path) 0).Follows env (env.image path) st.imgFile
  imgPos : st.imgFile.pos = st.done
  dev : st.devHasher = content.take st.done
  img : st.imgHasher = (env.image path).take st.done
  bound : st.done ≤ common
  chunks : st.done < common → ∃ k, st.done = k * chunkSize
  unseen : ∀ flag k, skip = some flag → k * chunkSize < st.done → flag (k * chunkSize) = false

variable {path : String} {skip : Option (Nat → Bool)} {common : Nat}

theorem Compared.chunked {st : Comparing}
    (compared : Compared env content file path skip common st) : Chunked skip common st.done :=
  ⟨compared.bound, compared.chunks, compared.unseen⟩

/-- A chunk of both brings the comparison on. -/
theorem Compared.next {st : Comparing} (compared : Compared env content file path skip common st)
    (more : st.done < common) (unset : ∀ flag, skip = some flag → flag st.done = false)
    {bufDev bufImg : Bytes} {src imgFile : DevReader}
    (readDev : st.file.Reads env content (min chunkSize (common - st.done)) bufDev src)
    (readImg : st.imgFile.Reads env (env.image path) (min chunkSize (common - st.done)) bufImg
      imgFile) :
    Compared env content file path skip common
      ⟨src, imgFile, st.devHasher ++ bufDev, st.imgHasher ++ bufImg,
        st.done + min chunkSize (common - st.done)⟩ := by
  have chunked := compared.chunked.next more unset
  refine ⟨compared.follows.trans readDev.follows, ?_, compared.imgFollows.trans readImg.follows, ?_,
    ?_, ?_, chunked.bound, chunked.chunks, chunked.unseen⟩
  · rw [readDev.pos, compared.pos]
  · rw [readImg.pos, compared.imgPos]
  · change st.devHasher ++ bufDev = content.take _
    rw [compared.dev, readDev.bytes, compared.pos, List.take_add]
  · change st.imgHasher ++ bufImg = (env.image path).take _
    rw [compared.img, readImg.bytes, compared.imgPos, List.take_add]

/-- The comparison is skipped, or it has hashed the common prefix of both. -/
def Settled (env : Env) (content : Bytes) (path : String) (skip : Option (Nat → Bool))
    (common : Nat) : Option (Bytes × Bytes) → Prop
  | none => Seen skip common
  | some hashed => ¬ Seen skip common ∧ hashed.1 = content.take common ∧
      hashed.2 = (env.image path).take common

theorem Compared.settled {st : Comparing}
    (compared : Compared env content file path skip common st) (full : common ≤ st.done) :
    Settled env content path skip common (some (st.devHasher, st.imgHasher)) := by
  have all : st.done = common := Nat.le_antisymm compared.bound full
  refine ⟨compared.chunked.full full, ?_, ?_⟩
  · rw [← all]
    exact compared.dev
  · rw [← all]
    exact compared.img

theorem compareTurn_spec (st : Comparing) :
    Spec
      (fun w => Compared env content file path skip common st ∧ w.content env file.node = content)
      (compareTurn env skip common st)
      (.onReturn
        (fun
          | .inl next => fun w => (Compared env content file path skip common next ∧
              st.done < next.done) ∧ w.content env file.node = content
          | .inr hashed => fun w => Settled env content path skip common hashed ∧
              w.content env file.node = content)
        fun _ _ => True) := by
  refine Spec.assume fun compared => ?_
  by_cases full : common ≤ st.done
  · simp only [compareTurn, if_pos full]
    exact Spec.pure fun _ held => ⟨compared.settled full, held⟩
  · simp only [compareTurn, if_neg full]
    have more : st.done < common := by omega
    refine Spec.bind _ (skipped_spec skip st.done) ?_
    intro set
    refine Spec.assume fun looked => ?_
    cases set with
    | true =>
        simp only [if_true]
        exact Spec.pure fun _ held => ⟨compared.chunked.seen more looked, held⟩
    | false =>
        simp only [Bool.false_eq_true, if_false]
        have unset : ∀ flag, skip = some flag → flag st.done = false := by
          intro flag isFlag
          rw [isFlag] at looked
          exact looked
        rw [← compared.follows.node]
        refine Spec.bind _ (Spec.mapError (readExact_held compared.follows.sound _)) ?_
        intro result
        obtain ⟨bufDev, src⟩ := result
        refine Spec.assume fun readDev => ?_
        refine Spec.bind _ (Spec.mapError (readImage_held compared.imgFollows _)) ?_
        intro result
        obtain ⟨bufImg, imgFile⟩ := result
        refine Spec.assume fun readImg => ?_
        apply events_spec
        intro w held
        refine ⟨⟨compared.next more unset readDev readImg, ?_⟩, held⟩
        change st.done < st.done + min chunkSize (common - st.done)
        have positive : 0 < chunkSize := by decide
        omega

theorem compareTurn_ends (reliable : env.Reliable) (exact : file.Exact env content)
    (inside : common ≤ content.length) (insideImg : common ≤ (env.image path).length)
    (st : Comparing) :
    Ends
      (fun w => Compared env content file path skip common st ∧ w.content env file.node = content)
      (compareTurn env skip common st) fun _ _ => True := by
  refine Ends.assume fun compared => ?_
  by_cases full : common ≤ st.done
  · simp only [compareTurn, if_pos full]
    exact Ends.pure fun _ _ => trivial
  · simp only [compareTurn, if_neg full]
    apply Ends.bind _ (skipped_ends skip st.done)
    intro set
    refine Ends.assume fun _ => ?_
    cases set with
    | true =>
        simp only [if_true]
        exact Ends.pure fun _ _ => trivial
    | false =>
        simp only [Bool.false_eq_true, if_false]
        have pos := compared.pos
        have imgPos := compared.imgPos
        have exactImg := compared.imgFollows.exact trivial
        rw [← compared.follows.node]
        apply Ends.bind fun _ _ => True
        · apply Ends.mapError
          refine (readExact_ends reliable compared.follows.sound (compared.follows.exact exact)
            ?_).weaken (fun _ held => held) fun _ _ _ => trivial
          omega
        · intro result
          apply Ends.bind fun _ _ => True
          · apply Ends.mapError
            have image : ∀ w : VerifyWorld, w.content env st.imgFile.node = env.image path := by
              intro w
              rw [compared.imgFollows.node]
              rfl
            refine (readExact_ends reliable compared.imgFollows.sound exactImg ?_).weaken
              (fun w _ => image w) fun _ _ _ => trivial
            omega
          · intro result
            apply Ends.bind fun _ _ => True
            · exact Ends.modify fun _ _ => trivial
            · exact fun _ => Ends.pure fun _ _ => trivial

/-- The comparison starts with both handles at the start. -/
theorem Compared.start {src : DevReader} (follows : file.Follows env content src)
    (pos : src.pos = 0) :
    Compared env content file path skip common ⟨src, .file (.image path) 0, [], [], 0⟩ where
  follows := follows
  pos := pos
  imgFollows := ⟨rfl, trivial, fun _ => trivial⟩
  imgPos := rfl
  dev := rfl
  img := rfl
  bound := (Chunked.start skip common).bound
  chunks := (Chunked.start skip common).chunks
  unseen := (Chunked.start skip common).unseen

theorem compare_spec (st : Comparing) :
    Spec
      (fun w => Compared env content file path skip common st ∧ w.content env file.node = content)
      (loop (compareTurn env skip common) st)
      (.onReturn
        (fun hashed w => Settled env content path skip common hashed ∧
          w.content env file.node = content)
        fun _ _ => True) := by
  refine Spec.loop
    (fun st (w : VerifyWorld) => Compared env content file path skip common st ∧
      w.content env file.node = content)
    (fun _ _ _ => trivial) ?_ st
  intro st
  refine (compareTurn_spec st).imp ?_
  intro result w met
  cases result with
  | inl next => exact ⟨met.1.1, met.2⟩
  | inr hashed => exact met

theorem compare_ends (reliable : env.Reliable) (exact : file.Exact env content)
    (inside : common ≤ content.length) (insideImg : common ≤ (env.image path).length)
    (st : Comparing) :
    Ends
      (fun w => Compared env content file path skip common st ∧ w.content env file.node = content)
      (loop (compareTurn env skip common) st) fun _ _ => True := by
  refine Ends.loop
    (fun st (w : VerifyWorld) => Compared env content file path skip common st ∧
      w.content env file.node = content)
    (fun st => common - st.done) ?_ st
  intro st
  refine ((compareTurn_ends reliable exact inside insideImg st).with_spec
    (compareTurn_spec st)).weaken (fun _ holds => holds) ?_
  intro result w met
  obtain ⟨-, met⟩ := met
  cases result with
  | inr hashed => exact trivial
  | inl next =>
      obtain ⟨⟨compared, further⟩, held⟩ := met
      refine ⟨⟨compared, held⟩, ?_⟩
      have bound := compared.bound
      omega

/-! ### The whole target -/

/-- What a device with a reference image has to be like, unless skipped. -/
def Faithful (env : Env) (lib : Crates) (content : Bytes) (isDevice : Bool)
    (fidelityImage : Option String) (skip : Option (Nat → Bool)) : Prop :=
  isDevice = true → ∀ path, fidelityImage = some path →
    (env.image path).length ≤ content.length ∧
      (Seen skip (env.image path).length ∨ Carries lib content (env.image path))

theorem checkFidelity_spec (sound : file.Sound content) (path : String) :
    Spec (fun w => w.content env file.node = content)
      (checkFidelity env lib file content.length path skip)
      (.onReturn
        (fun issues _ => issues = [] ↔ (env.image path).length ≤ content.length ∧
          (Seen skip (env.image path).length ∨ Carries lib content (env.image path)))
        fun _ _ => True) := by
  apply event_spec
  have asked : ∀ {β : Type} (answer : Reply → β), Preserves World.devices
      (ask env answer : Io VerifyWorld β) := fun answer => (ask_still env answer).comp World.devices
  have stat : Spec (fun w : VerifyWorld => w.content env file.node = content)
      (ask env fun _ => (env.image path).length)
      (.onReturn
        (fun len w => (env.image path).length = len ∧ w.content env file.node = content)
        fun _ _ => True) := by
    have told : Spec (fun w : VerifyWorld => w.content env file.node = content)
        (ask env fun _ => (env.image path).length)
        (.onReturn (fun len _ => (env.image path).length = len) fun _ _ => True) := by
      apply call_spec fun _ _ => trivial
      intro w _
      cases (env.reply w.clock).error with
      | some e => exact trivial
      | none => rfl
    exact Spec.holding told (asked _)
  refine Spec.bind _ (Spec.mapError stat) ?_
  intro imgLen
  refine Spec.assume fun same => ?_
  subst same
  apply event_spec
  apply Spec.bind fun _ w => w.content env file.node = content
  · apply Spec.mapError
    exact (content_kept (asked _)).imp fun _ _ held => held
  intro _
  refine Spec.bind _ (Spec.mapError (seekStart_held sound 0)) ?_
  intro src
  refine Spec.assume fun known => ?_
  refine Spec.bind _ ((compare_spec _).weaken
    (fun w held => ⟨Compared.start known.1 known.2, held⟩) (fun _ _ met => met)
    (fun _ _ _ => trivial) fun _ _ => trivial) ?_
  intro hashed
  refine Spec.assume fun settled => ?_
  have sized : sizeIssues lib content.length (env.image path).length = [] ↔
      (env.image path).length ≤ content.length := by
    unfold sizeIssues
    by_cases smaller : content.length < (env.image path).length
    · simp [smaller]
    · simp [smaller, Nat.le_of_not_lt smaller]
  cases hashed with
  | none =>
      apply event_spec
      apply events_spec
      intro w _
      change sizeIssues lib content.length (env.image path).length = [] ↔ _
      rw [sized]
      constructor
      · intro fits
        refine ⟨fits, Or.inl ?_⟩
        rw [Nat.min_eq_left fits] at settled
        exact settled
      · exact fun met => met.1
  | some hashed =>
      obtain ⟨dev, image⟩ := hashed
      obtain ⟨unseen, isDev, isImage⟩ := settled
      apply event_spec
      apply event_spec
      apply events_spec
      intro w _
      change sizeIssues lib content.length (env.image path).length ++
        digestIssues (hex (lib.sha256 dev)) (hex (lib.sha256 image)) = [] ↔ _
      rw [List.append_eq_nil_iff, sized]
      refine and_congr_right fun fits => ?_
      rw [Nat.min_eq_left fits] at unseen isDev isImage
      have whole : image = env.image path := by
        rw [show image = (env.image path).take (env.image path).length from isImage,
          List.take_length]
      have prefix_ : dev = content.take (env.image path).length := isDev
      rw [whole, prefix_]
      unfold digestIssues Carries
      simp [unseen, fits]

theorem checkFidelity_ends (reliable : env.Reliable) (sound : file.Sound content)
    (exact : file.Exact env content) (path : String) :
    Ends (fun w => w.content env file.node = content)
      (checkFidelity env lib file content.length path skip) fun _ _ => True := by
  have asked : ∀ {β : Type} (answer : Reply → β), Preserves World.devices
      (ask env answer : Io VerifyWorld β) := fun answer => (ask_still env answer).comp World.devices
  apply event_ends
  apply Ends.bind fun imgLen w => (env.image path).length = imgLen ∧ w.content env file.node = content
  · apply Ends.mapError
    apply call_ends
    intro w held
    simp only [reliable.answers]
    exact ⟨_, _, rfl, rfl, held⟩
  intro imgLen
  refine Ends.assume fun same => ?_
  subst same
  apply event_ends
  apply Ends.bind fun _ w => w.content env file.node = content
  · apply Ends.mapError
    exact ((ask_ends reliable _).with_spec (content_kept (asked _))).weaken (fun _ held => held)
      fun _ _ met => met.2
  intro _
  refine Ends.bind _ (Ends.mapError ((DevReader.seekStart_ends reliable file 0).with_spec
    (seekStart_held sound 0))) ?_
  intro src
  refine Ends.assume fun _ => Ends.assume fun known => ?_
  apply Ends.bind fun _ _ => True
  · exact (compare_ends reliable exact (Nat.min_le_right _ _) (Nat.min_le_left _ _) _).weaken
      (fun w held => ⟨Compared.start known.1 known.2, held⟩) fun _ _ met => met
  intro hashed
  have event : ∀ {β : Type} (event : VerifyEvent) {rest : Step VerifyEvent β}
      {ok : β → VerifyWorld → Prop}, Ends (fun _ => True) rest ok →
      Ends (fun _ => True) (send event >>= fun _ => rest) ok :=
    fun event _ _ ends => Ends.bind _ (Ends.modify fun _ _ => trivial) fun _ => ends
  cases hashed with
  | none =>
      apply event
      exact event _ (Ends.pure fun _ _ => trivial)
  | some hashed =>
      apply event
      apply event
      exact event _ (Ends.pure fun _ _ => trivial)

theorem checkWhole_spec (sound : file.Sound content) (isDevice : Bool)
    (fidelityImage : Option String) :
    Spec (fun w => w.content env file.node = content)
      (checkWhole env lib file content.length isDevice fidelityImage skip)
      (.onReturn
        (fun issues _ => issues = [] ↔ Faithful env lib content isDevice fidelityImage skip)
        fun _ _ => True) := by
  cases isDevice with
  | false =>
      refine (checkDigest_spec content.length).imp ?_
      intro issues w clean
      refine ⟨fun _ impossible => ?_, fun _ => clean⟩
      cases impossible
  | true =>
      cases fidelityImage with
      | none =>
          apply event_spec
          apply events_spec
          intro w _
          refine ⟨fun _ _ path impossible => ?_, fun _ => rfl⟩
          cases impossible
      | some path =>
          refine (checkFidelity_spec sound path).imp ?_
          intro issues w met
          refine Iff.trans met ⟨?_, fun faithful => faithful rfl path rfl⟩
          intro faithful _ other same
          cases same
          exact faithful

theorem checkWhole_ends (reliable : env.Reliable) (sound : file.Sound content)
    (exact : file.Exact env content) (isDevice : Bool) (fidelityImage : Option String) :
    Ends (fun w => w.content env file.node = content)
      (checkWhole env lib file content.length isDevice fidelityImage skip) fun _ _ => True := by
  cases isDevice with
  | false => exact checkDigest_ends reliable sound exact
  | true =>
      cases fidelityImage with
      | none =>
          apply event_ends
          exact event_ends (Ends.pure fun _ _ => trivial)
      | some path => exact checkFidelity_ends reliable sound exact path

end Checks

end Nixnas.Tui.Verify
