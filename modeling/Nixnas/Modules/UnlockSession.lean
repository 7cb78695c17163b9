import Mathlib.Algebra.BigOperators.Group.List.Lemmas
import Nixnas.Modules.Connect
import Nixnas.Systemd.Transaction

/-!
# Unlocking the storage of a usb-mode host

What starting `nixnas-storage.target` does: the start jobs of the units the
target pulls, the questions of the members that are opened, and systemd's
password cache.  A member begins with the cached passphrases and asks on the
terminal when none of them opens it; an answer is cached before it is tried; a
member is tried three times.  Cached passphrases expire.

The members are chained so that the cache is warm for all but the first.  A
member whose disk does not appear breaks the chain, because what is ordered
after a cancelled job may begin: it lets one more member ask.
-/

set_option autoImplicit false

namespace Nixnas.Modules.UnlockSession

open Nixnas.Logic
open Nixnas.Systemd
open Nixnas.Modules.Connect

variable (config : Config)

/-! ## The jobs -/

def targetUnit : String := "nixnas-storage.target"

/-- The `After=` of the units the module writes. -/
def unitAfter (unit : String) : List String :=
  if unit = targetUnit then ((targets config).lookup "nixnas-storage").elim [] Target.after
  else (services config).attrNames.flatMap fun name =>
    if serviceUnit name = unit then ((services config).lookup name).elim [] Service.after else []

/-- systemd finds a unit for the name: one generated from the crypttab, or the
service of an import. -/
def Loaded (unit : String) : Prop := unit ∈ memberUnits config ∨ unit ∈ importUnits config

instance (unit : String) : Decidable (Loaded config unit) :=
  inferInstanceAs (Decidable (_ ∨ _))

/-- The units that starting the storage target pulls. -/
def pulled : List String :=
  (((targets config).lookup "nixnas-storage").elim [] Target.wants).filter (Loaded config) ++
    [targetUnit]

def transaction : Transaction String := ⟨pulled config, unitAfter config⟩

/-! ## The session -/

/-- `tries=` of crypttab(5), which the module leaves at its default. -/
def maxTries : Nat := 3

structure Session where
  phases : String → Phase
  /-- The members whose question is on the terminal. -/
  asking : List String
  /-- How often a member was tried. -/
  tried : String → Nat
  opened : List String
  /-- systemd's password cache, latest first. -/
  cache : List String
  /-- Every answer the operator gave. -/
  typed : List String
  questions : Nat
  misses : Nat
  right : Nat
  expiries : Nat

inductive Event where
  | begin (unit : String)
  | finish (unit : String) (success : Bool)
  | cancel (unit : String)
  | answer (unit word : String)
  | consult (unit : String)
  | expire
  deriving DecidableEq, Repr

namespace Session

variable (opens : String → String → Bool) (session : Session) (unit : String)

def idle : Session where
  phases := Transaction.queued
  asking := []
  tried _ := 0
  opened := []
  cache := []
  typed := []
  questions := 0
  misses := 0
  right := 0
  expiries := 0

/-- The member begins: a cached passphrase opens it, or it asks.  A cache that
holds wrong ones only costs it a try. -/
def unlock : Session :=
  if session.cache.any (opens unit) then { session with opened := unit :: session.opened }
  else
    { session with
      asking := unit :: session.asking
      tried := Function.update session.tried unit (if session.cache.isEmpty then 0 else 1)
      questions := session.questions + 1 }

/-- The question of the member is answered, and its passphrase is right. -/
def accept : Session :=
  { session with
    asking := session.asking.erase unit
    opened := unit :: session.opened
    right := session.right + 1 }

/-- An answer of the operator. -/
def reply (word : String) : Session :=
  let session :=
    { session with cache := word :: session.cache, typed := word :: session.typed }
  if opens unit word then session.accept unit
  else if session.tried unit + 1 < maxTries then
    { session with
      tried := Function.update session.tried unit (session.tried unit + 1)
      questions := session.questions + 1
      misses := session.misses + 1 }
  else
    { session with asking := session.asking.erase unit, misses := session.misses + 1 }

/-- A member that asks for the first time also takes what is cached meanwhile.
When none of it opens the member, it asks again. -/
def consult : Session :=
  if session.cache.any (opens unit) then session.accept unit
  else
    { session with
      tried := Function.update session.tried unit 1
      questions := session.questions + 1
      misses := session.misses + 1 }

/-- The unit ends, with its question if it still asks. -/
def close : Session :=
  if unit ∈ session.asking then
    { session with asking := session.asking.erase unit, misses := session.misses + 1 }
  else session

end Session

/-- What may end how: a member succeeds when it is open, and a target always does. -/
def MayEnd (session : Session) (unit : String) (success : Bool) : Prop :=
  if unit = targetUnit then success = true
  else if unit ∈ unlockUnits config then success = true → unit ∈ session.opened
  else True

instance (session : Session) (unit : String) (success : Bool) :
    Decidable (MayEnd config session unit success) :=
  inferInstanceAs (Decidable (ite _ _ (ite _ _ _)))

def step (opens : String → String → Bool) (session : Session) : Event → Option Session
  | .begin unit =>
      ((transaction config).step session.phases (.begin unit)).map fun phases =>
        if unit ∈ unlockUnits config then ({ session with phases := phases }).unlock opens unit
        else { session with phases := phases }
  | .finish unit success =>
      if MayEnd config session unit success then
        ((transaction config).step session.phases (.finish unit success)).map fun phases =>
          ({ session with phases := phases }).close unit
      else none
  | .cancel unit =>
      -- Only a member requires something that may not appear, its device.
      if unit ∈ unlockUnits config then
        ((transaction config).step session.phases (.cancel unit)).map fun phases =>
          { session with phases := phases }
      else none
  | .answer unit word =>
      if unit ∈ session.asking then some (session.reply opens unit word) else none
  | .consult unit =>
      if unit ∈ session.asking ∧ session.tried unit = 0 ∧ session.cache ≠ [] then
        some (session.consult opens unit)
      else none
  | .expire => some { session with cache := [], expiries := session.expiries + 1 }

def machine (opens : String → String → Bool) : Machine Session Event :=
  .ofStep (fun session => session = .idle) (step config opens)

/-- The members whose job was cancelled. -/
def missing (session : Session) : Nat :=
  Transaction.cancelled session.phases (unlockUnits config)

/-! ## The unit graph -/

variable {config}

theorem serviceUnit_ne_targetUnit (service : String) : serviceUnit service ≠ targetUnit := by
  intro same
  have ends := congrArg (fun name => name.toList.getLast?) same
  have inService : ".service".toList = ".servic".toList ++ ['e'] := by decide
  have inTarget : targetUnit.toList.getLast? = some 't' := by decide
  simp only [serviceUnit, String.toList_append, inService, inTarget] at ends
  rw [← List.append_assoc, List.getLast?_concat, Option.some.injEq] at ends
  revert ends
  decide

theorem unlockUnit_cases {unit : String} (member : unit ∈ unlockUnits config) :
    ∃ name, unit = serviceUnit (unlockService name) := by
  obtain ⟨name, _, rfl⟩ := List.mem_map.mp member
  exact ⟨name, rfl⟩

theorem importUnit_cases {unit : String} (member : unit ∈ importUnits config) :
    ∃ pool ∈ config.nixnas.storage.zfsPools, unit = serviceUnit (importService pool) := by
  obtain ⟨pool, declared, rfl⟩ := List.mem_map.mp member
  exact ⟨pool, declared, rfl⟩

theorem target_not_member : targetUnit ∉ unlockUnits config := by
  intro member
  obtain ⟨name, same⟩ := unlockUnit_cases member
  exact serviceUnit_ne_targetUnit _ same.symm

theorem import_not_member {unit : String} (importing : unit ∈ importUnits config) :
    unit ∉ unlockUnits config := by
  intro member
  obtain ⟨name, same⟩ := unlockUnit_cases member
  obtain ⟨pool, _, rfl⟩ := importUnit_cases importing
  exact unlockService_ne_importService name pool (serviceUnit_injective same).symm

theorem mem_unitAfter_service {name earlier : String} {service : Service}
    (found : (services config).lookup name = some service) :
    earlier ∈ unitAfter config (serviceUnit name) ↔ earlier ∈ service.after := by
  rw [unitAfter, if_neg (serviceUnit_ne_targetUnit name), List.mem_flatMap]
  constructor
  · rintro ⟨other, _, isAfter⟩
    by_cases same : serviceUnit other = serviceUnit name
    · rw [if_pos same, serviceUnit_injective same, found] at isAfter
      exact isAfter
    · simp [if_neg same] at isAfter
  · intro isAfter
    refine ⟨name, (AttrSet.mem_attrNames _ _).mpr ⟨service, found⟩, ?_⟩
    rwa [if_pos rfl, found]

theorem enabled_of_unlocks (emitted : unlocks config = true) : config.nixnas.enable = true := by
  simp only [unlocks, Bool.and_eq_true] at emitted
  exact emitted.1

section Usb

variable (emitted : unlocks config = true) (usb : config.nixnas.location = .usb)
include emitted usb

omit emitted in
theorem storageTarget_wants : (storageTarget config).wants =
    unlockUnits config ++ importUnits config := by
  simp [storageTarget, isHot_of_usb usb]

theorem mem_unitAfter_target (earlier : String) :
    earlier ∈ unitAfter config targetUnit ↔
      earlier ∈ unlockUnits config ∨ earlier ∈ importUnits config := by
  rw [unitAfter, if_pos rfl, lookup_target emitted]
  simp [storageTarget, isHot_of_usb usb]

theorem mem_unitAfter_import {unit : String} (importing : unit ∈ importUnits config)
    (earlier : String) :
    earlier ∈ unitAfter config unit ↔ earlier ∈ unlockUnits config := by
  obtain ⟨pool, declared, rfl⟩ := importUnit_cases importing
  rw [mem_unitAfter_service (lookup_importService (enabled_of_unlocks emitted) declared)]
  simp [importDefinition, isHot_of_usb usb]

omit usb in
/-- A member is after the one before it, and after nothing else. -/
theorem mem_unitAfter_member (later earlier : String) (member : later ∈ unlockUnits config) :
    earlier ∈ unitAfter config later ↔ ChainEdge (unlockUnits config) later earlier := by
  obtain ⟨i, atLater⟩ := List.mem_iff_getElem?.mp member
  obtain ⟨inBounds, same⟩ := List.getElem?_eq_some_iff.mp atLater
  have inNames : i < (unlockNames config).length := by simpa [unlockUnits] using inBounds
  have named : later = serviceUnit (unlockService (unlockNames config)[i]) := by
    rw [← same]
    simp [unlockUnits]
  rw [named, mem_unitAfter_service (lookup_unlockService emitted inNames), mem_drop_in_after,
    ← named]
  constructor
  · rintro ⟨positive, before⟩
    exact ⟨i - 1, by rwa [Nat.sub_add_cancel positive], before⟩
  · rintro ⟨j, atLaterAgain, before⟩
    have position : i = j + 1 := position_unique (unlockUnits_nodup config) atLater atLaterAgain
    subst position
    exact ⟨Nat.succ_pos j, before⟩

section Plain

variable (plain : ∀ name device, config.nixnas.storage.unlock.lookup name = some device →
  PlainMember name device)
include plain

omit usb in
theorem loaded_of_member {unit : String} (member : unit ∈ unlockUnits config) :
    Loaded config unit := by
  obtain ⟨name, declared, rfl⟩ := List.mem_map.mp member
  obtain ⟨device, found⟩ := (mem_unlockNames config name).mp declared
  have entry := (mem_crypttabMembers_of_plain (enabled_of_unlocks emitted) plain _).mpr
    ⟨name, device, found, rfl⟩
  exact .inl ((mem_memberUnits _).mpr
    ⟨_, entry, cryptsetupUnit_of_fixed (plain name device found).2.1⟩)

/-- Starting the target pulls every member and every import. -/
theorem mem_pulled (unit : String) :
    unit ∈ pulled config ↔
      unit ∈ unlockUnits config ∨ unit ∈ importUnits config ∨ unit = targetUnit := by
  rw [pulled, lookup_target emitted, Option.elim_some, storageTarget_wants usb,
    List.mem_append, List.mem_filter, List.mem_append, List.mem_singleton, decide_eq_true_eq]
  constructor
  · rintro (⟨member | importing, _⟩ | isTarget)
    · exact .inl member
    · exact .inr (.inl importing)
    · exact .inr (.inr isTarget)
  · rintro (member | importing | isTarget)
    · exact .inl ⟨.inl member, loaded_of_member emitted plain member⟩
    · exact .inl ⟨.inr importing, .inr importing⟩
    · exact .inr isTarget

/-- Members come in their order, then the imports, then the target. -/
def rank (config : Config) (unit : String) : Nat :=
  if unit = targetUnit then (unlockUnits config).length + 1 else (unlockUnits config).idxOf unit

theorem rank_ordered (unit : String) (isPulled : unit ∈ pulled config) (earlier : String)
    (isAfter : earlier ∈ unitAfter config unit) : rank config earlier < rank config unit := by
  have memberRank : ∀ {other}, other ∈ unlockUnits config →
      rank config other < (unlockUnits config).length := by
    intro other member
    have notTarget : other ≠ targetUnit := fun same => target_not_member (same ▸ member)
    rw [rank, if_neg notTarget]
    exact List.idxOf_lt_length_of_mem member
  have importRank : ∀ {other}, other ∈ importUnits config →
      rank config other = (unlockUnits config).length := by
    intro other importing
    obtain ⟨pool, _, named⟩ := importUnit_cases importing
    have notTarget : other ≠ targetUnit := named ▸ serviceUnit_ne_targetUnit _
    rw [rank, if_neg notTarget]
    exact List.idxOf_eq_length (import_not_member importing)
  rcases (mem_pulled emitted usb plain unit).mp isPulled with member | importing | rfl
  · obtain ⟨i, atLater, atEarlier⟩ := (mem_unitAfter_member emitted unit earlier member).mp isAfter
    have notTarget : ∀ {other}, other ∈ unlockUnits config → other ≠ targetUnit :=
      fun inUnits same => target_not_member (same ▸ inUnits)
    have position : ∀ {j : Nat} {other}, (unlockUnits config)[j]? = some other →
        rank config other = j := by
      intro j other found
      rw [rank, if_neg (notTarget (List.mem_of_getElem? found))]
      obtain ⟨inBounds, rfl⟩ := List.getElem?_eq_some_iff.mp found
      exact (unlockUnits_nodup config).idxOf_getElem j inBounds
    rw [position atLater, position atEarlier]
    exact Nat.lt_succ_self i
  · rw [importRank importing]
    exact memberRank ((mem_unitAfter_import emitted usb importing earlier).mp isAfter)
  · have last : rank config targetUnit = (unlockUnits config).length + 1 := if_pos rfl
    rw [last]
    rcases (mem_unitAfter_target emitted usb earlier).mp isAfter with member | importing
    · have less := memberRank member
      omega
    · have same := importRank importing
      omega

end Plain

end Usb

/-! ## The phases of a session -/

section Runs

variable {opens : String → String → Bool}

namespace Session

section Operations

variable (session : Session) (unit word : String)

@[simp] theorem unlock_phases : (session.unlock opens unit).phases = session.phases := by
  unfold unlock
  split <;> rfl

@[simp] theorem reply_phases : (session.reply opens unit word).phases = session.phases := by
  unfold reply
  dsimp only
  split
  · rfl
  · split <;> rfl

@[simp] theorem consult_phases : (session.consult opens unit).phases = session.phases := by
  unfold consult
  split <;> rfl

@[simp] theorem close_phases : (session.close unit).phases = session.phases := by
  unfold close
  split <;> rfl

end Operations

variable {session : Session} {unit word : String}

/-! ## Questions -/

/-- Every question is on the terminal, was missed, or was answered right. -/
def Balanced (session : Session) : Prop :=
  session.questions = session.asking.length + session.misses + session.right

theorem balanced_unlock (balanced : session.Balanced) :
    (session.unlock opens unit).Balanced := by
  unfold Balanced at balanced
  unfold unlock Balanced
  split
  · exact balanced
  · simp only [List.length_cons]
    omega

theorem asking_erase_length (asks : unit ∈ session.asking) :
    (session.asking.erase unit).length + 1 = session.asking.length := by
  have positive := List.length_pos_of_mem asks
  rw [List.length_erase_of_mem asks]
  omega

theorem balanced_accept (session : Session) (asks : unit ∈ session.asking) (balanced : session.Balanced) :
    (session.accept unit).Balanced := by
  have shorter := asking_erase_length asks
  unfold Balanced at balanced
  unfold accept Balanced
  dsimp only
  omega

theorem balanced_reply (asks : unit ∈ session.asking) (balanced : session.Balanced) :
    (session.reply opens unit word).Balanced := by
  have shorter := asking_erase_length asks
  unfold reply
  dsimp only
  split
  · exact balanced_accept { session with
      cache := word :: session.cache, typed := word :: session.typed } asks balanced
  · unfold Balanced at balanced
    split
    · unfold Balanced
      dsimp only
      omega
    · unfold Balanced
      dsimp only
      omega

theorem balanced_consult (asks : unit ∈ session.asking) (balanced : session.Balanced) :
    (session.consult opens unit).Balanced := by
  unfold consult
  split
  · exact balanced_accept session asks balanced
  · unfold Balanced at balanced
    unfold Balanced
    dsimp only
    omega

theorem balanced_close (balanced : session.Balanced) : (session.close unit).Balanced := by
  unfold close
  split
  · rename_i asks
    have shorter := asking_erase_length asks
    unfold Balanced at balanced
    unfold Balanced
    dsimp only
    omega
  · exact balanced

/-! ## Right answers -/

/-- Since the cache last expired, the right answers given and the questions still
open are no more than `bound`, and none was given while the passphrase is not
cached. -/
def Spent (phrase : String) (bound : Nat) (session : Session) : Prop :=
  ∃ now, session.right ≤ session.expiries * bound + now ∧
    (phrase ∉ session.cache → now = 0) ∧ session.asking.length + now ≤ bound

variable {phrase : String} {bound : Nat}

theorem Spent.mono {larger : Nat} (spent : session.Spent phrase bound) (le : bound ≤ larger) :
    session.Spent phrase larger := by
  obtain ⟨now, total, cold, current⟩ := spent
  refine ⟨now, total.trans ?_, cold, current.trans le⟩
  have scaled := Nat.mul_le_mul_left session.expiries le
  omega

theorem cached_any (shared : ∀ word, opens unit word = decide (word = phrase)) :
    session.cache.any (opens unit) = true ↔ phrase ∈ session.cache := by
  simp [shared]

theorem spent_unlock (session : Session) (shared : ∀ word, opens unit word = decide (word = phrase))
    (spent : session.Spent phrase bound)
    (few : (session.unlock opens unit).asking.length ≤ bound) :
    (session.unlock opens unit).Spent phrase bound := by
  obtain ⟨now, total, cold, current⟩ := spent
  by_cases warm : session.cache.any (opens unit) = true
  · rw [unlock, if_pos warm]
    exact ⟨now, total, cold, current⟩
  · -- No right answer was given since the cache expired, so only the questions count.
    have none := cold fun cached => warm ((cached_any shared).mpr cached)
    subst none
    rw [unlock, if_neg warm] at few ⊢
    exact ⟨0, total, fun _ => rfl, few⟩

theorem spent_accept (asks : unit ∈ session.asking) (cached : phrase ∈ session.cache)
    (spent : session.Spent phrase bound) : (session.accept unit).Spent phrase bound := by
  obtain ⟨now, total, _, current⟩ := spent
  have shorter := asking_erase_length asks
  refine ⟨now + 1, ?_, fun missing => absurd cached missing, ?_⟩
  · simp only [accept]
    omega
  · simp only [accept]
    omega

theorem spent_reply (shared : ∀ word, opens unit word = decide (word = phrase))
    (asks : unit ∈ session.asking) (spent : session.Spent phrase bound) :
    (session.reply opens unit word).Spent phrase bound := by
  obtain ⟨now, total, cold, current⟩ := spent
  have cachedCold : phrase ∉ word :: session.cache → now = 0 := fun missing =>
    cold fun cached => missing (List.mem_cons_of_mem _ cached)
  unfold reply
  dsimp only
  split
  · rename_i opening
    rw [shared word, decide_eq_true_eq] at opening
    subst word
    exact spent_accept asks List.mem_cons_self ⟨now, total, cachedCold, current⟩
  · split
    · exact ⟨now, total, cachedCold, current⟩
    · have shorter := asking_erase_length asks
      exact ⟨now, total, cachedCold, by dsimp only; omega⟩

theorem spent_consult (shared : ∀ word, opens unit word = decide (word = phrase))
    (asks : unit ∈ session.asking) (spent : session.Spent phrase bound) :
    (session.consult opens unit).Spent phrase bound := by
  unfold consult
  split
  · rename_i warm
    exact spent_accept asks ((cached_any shared).mp warm) spent
  · exact spent

theorem spent_close (session : Session) (spent : session.Spent phrase bound) :
    (session.close unit).Spent phrase bound := by
  unfold close
  split
  · rename_i asks
    obtain ⟨now, total, cold, current⟩ := spent
    have shorter := asking_erase_length asks
    exact ⟨now, total, cold, by dsimp only; omega⟩
  · exact spent

theorem spent_expire (spent : session.Spent phrase bound) :
    Spent phrase bound { session with cache := [], expiries := session.expiries + 1 } := by
  obtain ⟨now, total, cold, current⟩ := spent
  refine ⟨0, ?_, fun _ => rfl, ?_⟩
  · dsimp only
    rw [Nat.succ_mul]
    omega
  · dsimp only
    omega

end Session

/-- The questions on the terminal are those of running members, one each, with
tries left. -/
structure Asks (config : Config) (session : Session) : Prop where
  running : ∀ unit ∈ session.asking,
    unit ∈ unlockUnits config ∧ session.phases unit = .running
  once : session.asking.Nodup
  tries : ∀ unit ∈ session.asking, session.tried unit < maxTries

namespace Asks

variable {session : Session} {unit word : String}

theorem erase (asks : Asks config session) (unit : String) :
    (∀ other ∈ session.asking.erase unit,
        (other ∈ unlockUnits config ∧ session.phases other = .running) ∧ other ≠ unit ∧
          session.tried other < maxTries) ∧ (session.asking.erase unit).Nodup := by
  refine ⟨fun other member => ?_, asks.once.erase unit⟩
  obtain ⟨different, inAsking⟩ := asks.once.mem_erase_iff.mp member
  exact ⟨asks.running other inAsking, different, asks.tries other inAsking⟩

theorem accept (asks : Asks config session) : Asks config (session.accept unit) where
  running := fun other member => ((asks.erase unit).1 other member).1
  once := (asks.erase unit).2
  tries := fun other member => ((asks.erase unit).1 other member).2.2

theorem reply (asks : Asks config session) : Asks config (session.reply opens unit word) := by
  have cached : Asks config
      { session with cache := word :: session.cache, typed := word :: session.typed } :=
    ⟨asks.running, asks.once, asks.tries⟩
  unfold Session.reply
  dsimp only
  split
  · exact cached.accept
  · split
    · rename_i left
      refine ⟨asks.running, asks.once, fun other member => ?_⟩
      by_cases same : other = unit
      · subst same
        simpa using left
      · simpa [Function.update_of_ne same] using asks.tries other member
    · exact ⟨fun other member => ((asks.erase unit).1 other member).1, (asks.erase unit).2,
        fun other member => ((asks.erase unit).1 other member).2.2⟩

theorem consult (asks : Asks config session) : Asks config (session.consult opens unit) := by
  unfold Session.consult
  split
  · exact asks.accept
  · refine ⟨asks.running, asks.once, fun other member => ?_⟩
    by_cases same : other = unit
    · subst same
      simp [maxTries]
    · simpa [Function.update_of_ne same] using asks.tries other member

/-- A member that was waiting begins. -/
theorem unlock (asks : Asks config session) (waits : session.phases unit = .waiting)
    (member : unit ∈ unlockUnits config) :
    Asks config (({ session with
      phases := Function.update session.phases unit .running } : Session).unlock opens unit) := by
  have others : ∀ other ∈ session.asking, other ≠ unit := by
    rintro other inAsking rfl
    have runs := (asks.running other inAsking).2
    simp [waits] at runs
  have running : ∀ other ∈ session.asking, other ∈ unlockUnits config ∧
      Function.update session.phases unit .running other = .running := fun other inAsking =>
    ⟨(asks.running other inAsking).1,
      (Function.update_of_ne (others other inAsking) _ _).trans (asks.running other inAsking).2⟩
  unfold Session.unlock
  split
  · exact ⟨running, asks.once, asks.tries⟩
  · refine ⟨?_, ?_, ?_⟩
    · intro other inAsking
      rcases List.mem_cons.mp inAsking with rfl | before
      · exact ⟨member, Function.update_self ..⟩
      · exact running other before
    · exact List.nodup_cons.mpr ⟨fun again => others unit again rfl, asks.once⟩
    · intro other inAsking
      rcases List.mem_cons.mp inAsking with rfl | before
      · dsimp only
        rw [Function.update_self]
        split <;> decide
      · dsimp only
        rw [Function.update_of_ne (others other before)]
        exact asks.tries other before

/-- A unit that was running ends. -/
theorem close (asks : Asks config session) (phase : Phase) :
    Asks config (({ session with
      phases := Function.update session.phases unit phase } : Session).close unit) := by
  unfold Session.close
  split
  · refine ⟨fun other member => ?_, (asks.erase unit).2, fun other member =>
      ((asks.erase unit).1 other member).2.2⟩
    obtain ⟨⟨isMember, runs⟩, different, _⟩ := (asks.erase unit).1 other member
    exact ⟨isMember, (Function.update_of_ne different _ _).trans runs⟩
  · rename_i silent
    refine ⟨fun other member => ?_, asks.once, asks.tries⟩
    have different : other ≠ unit := fun same => silent (same ▸ member)
    exact ⟨(asks.running other member).1,
      (Function.update_of_ne different _ _).trans (asks.running other member).2⟩

/-- A unit that does not ask moves. -/
theorem move (asks : Asks config session) (silent : unit ∉ session.asking) (phase : Phase) :
    Asks config { session with phases := Function.update session.phases unit phase } where
  running := fun other member =>
    ⟨(asks.running other member).1,
      (Function.update_of_ne (fun same : other = unit => silent (same ▸ member)) _ _).trans
        (asks.running other member).2⟩
  once := asks.once
  tries := asks.tries

theorem not_asking (asks : Asks config session) (waits : session.phases unit = .waiting) :
    unit ∉ session.asking := by
  intro member
  have runs := (asks.running unit member).2
  simp [waits] at runs

end Asks

/-- A step of the session moves the jobs as the transaction does, or not at all. -/
theorem step_phases {session next : Session} {event : Event}
    (taken : step config opens session event = some next) :
    next.phases = session.phases ∨
      ∃ job, (transaction config).step session.phases job = some next.phases := by
  cases event with
  | begin unit =>
      simp only [step, Option.map_eq_some_iff] at taken
      obtain ⟨phases, moved, rfl⟩ := taken
      refine .inr ⟨_, moved.trans ?_⟩
      split <;> simp
  | finish unit success =>
      simp only [step, Option.ite_none_right_eq_some, Option.map_eq_some_iff] at taken
      obtain ⟨_, phases, moved, rfl⟩ := taken
      exact .inr ⟨_, moved.trans (by simp)⟩
  | cancel unit =>
      simp only [step, Option.ite_none_right_eq_some, Option.map_eq_some_iff] at taken
      obtain ⟨_, phases, moved, rfl⟩ := taken
      exact .inr ⟨_, moved⟩
  | answer unit word =>
      simp only [step, Option.ite_none_right_eq_some, Option.some.injEq] at taken
      obtain ⟨_, rfl⟩ := taken
      exact .inl (by simp)
  | consult unit =>
      simp only [step, Option.ite_none_right_eq_some, Option.some.injEq] at taken
      obtain ⟨_, rfl⟩ := taken
      exact .inl (by simp)
  | expire =>
      simp only [step, Option.some.injEq] at taken
      subst taken
      exact .inl rfl

/-- The jobs of a session are a run of the transaction. -/
theorem phases_reachable : ∀ session, (machine config opens).Reachable session →
    (transaction config).machine.Reachable session.phases := by
  refine Machine.invariant ?_ ?_
  · rintro session rfl
    exact .initial rfl
  · intro session event next _ held taken
    rcases step_phases taken with same | ⟨job, moved⟩
    · exact same ▸ held
    · exact held.step job moved

section Plain

variable (emitted : unlocks config = true) (usb : config.nixnas.location = .usb)
  (plain : ∀ name device, config.nixnas.storage.unlock.lookup name = some device →
    PlainMember name device)
include emitted usb plain

theorem running_le_missing (session : Session)
    (reached : (machine config opens).Reachable session) :
    Transaction.running session.phases (unlockUnits config) ≤ missing config session + 1 := by
  refine Transaction.running_le_cancelled (phases_reachable session reached) ?_ ?_
  · intro unit member
    exact (mem_pulled emitted usb plain unit).mpr (.inl member)
  · intro later earlier edge
    have member : later ∈ unlockUnits config := by
      obtain ⟨i, atLater, _⟩ := edge
      exact List.mem_of_getElem? atLater
    exact (mem_unitAfter_member emitted later earlier member).mpr edge

/-- An import begins when every member's job is over, and the target when the
job of every import is over too. -/
theorem imports_after_members (session : Session)
    (reached : (machine config opens).Reachable session) {unit : String}
    (importing : unit ∈ importUnits config) (begun : (session.phases unit).begun = true)
    {member : String} (isMember : member ∈ unlockUnits config) :
    (session.phases member).settled = true := by
  have ordered := Transaction.ordered_of_reachable _ (phases_reachable session reached) unit begun
  exact ordered.2 member ((mem_unitAfter_import emitted usb importing member).mpr isMember)
    ((mem_pulled emitted usb plain member).mpr (.inl isMember))

theorem target_last (session : Session)
    (reached : (machine config opens).Reachable session)
    (begun : (session.phases targetUnit).begun = true) {unit : String}
    (isOther : unit ∈ unlockUnits config ∨ unit ∈ importUnits config) :
    (session.phases unit).settled = true := by
  have ordered :=
    Transaction.ordered_of_reachable _ (phases_reachable session reached) targetUnit begun
  refine ordered.2 unit ((mem_unitAfter_target emitted usb unit).mpr isOther) ?_
  exact (mem_pulled emitted usb plain unit).mpr (isOther.imp_right .inl)

end Plain

theorem asks_step {session next : Session} {event : Event} (asks : Asks config session)
    (taken : step config opens session event = some next) : Asks config next := by
  cases event with
  | begin unit =>
      simp only [step, Option.map_eq_some_iff] at taken
      obtain ⟨phases, moved, rfl⟩ := taken
      obtain ⟨_, waits, _, rfl⟩ := Transaction.step_begin_iff.mp moved
      split
      · rename_i member
        exact asks.unlock waits member
      · exact asks.move (asks.not_asking waits) _
  | finish unit success =>
      simp only [step, Option.ite_none_right_eq_some, Option.map_eq_some_iff] at taken
      obtain ⟨_, phases, moved, rfl⟩ := taken
      obtain ⟨_, _, rfl⟩ := Transaction.step_finish_iff.mp moved
      exact asks.close _
  | cancel unit =>
      simp only [step, Option.ite_none_right_eq_some, Option.map_eq_some_iff] at taken
      obtain ⟨_, phases, moved, rfl⟩ := taken
      obtain ⟨_, waits, rfl⟩ := Transaction.step_cancel_iff.mp moved
      exact asks.move (asks.not_asking waits) _
  | answer unit word =>
      simp only [step, Option.ite_none_right_eq_some, Option.some.injEq] at taken
      obtain ⟨_, rfl⟩ := taken
      exact asks.reply
  | consult unit =>
      simp only [step, Option.ite_none_right_eq_some, Option.some.injEq] at taken
      obtain ⟨_, rfl⟩ := taken
      exact asks.consult
  | expire =>
      simp only [step, Option.some.injEq] at taken
      subst taken
      exact ⟨asks.running, asks.once, asks.tries⟩

theorem asks_of_reachable :
    ∀ session, (machine config opens).Reachable session → Asks config session := by
  refine Machine.invariant ?_ ?_
  · rintro session rfl
    exact ⟨by simp [Session.idle], List.nodup_nil, by simp [Session.idle]⟩
  · intro session event next _ asks taken
    exact asks_step asks taken

theorem missing_mono {session next : Session} {event : Event}
    (taken : step config opens session event = some next) :
    missing config session ≤ missing config next := by
  refine List.countP_mono_left fun unit _ gone => ?_
  rw [decide_eq_true_eq] at gone ⊢
  rcases step_phases taken with same | ⟨job, moved⟩
  · rw [same, gone]
  · rw [Transaction.settled_kept moved unit (by rw [gone]; rfl), gone]

/-- The questions on the terminal are not more than the members that run. -/
theorem asking_le_running {session : Session} (asks : Asks config session) :
    session.asking.length ≤ Transaction.running session.phases (unlockUnits config) := by
  rw [Transaction.running, List.countP_eq_length_filter]
  refine (List.subperm_of_subset asks.once fun unit member => ?_).length_le
  obtain ⟨isMember, runs⟩ := asks.running unit member
  exact List.mem_filter.mpr ⟨isMember, by simpa using runs⟩

section Shared

variable (emitted : unlocks config = true) (usb : config.nixnas.location = .usb)
  (plain : ∀ name device, config.nixnas.storage.unlock.lookup name = some device →
    PlainMember name device)
  {phrase : String}
  (shared : ∀ unit ∈ unlockUnits config, ∀ word, opens unit word = decide (word = phrase))
include emitted usb plain shared

theorem tally_step {session next : Session} {event : Event}
    (reached : (machine config opens).Reachable session)
    (tally : session.Balanced ∧ session.Spent phrase (missing config session + 1))
    (taken : step config opens session event = some next) :
    next.Balanced ∧ next.Spent phrase (missing config next + 1) := by
  have reachedNext : (machine config opens).Reachable next := reached.step event taken
  have few : next.asking.length ≤ missing config next + 1 :=
    (asking_le_running (asks_of_reachable next reachedNext)).trans
      (running_le_missing emitted usb plain next reachedNext)
  have asks := asks_of_reachable session reached
  obtain ⟨balanced, spentBefore⟩ := tally
  have spent := spentBefore.mono (Nat.succ_le_succ (missing_mono taken))
  cases event with
  | begin unit =>
      simp only [step, Option.map_eq_some_iff] at taken
      obtain ⟨phases, _, rfl⟩ := taken
      by_cases member : unit ∈ unlockUnits config
      · rw [if_pos member] at few spent ⊢
        exact ⟨Session.balanced_unlock balanced,
          Session.spent_unlock { session with phases := phases }
            (shared unit member) spent few⟩
      · rw [if_neg member] at spent ⊢
        exact ⟨balanced, spent⟩
  | finish unit success =>
      simp only [step, Option.ite_none_right_eq_some, Option.map_eq_some_iff] at taken
      obtain ⟨_, phases, _, rfl⟩ := taken
      exact ⟨Session.balanced_close balanced,
        Session.spent_close { session with phases := phases } spent⟩
  | cancel unit =>
      simp only [step, Option.ite_none_right_eq_some, Option.map_eq_some_iff] at taken
      obtain ⟨_, phases, _, rfl⟩ := taken
      exact ⟨balanced, spent⟩
  | answer unit word =>
      simp only [step, Option.ite_none_right_eq_some, Option.some.injEq] at taken
      obtain ⟨member, rfl⟩ := taken
      exact ⟨Session.balanced_reply member balanced,
        Session.spent_reply (shared unit (asks.running unit member).1) member spent⟩
  | consult unit =>
      simp only [step, Option.ite_none_right_eq_some, Option.some.injEq] at taken
      obtain ⟨⟨member, _⟩, rfl⟩ := taken
      exact ⟨Session.balanced_consult member balanced,
        Session.spent_consult (shared unit (asks.running unit member).1) member spent⟩
  | expire =>
      simp only [step, Option.some.injEq] at taken
      subst taken
      exact ⟨balanced, Session.spent_expire spent⟩

theorem tally_of_reachable : ∀ session, (machine config opens).Reachable session →
    session.Balanced ∧ session.Spent phrase (missing config session + 1) := by
  refine Machine.invariant ?_ ?_
  · rintro session rfl
    exact ⟨rfl, 0, by simp [Session.idle], fun _ => rfl, by simp [Session.idle]⟩
  · intro session event next reached tally taken
    exact tally_step emitted usb plain shared reached tally taken

end Shared

end Runs

/-- One passphrase for the whole set, asked for once: in every run of the unlock
the members run one at a time and the operator is asked once, but for one more
of either with every member whose disk is missing, a question again after every
miss, and the whole again after every expiry of the cache. -/
theorem questions_bounded (config : Config) (opens : String → String → Bool) (phrase : String)
    (emitted : unlocks config = true) (usb : config.nixnas.location = .usb)
    (plain : ∀ name device, config.nixnas.storage.unlock.lookup name = some device →
      PlainMember name device)
    (shared : ∀ unit ∈ unlockUnits config, ∀ word, opens unit word = decide (word = phrase))
    (session : Session) (reached : (machine config opens).Reachable session) :
    Transaction.running session.phases (unlockUnits config) ≤ missing config session + 1 ∧
      session.asking.length ≤ missing config session + 1 ∧
      session.questions ≤
        session.misses + (session.expiries + 1) * (missing config session + 1) := by
  have serial := running_le_missing emitted usb plain session reached
  have asks := asks_of_reachable session reached
  obtain ⟨balanced, now, right, _, current⟩ :=
    tally_of_reachable emitted usb plain shared session reached
  refine ⟨serial, (asking_le_running asks).trans serial, ?_⟩
  rw [balanced, Nat.succ_mul]
  omega

/-- Three members, the second of which has no disk. -/
def threeMembers : Config :=
  demo .usb (.listToAttrs [("archive0", archiveDisk), ("archive1", archiveDisk),
    ("archive2", archiveDisk)]) ["cold"]

theorem threeMembers_plain (name : String) (device : DiskById)
    (declared : threeMembers.nixnas.storage.unlock.lookup name = some device) :
    PlainMember name device := by
  have members := AttrSet.mem_of_lookup_listToAttrs declared
  simp only [List.mem_cons, Prod.mk.injEq, List.not_mem_nil, or_false] at members
  unfold PlainMember
  rcases members with ⟨rfl, rfl⟩ | ⟨rfl, rfl⟩ | ⟨rfl, rfl⟩ <;>
    exact ⟨by decide, by decide, by simp [archiveDisk, isSpace]⟩

/-- The missing disk lets a second member ask. -/
theorem threeMembers_two_questions :
    ∃ session, (machine threeMembers fun _ word => decide (word = "open")).Reachable session ∧
      session.questions = 2 ∧ missing threeMembers session = 1 ∧
      Transaction.running session.phases (unlockUnits threeMembers) ≤ 1 + 1 ∧
      session.asking.length ≤ 1 + 1 ∧ 2 ≤ session.misses + (session.expiries + 1) * (1 + 1) := by
  have ran : ((Machine.replay (step threeMembers fun _ word => decide (word = "open")) .idle
      [.begin "systemd-cryptsetup@archive0.service", .cancel "systemd-cryptsetup@archive1.service",
        .begin "systemd-cryptsetup@archive2.service"]).map fun session =>
          (session.questions, missing threeMembers session)) = some (2, 1) := by
    decide +kernel
  obtain ⟨session, replayed, tallies⟩ := Option.map_eq_some_iff.mp ran
  obtain ⟨two, one⟩ := Prod.mk.inj tallies
  have reached : (machine threeMembers fun _ word => decide (word = "open")).Reachable session :=
    Machine.Reachable.steps (.initial rfl) (Machine.steps_of_replay _ _ _ replayed)
  have bounded := questions_bounded threeMembers _ "open" rfl rfl threeMembers_plain
    (fun _ _ _ => rfl) session reached
  rw [one, two] at bounded
  exact ⟨session, reached, two, one, bounded⟩

end Nixnas.Modules.UnlockSession
