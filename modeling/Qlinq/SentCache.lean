import Mathlib.Data.List.Basic
import Qlinq.Tracks

namespace Qlinq

/-! The publisher's bounded cache of objects that may still be repaired. -/

structure MoqObject where
  trackId : TrackId
  groupId : Nat
  objectId : Nat
  data : Bytes
  isKeyframe : Bool := false
  priority : UInt8 := 0
  deriving DecidableEq, Repr

def MoqObject.size (object : MoqObject) : Nat := object.data.length

structure SentObject where
  trackId : TrackId
  groupId : Nat
  objectId : Nat
  data : Bytes
  priority : UInt8
  isKeyframe : Bool
  totalSymbols : Nat
  dataSymbols : Nat
  symbolSize : Nat
  nextRepairSymbol : Nat
  nextSystematicRepairSymbol : Nat
  recoveryProtected : Bool
  deriving DecidableEq, Repr

namespace SentObject

def size (entry : SentObject) : Nat := entry.data.length

def hasIdentity (entry : SentObject) (track : TrackId) (groupId objectId : Nat) :
    Bool :=
  entry.trackId == track && entry.groupId == groupId && entry.objectId == objectId

end SentObject

def sentCacheSize : Nat := 2048

def sentCacheMaxSize : Nat := 4096

/-- `entries` lists the slots, an empty slot holding `none`. -/
structure SentCache where
  entries : List (Option SentObject)
  nextEntry : Nat
  maxPayloadBytes : Nat
  payloadBytes : Nat
  count : Nat
  deriving DecidableEq, Repr

namespace SentCache

def capacity (cache : SentCache) : Nat := cache.entries.length

def initCapacity (maxPayloadBytes maxObjectBytes : Nat) : Nat :=
  let capacity := maxPayloadBytes / maxObjectBytes +
    (if maxPayloadBytes % maxObjectBytes ≠ 0 then 1 else 0)
  min (max capacity sentCacheSize) sentCacheMaxSize

def init (maxPayloadBytes maxObjectBytes : Nat) : SentCache where
  entries := List.replicate (initCapacity maxPayloadBytes maxObjectBytes) none
  nextEntry := 0
  maxPayloadBytes := maxPayloadBytes
  payloadBytes := 0
  count := 0

def occupied (cache : SentCache) : List SentObject := cache.entries.filterMap id

def find (cache : SentCache) (track : TrackId) (groupId objectId : Nat) :
    Option SentObject :=
  cache.occupied.find? (·.hasIdentity track groupId objectId)

def hasSpace (cache : SentCache) : Bool := cache.count < cache.capacity

/-- The slot scan of `canStore`: free slots and, with `allowEvict`, unprotected
entries count as room until the object's own identity decides. -/
def scanRoom (object : MoqObject) (allowEvict : Bool)
    (overlaps : SentObject → Bool) :
    List (Option SentObject) → (available : Nat) → (slotAvailable : Bool) → Bool
  | [], available, slotAvailable => slotAvailable && object.size ≤ available
  | none :: rest, available, _ => scanRoom object allowEvict overlaps rest available true
  | some entry :: rest, available, slotAvailable =>
      if entry.hasIdentity object.trackId object.groupId object.objectId then
        entry.data == object.data
      else if allowEvict && !entry.recoveryProtected && !overlaps entry then
        scanRoom object allowEvict overlaps rest (available + entry.size) true
      else
        scanRoom object allowEvict overlaps rest available slotAvailable

/-- `overlaps` answers `source_overlaps_entry` for the object's buffer. -/
def canStore (cache : SentCache) (object : MoqObject) (allowEvict : Bool)
    (overlaps : SentObject → Bool) : Bool :=
  if object.data = [] ∨ cache.maxPayloadBytes < object.size ∨
      cache.maxPayloadBytes < cache.payloadBytes then
    false
  else
    let available := cache.maxPayloadBytes - cache.payloadBytes
    if cache.count < cache.capacity ∧ object.size ≤ available then
      true
    else
      scanRoom object allowEvict overlaps cache.entries available false

/-- Empty one slot. -/
def releaseEntry (cache : SentCache) (index : Nat) : SentCache :=
  match cache.entries[index]? with
  | some (some entry) =>
      { cache with
        entries := cache.entries.set index none
        payloadBytes := cache.payloadBytes - entry.size
        count := cache.count - 1 }
  | _ => cache

def roomFor (cache : SentCache) (size : Nat) : Bool :=
  size ≤ cache.maxPayloadBytes - cache.payloadBytes && cache.count != cache.capacity

/-- Reclaim unprotected entries in ring order until the object fits.  The fuel
counts the slots not yet visited. -/
def reclaim (size : Nat) (allowEvict : Bool) (overlaps : SentObject → Bool) :
    Nat → SentCache → SentCache × Bool
  | 0, cache => (cache, cache.roomFor size)
  | unvisited + 1, cache =>
      if cache.roomFor size then
        (cache, true)
      else if !allowEvict then
        (cache, false)
      else
        let offset := cache.capacity - (unvisited + 1)
        let index := (cache.nextEntry + offset) % cache.capacity
        match cache.entries[index]? with
        | some (some entry) =>
            if !entry.recoveryProtected && !overlaps entry then
              reclaim size allowEvict overlaps unvisited (cache.releaseEntry index)
            else
              reclaim size allowEvict overlaps unvisited cache
        | _ => reclaim size allowEvict overlaps unvisited cache

/-- First empty slot in ring order. -/
def freeSlot (cache : SentCache) : Option Nat :=
  ((List.range cache.capacity).map fun offset =>
    (cache.nextEntry + offset) % cache.capacity).find? fun index =>
      cache.entries[index]? == some none

def restore (entry : SentObject) (object : MoqObject)
    (totalSymbols dataSymbols symbolSize : Nat) (allowEvict : Bool) : SentObject :=
  let total := max totalSymbols entry.totalSymbols
  { entry with
    totalSymbols := total
    nextRepairSymbol := max entry.nextRepairSymbol total
    dataSymbols := dataSymbols
    symbolSize := symbolSize
    priority := object.priority
    isKeyframe := object.isKeyframe
    recoveryProtected := entry.recoveryProtected || !allowEvict }

/-- The entry of an object stored for the first time. -/
def retained (object : MoqObject) (totalSymbols dataSymbols symbolSize : Nat)
    (allowEvict : Bool) : SentObject where
  trackId := object.trackId
  groupId := object.groupId
  objectId := object.objectId
  data := object.data
  priority := object.priority
  isKeyframe := object.isKeyframe
  totalSymbols := totalSymbols
  dataSymbols := dataSymbols
  symbolSize := symbolSize
  nextRepairSymbol := totalSymbols
  nextSystematicRepairSymbol := 0
  recoveryProtected := !allowEvict

def occupy (cache : SentCache) (index : Nat) (entry : SentObject) : SentCache :=
  { cache with
    entries := cache.entries.set index (some entry)
    nextEntry := (index + 1) % cache.capacity
    payloadBytes := cache.payloadBytes + entry.size
    count := cache.count + 1 }

/-- `transport_sent_cache_store`.  `allocates` is the outcome of copying the
payload. -/
def store (cache : SentCache) (object : MoqObject)
    (totalSymbols dataSymbols symbolSize : Nat) (allowEvict allocates : Bool)
    (overlaps : SentObject → Bool) : SentCache × Bool :=
  if object.data = [] then
    (cache, false)
  else
    match cache.find object.trackId object.groupId object.objectId with
    | some existing =>
        if existing.data ≠ object.data then
          (cache, false)
        else
          let update := fun slot : Option SentObject =>
            if slot = some existing then
              some (restore existing object totalSymbols dataSymbols symbolSize allowEvict)
            else
              slot
          ({ cache with entries := cache.entries.map update }, true)
    | none =>
        if !cache.canStore object allowEvict overlaps then
          (cache, false)
        else
          match reclaim object.size allowEvict overlaps cache.capacity cache with
          | (reclaimed, false) => (reclaimed, false)
          | (reclaimed, true) =>
              match reclaimed.freeSlot with
              | none => (reclaimed, false)
              | some index =>
                  if !allocates then
                    (reclaimed, false)
                  else
                    (reclaimed.occupy index
                      (retained object totalSymbols dataSymbols symbolSize allowEvict),
                      true)

/-- Empty every slot whose entry satisfies the predicate. -/
def releaseWhere (cache : SentCache) (released : SentObject → Bool) : SentCache :=
  let gone := cache.occupied.filter released
  { cache with
    entries := cache.entries.map fun slot => slot.filter fun entry => !released entry
    payloadBytes := cache.payloadBytes - (gone.map (·.size)).sum
    count := cache.count - gone.length }

def releaseThrough (cache : SentCache) (track : TrackId) (groupId objectId : Nat) :
    SentCache :=
  cache.releaseWhere fun entry =>
    entry.trackId == track && entry.groupId == groupId && entry.objectId ≤ objectId

def releaseTrack (cache : SentCache) (track : TrackId) : SentCache :=
  cache.releaseWhere fun entry => entry.trackId == track

theorem mem_occupied {cache : SentCache} :
    entry ∈ cache.occupied ↔ some entry ∈ cache.entries := by
  simp [occupied]

theorem hasIdentity_iff {entry : SentObject} :
    entry.hasIdentity track groupId objectId = true ↔
      entry.trackId = track ∧ entry.groupId = groupId ∧ entry.objectId = objectId := by
  simp [SentObject.hasIdentity, and_assoc]

theorem mem_of_find {cache : SentCache}
    (hfind : cache.find track groupId objectId = some entry) :
    entry ∈ cache.occupied ∧ entry.trackId = track ∧ entry.groupId = groupId ∧
      entry.objectId = objectId := by
  have hidentity := List.find?_some hfind
  exact ⟨List.mem_of_find?_eq_some hfind, hasIdentity_iff.mp hidentity⟩

theorem mem_releaseWhere {cache : SentCache} {released : SentObject → Bool} :
    entry ∈ (cache.releaseWhere released).occupied ↔
      entry ∈ cache.occupied ∧ released entry = false := by
  simp only [mem_occupied, releaseWhere, List.mem_map]
  constructor
  · rintro ⟨slot, hslot, hfilter⟩
    obtain ⟨rfl, hkept⟩ := Option.filter_eq_some_iff.mp hfilter
    exact ⟨hslot, by simpa using hkept⟩
  · rintro ⟨hslot, hkept⟩
    exact ⟨some entry, hslot, Option.filter_eq_some_iff.mpr ⟨rfl, by simp [hkept]⟩⟩

theorem mem_releaseThrough {cache : SentCache} :
    entry ∈ (cache.releaseThrough track groupId objectId).occupied ↔
      entry ∈ cache.occupied ∧ ¬ (entry.trackId = track ∧ entry.groupId = groupId ∧
        entry.objectId ≤ objectId) := by
  rw [releaseThrough, mem_releaseWhere]
  simp

theorem mem_releaseTrack {cache : SentCache} :
    entry ∈ (cache.releaseTrack track).occupied ↔
      entry ∈ cache.occupied ∧ entry.trackId ≠ track := by
  rw [releaseTrack, mem_releaseWhere]
  simp

@[simp] theorem capacity_releaseWhere (cache : SentCache)
    (released : SentObject → Bool) :
    (cache.releaseWhere released).capacity = cache.capacity := by
  simp [releaseWhere, capacity]

@[simp] theorem capacity_releaseThrough (cache : SentCache) :
    (cache.releaseThrough track groupId objectId).capacity = cache.capacity := by
  simp [releaseThrough]

@[simp] theorem capacity_releaseTrack (cache : SentCache) :
    (cache.releaseTrack track).capacity = cache.capacity := by
  simp [releaseTrack]

/-- Emptying or reclaiming slots keeps the slots' number, adds no entry and
loses none that satisfies `kept`. -/
structure Shrinks (before after : SentCache) (kept : SentObject → Prop) : Prop where
  capacity : after.capacity = before.capacity
  mem : ∀ entry ∈ after.occupied, entry ∈ before.occupied
  keeps : ∀ entry ∈ before.occupied, kept entry → entry ∈ after.occupied

theorem Shrinks.refl (cache : SentCache) : Shrinks cache cache kept :=
  ⟨rfl, fun _ hentry => hentry, fun _ hentry _ => hentry⟩

theorem Shrinks.trans (hfirst : Shrinks before middle kept)
    (hsecond : Shrinks middle after kept) : Shrinks before after kept where
  capacity := hsecond.capacity.trans hfirst.capacity
  mem := fun entry hentry => hfirst.mem entry (hsecond.mem entry hentry)
  keeps := fun entry hentry hkept =>
    hsecond.keeps entry (hfirst.keeps entry hentry hkept) hkept

theorem shrinks_releaseEntry {cache : SentCache}
    (hslot : cache.entries[index]? = some (some victim)) :
    Shrinks cache (cache.releaseEntry index) (· ≠ victim) := by
  have hreleased : cache.releaseEntry index =
      { cache with
        entries := cache.entries.set index none
        payloadBytes := cache.payloadBytes - victim.size
        count := cache.count - 1 } := by
    simp [releaseEntry, hslot]
  rw [hreleased]
  refine ⟨by simp [capacity], ?_, ?_⟩
  · intro entry hentry
    rw [mem_occupied] at hentry ⊢
    rcases List.mem_or_eq_of_mem_set hentry with hold | hnone
    · exact hold
    · exact absurd hnone (by simp)
  · intro entry hentry hne
    rw [mem_occupied] at hentry ⊢
    obtain ⟨position, hposition⟩ := List.mem_iff_getElem?.mp hentry
    have hother : index ≠ position := by
      rintro rfl
      rw [hslot] at hposition
      simp only [Option.some.injEq] at hposition
      exact hne hposition.symm
    exact List.mem_iff_getElem?.mpr
      ⟨position, by rw [List.getElem?_set_ne hother]; exact hposition⟩

theorem shrinks_reclaim (size : Nat) (allowEvict : Bool)
    (overlaps : SentObject → Bool) (unvisited : Nat) (cache : SentCache) :
    Shrinks cache (reclaim size allowEvict overlaps unvisited cache).1
      (fun entry => entry.recoveryProtected = true) := by
  induction unvisited generalizing cache with
  | zero => exact Shrinks.refl cache
  | succ unvisited ih =>
      simp only [reclaim]
      split
      · exact Shrinks.refl cache
      split
      · exact Shrinks.refl cache
      split
      · next victim hslot =>
          split
          · next hvictim =>
              refine Shrinks.trans ?_ (ih _)
              have hrelease := shrinks_releaseEntry hslot
              refine ⟨hrelease.capacity, hrelease.mem, ?_⟩
              intro entry hentry hprotected
              refine hrelease.keeps entry hentry ?_
              rintro rfl
              simp [hprotected] at hvictim
          · exact ih cache
      · exact ih cache

theorem freeSlot_spec {cache : SentCache} (hslot : cache.freeSlot = some index) :
    cache.entries[index]? = some none := by
  have := List.find?_some hslot
  simpa using this

theorem mem_occupy {cache : SentCache} (hfree : cache.entries[index]? = some none) :
    other ∈ (cache.occupy index entry).occupied ↔
      other ∈ cache.occupied ∨ other = entry := by
  obtain ⟨hlength, -⟩ := List.getElem?_eq_some_iff.mp hfree
  simp only [mem_occupied, occupy]
  constructor
  · intro hmem
    rcases List.mem_or_eq_of_mem_set hmem with hold | hnew
    · exact Or.inl hold
    · exact Or.inr (by simpa using hnew)
  · rintro (hold | rfl)
    · obtain ⟨position, hposition⟩ := List.mem_iff_getElem?.mp hold
      have hother : index ≠ position := by
        rintro rfl
        simp [hfree] at hposition
      exact List.mem_iff_getElem?.mpr
        ⟨position, by rw [List.getElem?_set_ne hother]; exact hposition⟩
    · exact List.mem_set hlength _

/-- The entry describes the object under the given geometry. -/
def Describes (entry : SentObject) (object : MoqObject) (dataSymbols symbolSize : Nat) :
    Prop :=
  entry.hasIdentity object.trackId object.groupId object.objectId = true ∧
    entry.data = object.data ∧ entry.dataSymbols = dataSymbols ∧
    entry.symbolSize = symbolSize

/-- What storing an object can do to the cache: only entries of the object
appear, protected obligations survive and success leaves an entry behind. -/
structure Stores (before after : SentCache) (object : MoqObject)
    (dataSymbols symbolSize : Nat) (allowEvict stored : Bool) : Prop where
  capacity : after.capacity = before.capacity
  mem : ∀ entry ∈ after.occupied, entry ∈ before.occupied ∨
    Describes entry object dataSymbols symbolSize ∧
      (allowEvict = false → entry.recoveryProtected = true)
  keeps : ∀ entry ∈ before.occupied, entry.recoveryProtected = true →
    ∃ kept ∈ after.occupied, kept.recoveryProtected = true ∧
      kept.data = entry.data ∧
      kept.hasIdentity entry.trackId entry.groupId entry.objectId = true
  stored : stored = true → ∃ entry ∈ after.occupied,
    Describes entry object dataSymbols symbolSize ∧
      (allowEvict = false → entry.recoveryProtected = true)

theorem Shrinks.stores
    (hshrinks : Shrinks before after (fun entry => entry.recoveryProtected = true)) :
    Stores before after object dataSymbols symbolSize allowEvict false where
  capacity := hshrinks.capacity
  mem := fun entry hentry => Or.inl (hshrinks.mem entry hentry)
  keeps := fun entry hentry hprotected =>
    ⟨entry, hshrinks.keeps entry hentry hprotected, hprotected, rfl,
      hasIdentity_iff.mpr ⟨rfl, rfl, rfl⟩⟩
  stored := by simp

theorem stores_occupy {before cache : SentCache}
    (hshrinks : Shrinks before cache (fun entry => entry.recoveryProtected = true))
    (hfree : cache.entries[index]? = some none) :
    Stores before (cache.occupy index
      (retained object totalSymbols dataSymbols symbolSize allowEvict))
      object dataSymbols symbolSize allowEvict true := by
  have hdescribes : Describes
      (retained object totalSymbols dataSymbols symbolSize allowEvict)
      object dataSymbols symbolSize :=
    ⟨hasIdentity_iff.mpr ⟨rfl, rfl, rfl⟩, rfl, rfl, rfl⟩
  have hprotected : allowEvict = false →
      (retained object totalSymbols dataSymbols symbolSize
        allowEvict).recoveryProtected = true := by
    simp [retained]
  constructor
  · simpa [occupy, capacity] using hshrinks.capacity
  · intro entry hentry
    rcases (mem_occupy hfree).mp hentry with hold | rfl
    · exact Or.inl (hshrinks.mem entry hold)
    · exact Or.inr ⟨hdescribes, hprotected⟩
  · intro entry hentry hkept
    exact ⟨entry, (mem_occupy hfree).mpr (Or.inl (hshrinks.keeps entry hentry hkept)),
      hkept, rfl, hasIdentity_iff.mpr ⟨rfl, rfl, rfl⟩⟩
  · intro _
    exact ⟨_, (mem_occupy hfree).mpr (Or.inr rfl), hdescribes, hprotected⟩

theorem stores_restore {cache : SentCache}
    (hfind : cache.find object.trackId object.groupId object.objectId = some existing)
    (hdata : existing.data = object.data) :
    Stores cache { cache with
        entries := cache.entries.map fun slot =>
          if slot = some existing then
            some (restore existing object totalSymbols dataSymbols symbolSize allowEvict)
          else
            slot }
      object dataSymbols symbolSize allowEvict true := by
  obtain ⟨hexisting, htrack, hgroup, hobject⟩ := mem_of_find hfind
  have hdescribes : Describes
      (restore existing object totalSymbols dataSymbols symbolSize allowEvict)
      object dataSymbols symbolSize :=
    ⟨hasIdentity_iff.mpr ⟨htrack, hgroup, hobject⟩, hdata, rfl, rfl⟩
  have hprotected : allowEvict = false →
      (restore existing object totalSymbols dataSymbols symbolSize
        allowEvict).recoveryProtected = true := by
    intro hevict
    simp [restore, hevict]
  have hmem : ∀ entry, entry ∈ SentCache.occupied { cache with
        entries := cache.entries.map fun slot =>
          if slot = some existing then
            some (restore existing object totalSymbols dataSymbols symbolSize allowEvict)
          else
            slot } ↔
      (entry ∈ cache.occupied ∧ entry ≠ existing) ∨
        entry = restore existing object totalSymbols dataSymbols symbolSize
          allowEvict := by
    intro entry
    simp only [mem_occupied, List.mem_map]
    constructor
    · rintro ⟨slot, hslot, heq⟩
      split at heq
      · exact Or.inr (by simpa using heq.symm)
      · next hne =>
          subst heq
          exact Or.inl ⟨hslot, by simpa using hne⟩
    · rintro (⟨hslot, hne⟩ | rfl)
      · exact ⟨some entry, hslot, by simp [hne]⟩
      · exact ⟨some existing, mem_occupied.mp hexisting, by simp⟩
  constructor
  · simp [capacity]
  · intro entry hentry
    rcases (hmem entry).mp hentry with ⟨hold, _⟩ | rfl
    · exact Or.inl hold
    · exact Or.inr ⟨hdescribes, hprotected⟩
  · intro entry hentry hkept
    by_cases hsame : entry = existing
    · subst hsame
      refine ⟨_, (hmem _).mpr (Or.inr rfl), ?_, rfl, ?_⟩
      · simp [restore, hkept]
      · exact hasIdentity_iff.mpr ⟨rfl, rfl, rfl⟩
    · exact ⟨entry, (hmem entry).mpr (Or.inl ⟨hentry, hsame⟩), hkept, rfl,
        hasIdentity_iff.mpr ⟨rfl, rfl, rfl⟩⟩
  · intro _
    exact ⟨_, (hmem _).mpr (Or.inr rfl), hdescribes, hprotected⟩

theorem stores_store (cache : SentCache) (object : MoqObject)
    (totalSymbols dataSymbols symbolSize : Nat) (allowEvict allocates : Bool)
    (overlaps : SentObject → Bool) :
    let result := cache.store object totalSymbols dataSymbols symbolSize allowEvict
      allocates overlaps
    Stores cache result.1 object dataSymbols symbolSize allowEvict result.2 := by
  have hunchanged : Stores cache cache object dataSymbols symbolSize allowEvict false :=
    (Shrinks.refl cache).stores
  simp only [store]
  split
  · exact hunchanged
  split
  · next existing hfind =>
      split
      · exact hunchanged
      · next hdata => exact stores_restore hfind (by simpa using hdata)
  · split
    · exact hunchanged
    have hreclaim := shrinks_reclaim object.size allowEvict overlaps cache.capacity cache
    split
    · next reclaimed heq =>
        rw [heq] at hreclaim
        exact hreclaim.stores
    · next reclaimed heq =>
        rw [heq] at hreclaim
        split
        · exact hreclaim.stores
        · next index hslot =>
            split
            · exact hreclaim.stores
            · exact stores_occupy hreclaim (freeSlot_spec hslot)

end SentCache

end Qlinq
