import Qlinq.Config
import Qlinq.Lib.Machine
import Qlinq.Lib.SlotTable

namespace Qlinq

/-! What the sent cache keeps true of its counters, budgets and obligations over
every run of its operations. -/

namespace SentObject

def identity (entry : SentObject) : TrackId × Nat × Nat :=
  (entry.trackId, entry.groupId, entry.objectId)

theorem hasIdentity_eq (entry : SentObject) (track : TrackId) (groupId objectId : Nat) :
    entry.hasIdentity track groupId objectId = (entry.identity == (track, groupId, objectId)) := by
  rw [Bool.eq_iff_iff, SentCache.hasIdentity_iff, beq_iff_eq]
  simp [identity]

end SentObject

def MoqObject.identity (object : MoqObject) : TrackId × Nat × Nat :=
  (object.trackId, object.groupId, object.objectId)

namespace SentCache

/-- The counters are those of the occupied slots, neither budget is exceeded and
no identity is cached twice. -/
structure WellFormed (cache : SentCache) : Prop where
  limited : 0 < cache.maxPayloadBytes
  payload : cache.payloadBytes = (cache.occupied.map SentObject.size).sum
  budget : cache.payloadBytes ≤ cache.maxPayloadBytes
  count : cache.count = cache.occupied.length
  capacity : cache.count ≤ cache.capacity
  identities : (cache.occupied.map SentObject.identity).Nodup

theorem occupied_eq (cache : SentCache) : cache.occupied = SlotTable.occupied cache.entries :=
  rfl

theorem WellFormed.nodup {cache : SentCache} (hcache : cache.WellFormed) :
    cache.occupied.Nodup :=
  List.Nodup.of_map SentObject.identity hcache.identities

theorem wellFormed_init {maxPayloadBytes maxObjectBytes : Nat} (hlimit : 0 < maxPayloadBytes) :
    (init maxPayloadBytes maxObjectBytes).WellFormed := by
  have hempty : (init maxPayloadBytes maxObjectBytes).occupied = [] :=
    SlotTable.occupied_replicate_none _
  constructor
  · exact hlimit
  · rw [hempty]
    rfl
  · exact Nat.zero_le _
  · rw [hempty]
    rfl
  · exact Nat.zero_le _
  · rw [hempty]
    exact List.nodup_nil

/-! ### Releasing entries -/

theorem occupied_releaseWhere (cache : SentCache) (released : SentObject → Bool) :
    (cache.releaseWhere released).occupied = cache.occupied.filter fun entry => !released entry :=
  SlotTable.occupied_map_filter _ cache.entries

theorem sum_sizes_split (entries : List SentObject) (released : SentObject → Bool) :
    (entries.map SentObject.size).sum =
      ((entries.filter released).map SentObject.size).sum +
        ((entries.filter fun entry => !released entry).map SentObject.size).sum := by
  induction entries with
  | nil => rfl
  | cons entry rest ih =>
      cases hreleased : released entry with
      | true => simp [hreleased, ih, Nat.add_assoc]
      | false => simp [hreleased, ih, Nat.add_left_comm]

theorem length_split (entries : List SentObject) (released : SentObject → Bool) :
    entries.length =
      (entries.filter released).length + (entries.filter fun entry => !released entry).length :=
  List.length_eq_length_filter_add released

theorem WellFormed.releaseWhere {cache : SentCache} (hcache : cache.WellFormed)
    (released : SentObject → Bool) : (cache.releaseWhere released).WellFormed := by
  have hsum := sum_sizes_split cache.occupied released
  have hlength := length_split cache.occupied released
  constructor
  · exact hcache.limited
  · rw [occupied_releaseWhere]
    have hpayload := hcache.payload
    rw [hsum] at hpayload
    exact Nat.sub_eq_of_eq_add' hpayload
  · exact (Nat.sub_le _ _).trans hcache.budget
  · rw [occupied_releaseWhere]
    have hcount := hcache.count
    simp only [SentCache.releaseWhere]
    omega
  · rw [capacity_releaseWhere]
    exact (Nat.sub_le _ _).trans hcache.capacity
  · rw [occupied_releaseWhere]
    exact hcache.identities.sublist (List.filter_sublist.map _)

theorem releaseWhere_false (cache : SentCache) : cache.releaseWhere (fun _ => false) = cache := by
  have hentries : (cache.entries.map fun slot => slot.filter fun _ => !false) = cache.entries := by
    induction cache.entries with
    | nil => rfl
    | cons slot rest ih =>
        cases slot with
        | none => simpa using ih
        | some entry => simpa [Option.filter_some] using ih
  have hnone : (cache.occupied.filter fun _ => false) = [] := List.filter_false _
  rw [SentCache.releaseWhere, hnone, hentries]
  rfl

theorem releaseWhere_releaseWhere (cache : SentCache) (first second : SentObject → Bool) :
    (cache.releaseWhere first).releaseWhere second =
      cache.releaseWhere fun entry => first entry || second entry := by
  have hgone : (cache.occupied.filter fun entry => first entry || second entry).Perm
      (cache.occupied.filter first ++
        (cache.occupied.filter fun entry => !first entry).filter second) := by
    induction cache.occupied with
    | nil => exact List.Perm.refl _
    | cons entry rest ih =>
        cases hfirst : first entry with
        | true => simpa [hfirst] using ih
        | false =>
            cases hsecond : second entry with
            | true =>
                simp only [hfirst, hsecond, List.filter_cons, Bool.false_or, Bool.not_false,
                  if_true]
                exact (ih.cons entry).trans List.perm_middle.symm
            | false => simpa [hfirst, hsecond] using ih
  have hentries : (cache.entries.map fun slot => slot.filter fun entry => !first entry).map
      (fun slot => slot.filter fun entry => !second entry) =
        cache.entries.map fun slot => slot.filter fun entry => !(first entry || second entry) := by
    rw [List.map_map]
    apply List.map_congr_left
    intro slot _
    cases slot with
    | none => rfl
    | some entry => cases hfirst : first entry <;> simp [Option.filter_some, hfirst]
  have hpayload := (hgone.map SentObject.size).sum_nat
  have hcount := hgone.length_eq
  have hoccupied := occupied_releaseWhere cache first
  rw [List.map_append, List.sum_append] at hpayload
  rw [List.length_append] at hcount
  simp only [SentCache.releaseWhere] at hoccupied ⊢
  rw [hoccupied, hentries, hpayload, hcount, Nat.sub_sub, Nat.sub_sub]

/-- Without duplicates, emptying a slot is releasing its entry. -/
theorem releaseEntry_eq {cache : SentCache} (hcache : cache.WellFormed)
    (hslot : cache.entries[index]? = some (some victim)) :
    cache.releaseEntry index = cache.releaseWhere (· == victim) := by
  have hmem : victim ∈ cache.occupied := mem_occupied.mpr (List.mem_of_getElem? hslot)
  have hgone : cache.occupied.filter (· == victim) = [victim] := by
    rw [List.filter_beq, List.count_eq_one_of_mem hcache.nodup hmem]
    rfl
  have hentries := SlotTable.set_none_eq_map hcache.nodup hslot
  simp only [releaseEntry, hslot, SentCache.releaseWhere, hgone, ← hentries]
  rfl

/-- `after` is `before` without some of the entries that may be evicted. -/
def Evicted (before after : SentCache) : Prop :=
  ∃ gone : SentObject → Bool, (∀ entry, gone entry = true → entry.recoveryProtected = false) ∧
    after = before.releaseWhere gone

theorem Evicted.refl (cache : SentCache) : Evicted cache cache :=
  ⟨fun _ => false, nofun, (releaseWhere_false cache).symm⟩

theorem Evicted.trans (hfirst : Evicted before middle) (hsecond : Evicted middle after) :
    Evicted before after := by
  obtain ⟨first, hunprotected, rfl⟩ := hfirst
  obtain ⟨second, hunprotected', rfl⟩ := hsecond
  refine ⟨_, ?_, releaseWhere_releaseWhere before first second⟩
  intro entry hgone
  rcases Bool.or_eq_true_iff.mp hgone with hgone | hgone
  · exact hunprotected entry hgone
  · exact hunprotected' entry hgone

theorem Evicted.wellFormed (hevicted : Evicted before after) (hcache : before.WellFormed) :
    after.WellFormed := by
  obtain ⟨gone, -, rfl⟩ := hevicted
  exact hcache.releaseWhere gone

theorem evicted_reclaim {cache : SentCache} (hcache : cache.WellFormed) (size : Nat)
    (allowEvict : Bool) (overlaps : SentObject → Bool) (unvisited : Nat) :
    Evicted cache (reclaim size allowEvict overlaps unvisited cache).1 := by
  induction unvisited generalizing cache with
  | zero => exact Evicted.refl cache
  | succ unvisited ih =>
      simp only [reclaim]
      split
      · exact Evicted.refl cache
      split
      · exact Evicted.refl cache
      split
      · next victim hslot =>
          split
          · next hvictim =>
              have hstep : Evicted cache (cache.releaseEntry
                  ((cache.nextEntry + (cache.capacity - (unvisited + 1))) % cache.capacity)) := by
                refine ⟨(· == victim), ?_, releaseEntry_eq hcache hslot⟩
                intro entry hgone
                obtain rfl := eq_of_beq hgone
                simpa using (Bool.and_eq_true_iff.mp hvictim).1
              exact hstep.trans (ih (hstep.wellFormed hcache))
          · exact ih hcache
      · exact ih hcache

/-! ### Storing entries -/

theorem reclaim_room {size : Nat} {allowEvict : Bool} {overlaps : SentObject → Bool}
    (hreclaim : reclaim size allowEvict overlaps unvisited cache = (reclaimed, true)) :
    reclaimed.roomFor size = true := by
  induction unvisited generalizing cache with
  | zero =>
      simp only [reclaim, Prod.mk.injEq] at hreclaim
      exact hreclaim.1 ▸ hreclaim.2
  | succ unvisited ih =>
      simp only [reclaim] at hreclaim
      split at hreclaim
      · next hroom =>
          obtain rfl : cache = reclaimed := by simpa using hreclaim
          exact hroom
      split at hreclaim
      · simp at hreclaim
      split at hreclaim
      · split at hreclaim
        · exact ih hreclaim
        · exact ih hreclaim
      · exact ih hreclaim

theorem roomFor_iff {cache : SentCache} (hcache : cache.WellFormed) :
    cache.roomFor size = true ↔
      cache.payloadBytes + size ≤ cache.maxPayloadBytes ∧ cache.count < cache.capacity := by
  have hbudget := hcache.budget
  have hcapacity := hcache.capacity
  simp only [roomFor, Bool.and_eq_true, decide_eq_true_eq, bne_iff_ne]
  omega

theorem perm_occupy {cache : SentCache} (hfree : cache.entries[index]? = some none) :
    (cache.occupy index entry).occupied.Perm (entry :: cache.occupied) :=
  SlotTable.perm_set_some hfree entry

theorem WellFormed.occupy {cache : SentCache} (hcache : cache.WellFormed)
    (hroom : cache.roomFor entry.size = true)
    (hfree : cache.entries[index]? = some none)
    (hfresh : ∀ other ∈ cache.occupied, other.identity ≠ entry.identity) :
    (cache.occupy index entry).WellFormed := by
  have hperm : (cache.occupy index entry).occupied.Perm (entry :: cache.occupied) :=
    perm_occupy hfree
  obtain ⟨hbytes, hslots⟩ := (roomFor_iff hcache).mp hroom
  constructor
  · exact hcache.limited
  · rw [(hperm.map SentObject.size).sum_nat, List.map_cons, List.sum_cons, ← hcache.payload]
    exact Nat.add_comm _ _
  · exact hbytes
  · rw [hperm.length_eq, List.length_cons, ← hcache.count]
    rfl
  · simpa [SentCache.occupy, SentCache.capacity] using Nat.succ_le_of_lt hslots
  · rw [(hperm.map SentObject.identity).nodup_iff, List.map_cons, List.nodup_cons]
    refine ⟨?_, hcache.identities⟩
    intro hmem
    obtain ⟨other, hother, heq⟩ := List.mem_map.mp hmem
    exact hfresh other hother heq

/-- Replacing an entry by one of the same identity and payload. -/
theorem wellFormed_replace {cache : SentCache} (hcache : cache.WellFormed)
    (hidentity : new.identity = old.identity) (hdata : new.data = old.data) :
    WellFormed { cache with
      entries := cache.entries.map fun slot => if slot = some old then some new else slot } := by
  have hentries : (cache.entries.map fun slot => if slot = some old then some new else slot) =
      cache.entries.map fun slot => slot.map fun entry => if entry = old then new else entry := by
    apply List.map_congr_left
    intro slot _
    cases slot with
    | none => rfl
    | some entry =>
        by_cases hold : entry = old
        · simp [hold]
        · simp [hold]
  have hoccupied : SentCache.occupied { cache with
      entries := cache.entries.map fun slot => if slot = some old then some new else slot } =
        cache.occupied.map fun entry => if entry = old then new else entry := by
    rw [occupied_eq, hentries]
    exact SlotTable.occupied_map_map _ _
  have hsizes : SentObject.size ∘ (fun entry => if entry = old then new else entry) =
      SentObject.size := by
    funext entry
    by_cases hold : entry = old
    · simp [hold, SentObject.size, hdata]
    · simp [hold]
  have hidentities : SentObject.identity ∘ (fun entry => if entry = old then new else entry) =
      SentObject.identity := by
    funext entry
    by_cases hold : entry = old
    · simp [hold, hidentity]
    · simp [hold]
  constructor
  · exact hcache.limited
  · rw [hoccupied, List.map_map, hsizes]
    exact hcache.payload
  · exact hcache.budget
  · rw [hoccupied, List.length_map]
    exact hcache.count
  · simpa [SentCache.capacity] using hcache.capacity
  · rw [hoccupied, List.map_map, hidentities]
    exact hcache.identities

theorem fresh_of_find {cache : SentCache} {object : MoqObject}
    (hfind : cache.find object.trackId object.groupId object.objectId = none) :
    ∀ other ∈ cache.occupied, other.identity ≠ object.identity := by
  intro other hother heq
  have := List.find?_eq_none.mp hfind other hother
  rw [SentObject.hasIdentity_eq, heq] at this
  exact this (beq_self_eq_true _)

/-- What storing an object leaves: the cache as it was but for evictions, the
object's entry updated in its slot, or the object in a slot that was free. -/
inductive Stored (before : SentCache) (object : MoqObject) : SentCache → Bool → Prop
  | refused (hevicted : Evicted before after) : Stored before object after false
  | retried (hfind : before.find object.trackId object.groupId object.objectId = some existing)
      (hdata : existing.data = object.data)
      (totalSymbols dataSymbols symbolSize : Nat) (allowEvict : Bool) :
      Stored before object { before with
        entries := before.entries.map fun slot =>
          if slot = some existing then
            some (restore existing object totalSymbols dataSymbols symbolSize allowEvict)
          else
            slot } true
  | placed (hfind : before.find object.trackId object.groupId object.objectId = none)
      (hevicted : Evicted before reclaimed) (hroom : reclaimed.roomFor object.size = true)
      (hfree : reclaimed.entries[index]? = some none)
      (totalSymbols dataSymbols symbolSize : Nat) (allowEvict : Bool) :
      Stored before object (reclaimed.occupy index
        (retained object totalSymbols dataSymbols symbolSize allowEvict)) true

theorem stored_store {cache : SentCache} (hcache : cache.WellFormed) (object : MoqObject)
    (totalSymbols dataSymbols symbolSize : Nat) (allowEvict allocates : Bool)
    (overlaps : SentObject → Bool) :
    let result := cache.store object totalSymbols dataSymbols symbolSize allowEvict
      allocates overlaps
    Stored cache object result.1 result.2 := by
  simp only [store]
  split
  · exact .refused (Evicted.refl cache)
  split
  · next existing hfind =>
      split
      · exact .refused (Evicted.refl cache)
      · next hdata => exact .retried hfind (by simpa using hdata) _ _ _ _
  · next hfind =>
      split
      · exact .refused (Evicted.refl cache)
      have hevicted := evicted_reclaim hcache object.size allowEvict overlaps cache.capacity
      split
      · next reclaimed heq =>
          rw [heq] at hevicted
          exact .refused hevicted
      · next reclaimed heq =>
          rw [heq] at hevicted
          split
          · exact .refused hevicted
          · next index hslot =>
              split
              · exact .refused hevicted
              · exact .placed hfind hevicted (reclaim_room heq) (freeSlot_spec hslot) _ _ _ _

theorem Stored.wellFormed (hstored : Stored before object after stored)
    (hcache : before.WellFormed) : after.WellFormed := by
  cases hstored with
  | refused hevicted => exact hevicted.wellFormed hcache
  | retried _ _ => exact wellFormed_replace hcache rfl rfl
  | placed hfind hevicted hroom hfree =>
      have hreclaimed := hevicted.wellFormed hcache
      obtain ⟨gone, -, rfl⟩ := hevicted
      refine WellFormed.occupy hreclaimed ?_ hfree ?_
      · exact hroom
      · intro other hother
        exact fresh_of_find hfind other (mem_releaseWhere.mp hother).1

end SentCache

/-! ### Runs -/

/-- A cache allocates its slots when it is initialised, at the latest by its
first store. -/
inductive CacheTable where
  | unallocated (maxPayloadBytes : Nat)
  | allocated (cache : SentCache)
  deriving DecidableEq, Repr

namespace CacheTable

/-- What the table holds; before the slots are allocated, nothing. -/
def cache : CacheTable → SentCache
  | .unallocated maxPayloadBytes =>
      SentCache.init (valueOrDefault maxPayloadBytes defaultRecoveryCacheBytes) maxFecObjectSize
  | .allocated cache => cache

/-- `transport_sent_cache_init`.  `allocates` is the outcome of allocating the
slots. -/
def init (table : CacheTable) (maxPayloadBytes maxObjectBytes : Nat) (allocates : Bool) :
    CacheTable × Bool :=
  match table with
  | .allocated cache => (.allocated cache, true)
  | .unallocated limit =>
      if !allocates then
        (.unallocated limit, false)
      else
        (.allocated (SentCache.init (valueOrDefault maxPayloadBytes defaultRecoveryCacheBytes)
          (valueOrDefault maxObjectBytes maxFecObjectSize)), true)

def find (table : CacheTable) (track : TrackId) (groupId objectId : Nat) : Option SentObject :=
  match table with
  | .unallocated _ => none
  | .allocated cache => cache.find track groupId objectId

def canStore (table : CacheTable) (object : MoqObject) (allowEvict : Bool)
    (overlaps : SentObject → Bool) : Bool :=
  match table with
  | .unallocated limit =>
      !object.data.isEmpty && object.size ≤ valueOrDefault limit defaultRecoveryCacheBytes
  | .allocated cache => cache.canStore object allowEvict overlaps

/-- `tableAllocates` and `copyAllocates` are the outcomes of allocating the slots
and of copying the payload. -/
def store (table : CacheTable) (object : MoqObject) (totalSymbols dataSymbols symbolSize : Nat)
    (allowEvict tableAllocates copyAllocates : Bool) (overlaps : SentObject → Bool) :
    CacheTable × Bool :=
  if object.data = [] then
    (table, false)
  else
    let limit := match table with
      | .unallocated limit => limit
      | .allocated cache => cache.maxPayloadBytes
    match table.init limit maxFecObjectSize tableAllocates with
    | (.allocated cache, true) =>
        let (cache, stored) := cache.store object totalSymbols dataSymbols symbolSize allowEvict
          copyAllocates overlaps
        (.allocated cache, stored)
    | (table, _) => (table, false)

def releaseThrough (table : CacheTable) (track : TrackId) (groupId objectId : Nat) :
    CacheTable :=
  match table with
  | .unallocated limit => .unallocated limit
  | .allocated cache => .allocated (cache.releaseThrough track groupId objectId)

def releaseTrack (table : CacheTable) (track : TrackId) : CacheTable :=
  match table with
  | .unallocated limit => .unallocated limit
  | .allocated cache => .allocated (cache.releaseTrack track)

end CacheTable

inductive CacheOp where
  | init (maxPayloadBytes maxObjectBytes : Nat) (allocates : Bool)
  | store (object : MoqObject) (totalSymbols dataSymbols symbolSize : Nat)
      (allowEvict tableAllocates copyAllocates : Bool) (overlaps : SentObject → Bool)
  | find (track : TrackId) (groupId objectId : Nat)
  | releaseThrough (track : TrackId) (groupId objectId : Nat)
  | releaseTrack (track : TrackId)

/-- The release operations that cover an entry. -/
def CacheOp.Releases (entry : SentObject) : CacheOp → Prop
  | .releaseThrough track groupId objectId =>
      entry.trackId = track ∧ entry.groupId = groupId ∧ entry.objectId ≤ objectId
  | .releaseTrack track => entry.trackId = track
  | _ => False

namespace CacheTable

def apply (table : CacheTable) : CacheOp → CacheTable
  | .init maxPayloadBytes maxObjectBytes allocates =>
      (table.init maxPayloadBytes maxObjectBytes allocates).1
  | .store object totalSymbols dataSymbols symbolSize allowEvict tableAllocates copyAllocates
      overlaps =>
      (table.store object totalSymbols dataSymbols symbolSize allowEvict tableAllocates
        copyAllocates overlaps).1
  | .find _ _ _ => table
  | .releaseThrough track groupId objectId => table.releaseThrough track groupId objectId
  | .releaseTrack track => table.releaseTrack track

theorem valueOrDefault_limit_pos (maxPayloadBytes : Nat) :
    0 < valueOrDefault maxPayloadBytes defaultRecoveryCacheBytes := by
  have hdefault : 0 < defaultRecoveryCacheBytes := by decide
  unfold valueOrDefault
  split <;> omega

theorem cache_init (table : CacheTable) (maxPayloadBytes maxObjectBytes : Nat)
    (allocates : Bool) :
    (table.init maxPayloadBytes maxObjectBytes allocates).1 = table ∨
      ∃ limit objectLimit, 0 < limit ∧ table.cache.occupied = [] ∧
        (table.init maxPayloadBytes maxObjectBytes allocates).1 =
          .allocated (SentCache.init limit objectLimit) := by
  cases table with
  | allocated cache => exact .inl rfl
  | unallocated limit =>
      cases allocates with
      | false => exact .inl rfl
      | true =>
          exact .inr ⟨_, _, valueOrDefault_limit_pos maxPayloadBytes,
            SlotTable.occupied_replicate_none _, rfl⟩

/-- Allocating the slots at the first store changes nothing of what is held. -/
theorem cache_store (table : CacheTable) (object : MoqObject)
    (totalSymbols dataSymbols symbolSize : Nat)
    (allowEvict tableAllocates copyAllocates : Bool) (overlaps : SentObject → Bool) :
    let result := table.store object totalSymbols dataSymbols symbolSize allowEvict
      tableAllocates copyAllocates overlaps
    (result.1.cache, result.2) = (table.cache, false) ∨
      (result.1.cache, result.2) = table.cache.store object totalSymbols dataSymbols symbolSize
        allowEvict copyAllocates overlaps := by
  simp only [store]
  split
  · exact .inl rfl
  cases table with
  | allocated cache => exact .inr rfl
  | unallocated limit =>
      cases tableAllocates with
      | false => exact .inl rfl
      | true => exact .inr rfl

theorem stored_store {table : CacheTable} (htable : table.cache.WellFormed)
    (object : MoqObject) (totalSymbols dataSymbols symbolSize : Nat)
    (allowEvict tableAllocates copyAllocates : Bool) (overlaps : SentObject → Bool) :
    let result := table.store object totalSymbols dataSymbols symbolSize allowEvict
      tableAllocates copyAllocates overlaps
    SentCache.Stored table.cache object result.1.cache result.2 := by
  intro result
  have hcases := cache_store table object totalSymbols dataSymbols symbolSize allowEvict
    tableAllocates copyAllocates overlaps
  rcases hcases with hsame | hstore
  · obtain ⟨hcache, hresult⟩ := Prod.mk.inj hsame
    rw [hcache, hresult]
    exact .refused (SentCache.Evicted.refl _)
  · have hstored := SentCache.stored_store htable object totalSymbols dataSymbols symbolSize
      allowEvict copyAllocates overlaps
    rw [← hstore] at hstored
    exact hstored

theorem wellFormed_releaseThrough {table : CacheTable} (htable : table.cache.WellFormed)
    (track : TrackId) (groupId objectId : Nat) :
    (table.releaseThrough track groupId objectId).cache.WellFormed := by
  cases table with
  | unallocated limit => exact htable
  | allocated cache => exact htable.releaseWhere _

theorem wellFormed_releaseTrack {table : CacheTable} (htable : table.cache.WellFormed)
    (track : TrackId) : (table.releaseTrack track).cache.WellFormed := by
  cases table with
  | unallocated limit => exact htable
  | allocated cache => exact htable.releaseWhere _

theorem wellFormed_apply {table : CacheTable} (htable : table.cache.WellFormed) (op : CacheOp) :
    (table.apply op).cache.WellFormed := by
  cases op with
  | init maxPayloadBytes maxObjectBytes allocates =>
      rcases cache_init table maxPayloadBytes maxObjectBytes allocates with
        hsame | ⟨limit, objectLimit, hlimit, -, hinit⟩
      · rw [apply, hsame]
        exact htable
      · rw [apply, hinit]
        exact SentCache.wellFormed_init hlimit
  | store object totalSymbols dataSymbols symbolSize allowEvict tableAllocates copyAllocates
      overlaps =>
      exact (stored_store htable object totalSymbols dataSymbols symbolSize allowEvict
        tableAllocates copyAllocates overlaps).wellFormed htable
  | find track groupId objectId => exact htable
  | releaseThrough track groupId objectId =>
      exact wellFormed_releaseThrough htable track groupId objectId
  | releaseTrack track => exact wellFormed_releaseTrack htable track

/-- A protected entry is still there, still protected. -/
def Retains (table : CacheTable) (entry : SentObject) : Prop :=
  ∃ kept ∈ table.cache.occupied, kept.identity = entry.identity ∧ kept.data = entry.data ∧
    kept.recoveryProtected = true

theorem Retains.of_mem {table : CacheTable} (hentry : entry ∈ table.cache.occupied)
    (hprotected : entry.recoveryProtected = true) : table.Retains entry :=
  ⟨entry, hentry, rfl, rfl, hprotected⟩

theorem retains_store {table : CacheTable} (object : MoqObject)
    (totalSymbols dataSymbols symbolSize : Nat)
    (allowEvict tableAllocates copyAllocates : Bool) (overlaps : SentObject → Bool)
    (hentry : entry ∈ table.cache.occupied) (hprotected : entry.recoveryProtected = true) :
    (table.store object totalSymbols dataSymbols symbolSize allowEvict tableAllocates
      copyAllocates overlaps).1.Retains entry := by
  rcases cache_store table object totalSymbols dataSymbols symbolSize allowEvict tableAllocates
    copyAllocates overlaps with hsame | hstore
  · rw [Retains, (Prod.mk.inj hsame).1]
    exact ⟨entry, hentry, rfl, rfl, hprotected⟩
  · obtain ⟨kept, hkept, hprotected', hdata, hidentity⟩ :=
      (SentCache.stores_store table.cache object totalSymbols dataSymbols symbolSize allowEvict
        copyAllocates overlaps).keeps entry hentry hprotected
    rw [← hstore] at hkept
    rw [SentObject.hasIdentity_eq] at hidentity
    exact ⟨kept, hkept, eq_of_beq hidentity, hdata, hprotected'⟩

/-- Only a release takes a protected entry away. -/
theorem retains_apply {table : CacheTable} (op : CacheOp) (hentry : entry ∈ table.cache.occupied)
    (hprotected : entry.recoveryProtected = true) :
    op.Releases entry ∨ (table.apply op).Retains entry := by
  cases op with
  | init maxPayloadBytes maxObjectBytes allocates =>
      rcases cache_init table maxPayloadBytes maxObjectBytes allocates with
        hsame | ⟨limit, objectLimit, -, hempty, -⟩
      · rw [apply, hsame]
        exact .inr (.of_mem hentry hprotected)
      · rw [hempty] at hentry
        exact absurd hentry List.not_mem_nil
  | store object totalSymbols dataSymbols symbolSize allowEvict tableAllocates copyAllocates
      overlaps => exact .inr (retains_store _ _ _ _ _ _ _ _ hentry hprotected)
  | find track groupId objectId => exact .inr (.of_mem hentry hprotected)
  | releaseThrough track groupId objectId =>
      by_cases hreleased : CacheOp.Releases entry (.releaseThrough track groupId objectId)
      · exact .inl hreleased
      cases table with
      | unallocated limit => exact .inr (.of_mem hentry hprotected)
      | allocated cache =>
          exact .inr (.of_mem (SentCache.mem_releaseThrough.mpr ⟨hentry, hreleased⟩) hprotected)
  | releaseTrack track =>
      by_cases hreleased : CacheOp.Releases entry (.releaseTrack track)
      · exact .inl hreleased
      cases table with
      | unallocated limit => exact .inr (.of_mem hentry hprotected)
      | allocated cache =>
          exact .inr (.of_mem (SentCache.mem_releaseTrack.mpr ⟨hentry, hreleased⟩) hprotected)

/-- Over every run the counters stay those of the slots within both budgets, and
a protected entry leaves through a release only. -/
theorem run_accounted (maxPayloadBytes : Nat) (ops : List CacheOp) :
    (Machine.run apply (.unallocated maxPayloadBytes) ops).cache.WellFormed ∧
      Machine.Along apply (fun table op => ∀ entry ∈ table.cache.occupied,
        entry.recoveryProtected = true →
          op.Releases entry ∨ (table.apply op).Retains entry)
        (.unallocated maxPayloadBytes) ops := by
  constructor
  · have hstart : (unallocated maxPayloadBytes).cache.WellFormed :=
      SentCache.wellFormed_init (valueOrDefault_limit_pos maxPayloadBytes)
    have hstep : ∀ (table : CacheTable) (op : CacheOp), table.cache.WellFormed → True →
        (table.apply op).cache.WellFormed :=
      fun table op htable _ => wellFormed_apply htable op
    exact Machine.invariant_run hstep hstart (Machine.along_true _ ops)
  · apply Machine.along_of_forall_mem
    intro table op _ entry hentry hprotected
    exact retains_apply op hentry hprotected

end CacheTable

end Qlinq
