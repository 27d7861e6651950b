import Mathlib.Algebra.Order.BigOperators.Group.List
import Mathlib.Algebra.Order.Ring.Nat
import Qlinq.CacheState

namespace Qlinq

/-! The publisher asks whether the cache can take an object before it sends the
object, and stores it afterwards: the two agree. -/

namespace SentCache

/-- The entries an object may push out. -/
def evictable (allowEvict : Bool) (overlaps : SentObject → Bool) (entry : SentObject) : Bool :=
  allowEvict && !entry.recoveryProtected && !overlaps entry

/-! ### What the admission scan answers -/

theorem scanRoom_of_mem {object : MoqObject} {slots : List (Option SentObject)}
    (hmem : ∃ entry ∈ SlotTable.occupied slots, entry.identity = object.identity)
    (hsame : ∀ entry ∈ SlotTable.occupied slots, entry.identity = object.identity →
      entry.data = object.data)
    (allowEvict : Bool) (overlaps : SentObject → Bool) (available : Nat) (slotAvailable : Bool) :
    scanRoom object allowEvict overlaps slots available slotAvailable = true := by
  induction slots generalizing available slotAvailable with
  | nil => simp at hmem
  | cons slot rest ih =>
      cases slot with
      | none => exact ih hmem hsame available true
      | some entry =>
          rw [SlotTable.occupied_cons_some] at hmem hsame
          rw [scanRoom, SentObject.hasIdentity_eq]
          by_cases hidentity : entry.identity = object.identity
          · have hdata := hsame entry List.mem_cons_self hidentity
            simp only [MoqObject.identity] at hidentity
            simp [hidentity, hdata]
          · have hrest : ∃ other ∈ SlotTable.occupied rest, other.identity = object.identity := by
              obtain ⟨other, hother, heq⟩ := hmem
              rcases List.mem_cons.mp hother with rfl | hother
              · exact absurd heq hidentity
              · exact ⟨other, hother, heq⟩
            have htail := ih hrest fun other hother => hsame other (List.mem_cons_of_mem _ hother)
            simp only [MoqObject.identity] at hidentity
            simp [hidentity, htail]

/-- Without an entry of the object's identity the scan sums what may be freed. -/
theorem scanRoom_of_fresh {object : MoqObject} {slots : List (Option SentObject)}
    (hfresh : ∀ entry ∈ SlotTable.occupied slots, entry.identity ≠ object.identity)
    (allowEvict : Bool) (overlaps : SentObject → Bool)
    (available : Nat) (slotAvailable : Bool) :
    scanRoom object allowEvict overlaps slots available slotAvailable = true ↔
      (slotAvailable = true ∨ none ∈ slots ∨
        ∃ entry ∈ SlotTable.occupied slots, evictable allowEvict overlaps entry = true) ∧
      object.size ≤ available + (((SlotTable.occupied slots).filter
        (evictable allowEvict overlaps)).map SentObject.size).sum := by
  induction slots generalizing available slotAvailable with
  | nil => simp [scanRoom]
  | cons slot rest ih =>
      cases slot with
      | none =>
          rw [scanRoom, ih hfresh available true]
          simp
      | some entry =>
          rw [SlotTable.occupied_cons_some] at hfresh
          obtain ⟨hother, hrest⟩ := List.forall_mem_cons.mp hfresh
          have hidentity : entry.hasIdentity object.trackId object.groupId object.objectId =
              false := by
            rw [SentObject.hasIdentity_eq, beq_eq_false_iff_ne]
            exact hother
          rw [scanRoom, hidentity, if_neg Bool.false_ne_true]
          change (if evictable allowEvict overlaps entry = true then _ else _) = true ↔ _
          by_cases hevictable : evictable allowEvict overlaps entry = true
          · rw [if_pos hevictable, ih hrest, SlotTable.occupied_cons_some,
              List.filter_cons_of_pos hevictable, List.map_cons, List.sum_cons, Nat.add_assoc]
            exact and_congr_left' ⟨fun _ => .inr (.inr ⟨entry, List.mem_cons_self, hevictable⟩),
              fun _ => .inl rfl⟩
          · rw [if_neg hevictable, ih hrest, SlotTable.occupied_cons_some,
              List.filter_cons_of_neg hevictable]
            simp [hevictable]

/-! ### The eviction loop -/

/-- The slots the loop has passed hold nothing it could evict. -/
def Passed (cache : SentCache) (allowEvict : Bool) (overlaps : SentObject → Bool)
    (rounds : Nat) : Prop :=
  ∀ offset < rounds, ∀ entry,
    cache.entries[(cache.nextEntry + offset) % cache.capacity]? = some (some entry) →
      evictable allowEvict overlaps entry = false

theorem capacity_releaseEntry (cache : SentCache) (index : Nat) :
    (cache.releaseEntry index).capacity = cache.capacity := by
  unfold releaseEntry
  split
  · exact List.length_set
  · rfl

theorem nextEntry_releaseEntry (cache : SentCache) (index : Nat) :
    (cache.releaseEntry index).nextEntry = cache.nextEntry := by
  unfold releaseEntry
  split <;> rfl

theorem getElem?_releaseEntry {cache : SentCache} {index position : Nat} {entry : SentObject}
    (hentry : (cache.releaseEntry index).entries[position]? = some (some entry)) :
    cache.entries[position]? = some (some entry) := by
  unfold releaseEntry at hentry
  split at hentry
  · next victim hslot =>
      by_cases hposition : index = position
      · obtain ⟨hlt, -⟩ := List.getElem?_eq_some_iff.mp hslot
        rw [← hposition, List.getElem?_set_self hlt] at hentry
        simp at hentry
      · rwa [List.getElem?_set_ne hposition] at hentry
  · exact hentry

theorem Passed.releaseEntry {cache : SentCache}
    (hpassed : cache.Passed allowEvict overlaps rounds) (index : Nat) :
    (cache.releaseEntry index).Passed allowEvict overlaps rounds := by
  intro offset hoffset entry hentry
  rw [nextEntry_releaseEntry, capacity_releaseEntry] at hentry
  exact hpassed offset hoffset entry (getElem?_releaseEntry hentry)

theorem Passed.succ {cache : SentCache} (hpassed : cache.Passed allowEvict overlaps rounds)
    (hhere : ∀ entry,
      cache.entries[(cache.nextEntry + rounds) % cache.capacity]? = some (some entry) →
        evictable allowEvict overlaps entry = false) :
    cache.Passed allowEvict overlaps (rounds + 1) := by
  intro offset hoffset entry hentry
  rcases Nat.lt_succ_iff_lt_or_eq.mp hoffset with hlt | rfl
  · exact hpassed offset hlt entry hentry
  · exact hhere entry hentry

/-- A whole pass meets every slot. -/
theorem Passed.all {cache : SentCache}
    (hpassed : cache.Passed allowEvict overlaps cache.capacity) :
    ∀ entry ∈ cache.occupied, evictable allowEvict overlaps entry = false := by
  intro entry hentry
  obtain ⟨index, hindex⟩ := List.mem_iff_getElem?.mp (mem_occupied.mp hentry)
  obtain ⟨hlt, -⟩ := List.getElem?_eq_some_iff.mp hindex
  obtain ⟨offset, hoffset, heq⟩ := SlotTable.exists_offset cache.nextEntry hlt
  exact hpassed offset hoffset entry (by rw [capacity, heq]; exact hindex)

/-- One round of the loop: the slot in turn is emptied if that is allowed. -/
def evictRound (cache : SentCache) (overlaps : SentObject → Bool) (offset : Nat) : SentCache :=
  let index := (cache.nextEntry + offset) % cache.capacity
  match cache.entries[index]? with
  | some (some entry) =>
      if !entry.recoveryProtected && !overlaps entry then cache.releaseEntry index else cache
  | _ => cache

theorem evictRound_cases (cache : SentCache) (overlaps : SentObject → Bool) (offset : Nat) :
    cache.evictRound overlaps offset = cache ∨
      cache.evictRound overlaps offset =
        cache.releaseEntry ((cache.nextEntry + offset) % cache.capacity) := by
  simp only [evictRound]
  split
  · split
    · exact .inr rfl
    · exact .inl rfl
  · exact .inl rfl

theorem capacity_evictRound (cache : SentCache) (overlaps : SentObject → Bool) (offset : Nat) :
    (cache.evictRound overlaps offset).capacity = cache.capacity := by
  rcases cache.evictRound_cases overlaps offset with hkept | hreleased
  · rw [hkept]
  · rw [hreleased, capacity_releaseEntry]

theorem Passed.evictRound {cache : SentCache} (hpassed : cache.Passed true overlaps rounds) :
    (cache.evictRound overlaps rounds).Passed true overlaps (rounds + 1) := by
  simp only [SentCache.evictRound]
  split
  · next victim hslot =>
      split
      · refine (hpassed.releaseEntry _).succ ?_
        intro entry hentry
        obtain ⟨hlt, -⟩ := List.getElem?_eq_some_iff.mp hslot
        rw [nextEntry_releaseEntry, capacity_releaseEntry] at hentry
        simp [SentCache.releaseEntry, hslot, List.getElem?_set_self hlt] at hentry
      · next hvictim =>
          refine hpassed.succ ?_
          intro entry hentry
          obtain rfl : victim = entry := by
            rw [hslot] at hentry
            simpa using hentry
          simpa [evictable] using hvictim
  · next hother => exact hpassed.succ fun entry hentry => absurd hentry (hother entry)

theorem reclaim_succ (size : Nat) (allowEvict : Bool) (overlaps : SentObject → Bool)
    (unvisited : Nat) (cache : SentCache) :
    reclaim size allowEvict overlaps (unvisited + 1) cache =
      if cache.roomFor size then
        (cache, true)
      else if !allowEvict then
        (cache, false)
      else
        reclaim size allowEvict overlaps unvisited
          (cache.evictRound overlaps (cache.capacity - (unvisited + 1))) := by
  simp only [reclaim, evictRound]
  split
  · rfl
  split
  · rfl
  generalize cache.entries[(cache.nextEntry + (cache.capacity - (unvisited + 1))) %
    cache.capacity]? = slot
  rcases slot with _ | _ | entry
  · rfl
  · rfl
  · simp only
    split <;> rfl

/-- The loop gives up where there is no room, with nothing left to evict. -/
theorem reclaim_gives_up {size : Nat} {allowEvict : Bool} {overlaps : SentObject → Bool}
    {cache : SentCache} (hunvisited : unvisited ≤ cache.capacity)
    (hpassed : cache.Passed allowEvict overlaps (cache.capacity - unvisited))
    (hfail : (reclaim size allowEvict overlaps unvisited cache).2 = false) :
    (reclaim size allowEvict overlaps unvisited cache).1.roomFor size = false ∧
      ∀ entry ∈ (reclaim size allowEvict overlaps unvisited cache).1.occupied,
        evictable allowEvict overlaps entry = false := by
  induction unvisited generalizing cache with
  | zero => exact ⟨hfail, hpassed.all⟩
  | succ unvisited ih =>
      rw [reclaim_succ] at hfail ⊢
      split at hfail
      · simp at hfail
      next hroom =>
      rw [if_neg hroom]
      split at hfail
      · next hforbidden =>
          rw [if_pos hforbidden]
          refine ⟨by simpa using hroom, ?_⟩
          intro entry _
          rw [Bool.not_eq_true'] at hforbidden
          simp [evictable, hforbidden]
      next hallowed =>
      rw [if_neg hallowed]
      obtain rfl : allowEvict = true := by simpa using hallowed
      have hcapacity :=
        capacity_evictRound cache overlaps (cache.capacity - (unvisited + 1))
      have hrounds : cache.capacity - (unvisited + 1) + 1 = cache.capacity - unvisited := by omega
      have hpassed' := hpassed.evictRound
      rw [hrounds, ← hcapacity] at hpassed'
      refine ih ?_ ?_ hfail
      · rw [hcapacity]
        omega
      · rw [hcapacity] at hpassed' ⊢
        exact hpassed'

/-- The loop as it is written, `offset` counting its rounds; the fuel is spent
where it would still be running. -/
def reclaimLoop (size : Nat) (allowEvict : Bool) (overlaps : SentObject → Bool) :
    (fuel offset : Nat) → SentCache → Option (SentCache × Bool)
  | 0, _, _ => none
  | fuel + 1, offset, cache =>
      if cache.roomFor size then
        some (cache, true)
      else if !allowEvict || offset == cache.capacity then
        some (cache, false)
      else
        reclaimLoop size allowEvict overlaps fuel (offset + 1) (cache.evictRound overlaps offset)

theorem reclaimLoop_eq (size : Nat) (allowEvict : Bool) (overlaps : SentObject → Bool)
    (unvisited : Nat) (cache : SentCache) (hunvisited : unvisited ≤ cache.capacity) :
    reclaimLoop size allowEvict overlaps (unvisited + 1) (cache.capacity - unvisited) cache =
      some (reclaim size allowEvict overlaps unvisited cache) := by
  induction unvisited generalizing cache with
  | zero =>
      rw [reclaimLoop, reclaim]
      split
      · next hroom => rw [hroom]
      · next hroom => simpa using hroom
  | succ unvisited ih =>
      rw [reclaimLoop, reclaim_succ]
      split
      · rfl
      have hbefore : (cache.capacity - (unvisited + 1) == cache.capacity) = false := by
        rw [beq_eq_false_iff_ne]
        omega
      rw [hbefore, Bool.or_false]
      split
      · rfl
      have hcapacity := capacity_evictRound cache overlaps (cache.capacity - (unvisited + 1))
      have hrounds : cache.capacity - (unvisited + 1) + 1 = cache.capacity - unvisited := by omega
      have hrest := ih (cache.evictRound overlaps (cache.capacity - (unvisited + 1)))
        (by rw [hcapacity]; omega)
      rw [hcapacity] at hrest
      rw [hrounds, hrest]

/-! ### Admission and storage -/

theorem reclaim_of_room {cache : SentCache} {size : Nat} (hroom : cache.roomFor size = true)
    (allowEvict : Bool) (overlaps : SentObject → Bool) (unvisited : Nat) :
    reclaim size allowEvict overlaps unvisited cache = (cache, true) := by
  cases unvisited with
  | zero => rw [reclaim, hroom]
  | succ unvisited => rw [reclaim_succ, if_pos hroom]

theorem sum_kept_le {entries : List SentObject} {gone evicted : SentObject → Bool}
    (hkept : ∀ entry ∈ entries, gone entry = false → evicted entry = false) :
    ((entries.filter fun entry => !gone entry).map SentObject.size).sum ≤
      ((entries.filter fun entry => !evicted entry).map SentObject.size).sum := by
  induction entries with
  | nil => exact Nat.le_refl _
  | cons entry rest ih =>
      obtain ⟨hhere, hrest⟩ := List.forall_mem_cons.mp hkept
      have htail := ih hrest
      cases hgone : gone entry with
      | false => simpa [hgone, hhere hgone] using htail
      | true =>
          cases hevicted : evicted entry with
          | false => simpa [hgone, hevicted] using htail.trans (Nat.le_add_left _ _)
          | true => simpa [hgone, hevicted] using htail

theorem canStore_iff {cache : SentCache} (hcache : cache.WellFormed) {object : MoqObject}
    (hfresh : ∀ entry ∈ cache.occupied, entry.identity ≠ object.identity)
    (allowEvict : Bool) (overlaps : SentObject → Bool) :
    cache.canStore object allowEvict overlaps = true ↔
      object.data ≠ [] ∧ object.size ≤ cache.maxPayloadBytes ∧
        (cache.roomFor object.size = true ∨
          (none ∈ cache.entries ∨
            ∃ entry ∈ cache.occupied, evictable allowEvict overlaps entry = true) ∧
          object.size ≤ cache.maxPayloadBytes - cache.payloadBytes +
            ((cache.occupied.filter (evictable allowEvict overlaps)).map SentObject.size).sum) := by
  have hbudget := hcache.budget
  have hscan := scanRoom_of_fresh hfresh allowEvict overlaps
    (cache.maxPayloadBytes - cache.payloadBytes) false
  have hfast : (cache.count < cache.capacity ∧
      object.size ≤ cache.maxPayloadBytes - cache.payloadBytes) ↔
        cache.roomFor object.size = true := by
    rw [roomFor_iff hcache]
    omega
  unfold canStore
  split
  · next hrefused =>
      simp only [Bool.false_eq_true, false_iff]
      rintro ⟨hdata, hsize, -⟩
      rcases hrefused with hempty | hlarge | hover
      · exact hdata hempty
      · omega
      · omega
  · next hrefused =>
      rw [not_or, not_or] at hrefused
      obtain ⟨hdata, hsize, -⟩ := hrefused
      by_cases hroom : cache.roomFor object.size = true
      · simp [hfast.mpr hroom, hdata, hroom, Nat.le_of_not_lt hsize]
      · simp only [hfast, hroom, Bool.false_eq_true, if_false]
        rw [hscan]
        simp [hdata, Nat.le_of_not_lt hsize, occupied_eq]

/-- What the admission check promises the eviction loop brings about. -/
theorem reclaim_of_canStore {cache : SentCache} (hcache : cache.WellFormed) {object : MoqObject}
    (hfresh : ∀ entry ∈ cache.occupied, entry.identity ≠ object.identity)
    {allowEvict : Bool} {overlaps : SentObject → Bool}
    (hcan : cache.canStore object allowEvict overlaps = true) :
    (reclaim object.size allowEvict overlaps cache.capacity cache).2 = true := by
  obtain ⟨-, -, hroom | ⟨hslot, hbytes⟩⟩ := (canStore_iff hcache hfresh allowEvict overlaps).mp hcan
  · rw [reclaim_of_room hroom]
  by_contra hfail
  have hstart : cache.Passed allowEvict overlaps (cache.capacity - cache.capacity) := by
    intro offset hoffset
    omega
  obtain ⟨hfull, hleft⟩ :=
    reclaim_gives_up (Nat.le_refl _) hstart (by simpa using hfail)
  obtain ⟨gone, -, hreclaimed⟩ :=
    evicted_reclaim hcache object.size allowEvict overlaps cache.capacity
  rw [hreclaimed] at hfull hleft
  have hkept : ∀ entry ∈ cache.occupied, gone entry = false →
      evictable allowEvict overlaps entry = false :=
    fun entry hentry hgone => hleft entry (mem_releaseWhere.mpr ⟨hentry, hgone⟩)
  have hwell := hcache.releaseWhere gone
  have hpayload := hwell.payload
  have hcount := hwell.count
  rw [occupied_releaseWhere] at hpayload hcount
  have hsum := sum_kept_le hkept
  have hsplit := sum_sizes_split cache.occupied (evictable allowEvict overlaps)
  have hbudget := hcache.budget
  have hbefore := hcache.payload
  have hfits : (cache.releaseWhere gone).payloadBytes + object.size ≤
      (cache.releaseWhere gone).maxPayloadBytes := by
    have hlimit : (cache.releaseWhere gone).maxPayloadBytes = cache.maxPayloadBytes := rfl
    omega
  have hfree : (cache.releaseWhere gone).count < (cache.releaseWhere gone).capacity := by
    have hle := SlotTable.length_occupied_le cache.entries
    have hlength := length_split cache.occupied gone
    rw [occupied_eq] at hlength hcount
    rw [capacity_releaseWhere, capacity]
    rcases hslot with hnone | ⟨entry, hentry, hevictable⟩
    · have hlt := SlotTable.none_mem_iff.mp hnone
      omega
    · have hgone : gone entry = true := by
        by_contra hstays
        rw [hkept entry hentry (by simpa using hstays)] at hevictable
        exact Bool.false_ne_true hevictable
      have hpos : 0 < ((SlotTable.occupied cache.entries).filter gone).length :=
        List.length_pos_of_mem (List.mem_filter.mpr ⟨hentry, hgone⟩)
      omega
  rw [(roomFor_iff hwell).mpr ⟨hfits, hfree⟩] at hfull
  exact Bool.false_ne_true hfull.symm

theorem capacity_init_pos (maxPayloadBytes maxObjectBytes : Nat) :
    0 < (init maxPayloadBytes maxObjectBytes).capacity := by
  have hcapacity : (init maxPayloadBytes maxObjectBytes).capacity =
      initCapacity maxPayloadBytes maxObjectBytes := List.length_replicate
  rw [hcapacity, initCapacity, sentCacheSize, sentCacheMaxSize]
  omega

theorem freeSlot_isSome {cache : SentCache} (hnone : none ∈ cache.entries) :
    cache.freeSlot.isSome = true := by
  obtain ⟨index, hindex⟩ := List.mem_iff_getElem?.mp hnone
  obtain ⟨hlt, -⟩ := List.getElem?_eq_some_iff.mp hindex
  obtain ⟨offset, hoffset, heq⟩ := SlotTable.exists_offset cache.nextEntry hlt
  rw [freeSlot, List.find?_isSome]
  refine ⟨index, ?_, by simpa using hindex⟩
  exact List.mem_map.mpr ⟨offset, List.mem_range.mpr hoffset, heq⟩

/-- Storing an admitted object that is new to the cache comes down to the copy. -/
theorem store_of_canStore {cache : SentCache} (hcache : cache.WellFormed) {object : MoqObject}
    (hfind : cache.find object.trackId object.groupId object.objectId = none)
    {allowEvict : Bool} {overlaps : SentObject → Bool}
    (hcan : cache.canStore object allowEvict overlaps = true)
    (totalSymbols dataSymbols symbolSize : Nat) :
    ∃ reclaimed index, Evicted cache reclaimed ∧ ∀ allocates : Bool,
      cache.store object totalSymbols dataSymbols symbolSize allowEvict allocates overlaps =
        if allocates then
          (reclaimed.occupy index
            (retained object totalSymbols dataSymbols symbolSize allowEvict), true)
        else
          (reclaimed, false) := by
  have hfresh := fresh_of_find hfind
  have hdata := ((canStore_iff hcache hfresh allowEvict overlaps).mp hcan).1
  have hevicted := evicted_reclaim hcache object.size allowEvict overlaps cache.capacity
  have hdone := reclaim_of_canStore hcache hfresh hcan
  rcases hreclaim : reclaim object.size allowEvict overlaps cache.capacity cache with
    ⟨reclaimed, done⟩
  rw [hreclaim] at hevicted hdone
  obtain rfl : done = true := hdone
  have hwell := hevicted.wellFormed hcache
  obtain ⟨-, hcount⟩ := (roomFor_iff hwell).mp (reclaim_room hreclaim)
  rw [hwell.count] at hcount
  obtain ⟨index, hslot⟩ := Option.isSome_iff_exists.mp
    (freeSlot_isSome (SlotTable.none_mem_iff.mpr hcount))
  refine ⟨reclaimed, index, hevicted, ?_⟩
  intro allocates
  cases allocates with
  | true => simp [store, hdata, hfind, hcan, hreclaim, hslot]
  | false => simp [store, hdata, hfind, hcan, hreclaim, hslot]

/-- An object that is cached already is admitted. -/
theorem canStore_of_mem {cache : SentCache} (hcache : cache.WellFormed) {object : MoqObject}
    (hdata : object.data ≠ []) (hmem : existing ∈ cache.occupied)
    (hidentity : existing.identity = object.identity)
    (hsame : ∀ entry ∈ cache.occupied, entry.identity = object.identity →
      entry.data = object.data)
    (allowEvict : Bool) (overlaps : SentObject → Bool) :
    cache.canStore object allowEvict overlaps = true := by
  have hpart : existing.size ≤ (cache.occupied.map SentObject.size).sum :=
    List.le_sum_of_mem (List.mem_map_of_mem hmem)
  have hsize : existing.size = object.size :=
    congrArg List.length (hsame existing hmem hidentity)
  have hpayload := hcache.payload
  have hbudget := hcache.budget
  have hscan := scanRoom_of_mem ⟨existing, hmem, hidentity⟩ hsame allowEvict overlaps
    (cache.maxPayloadBytes - cache.payloadBytes) false
  have hwithin : ¬(object.data = [] ∨ cache.maxPayloadBytes < object.size ∨
      cache.maxPayloadBytes < cache.payloadBytes) := by
    rw [or_iff_right hdata]
    omega
  rw [canStore, if_neg hwithin]
  simp only
  split
  · rfl
  · exact hscan

theorem canStore_eq_store {cache : SentCache} (hcache : cache.WellFormed) {object : MoqObject}
    (hsame : ∀ entry ∈ cache.occupied, entry.identity = object.identity →
      entry.data = object.data)
    (totalSymbols dataSymbols symbolSize : Nat) (allowEvict : Bool)
    (overlaps : SentObject → Bool) :
    cache.canStore object allowEvict overlaps =
      (cache.store object totalSymbols dataSymbols symbolSize allowEvict true overlaps).2 := by
  cases hfind : cache.find object.trackId object.groupId object.objectId with
  | none =>
      cases hcan : cache.canStore object allowEvict overlaps with
      | true =>
          obtain ⟨reclaimed, index, -, hstore⟩ :=
            store_of_canStore hcache hfind hcan totalSymbols dataSymbols symbolSize
          rw [hstore]
          rfl
      | false =>
          by_cases hdata : object.data = []
          · simp [store, hdata]
          · simp [store, hdata, hfind, hcan]
  | some existing =>
      obtain ⟨hmem, htrack, hgroup, hobject⟩ := mem_of_find hfind
      have hidentity : existing.identity = object.identity := by
        simp [SentObject.identity, MoqObject.identity, htrack, hgroup, hobject]
      have hexisting := hsame existing hmem hidentity
      by_cases hdata : object.data = []
      · simp [store, canStore, hdata]
      · have hstored : (cache.store object totalSymbols dataSymbols symbolSize allowEvict true
            overlaps).2 = true := by
          simp [store, hdata, hfind, hexisting]
        rw [hstored]
        exact canStore_of_mem hcache hdata hmem hidentity hsame allowEvict overlaps

/-- What a failed store leaves behind. -/
theorem store_failed {cache : SentCache} (hcache : cache.WellFormed) {object : MoqObject}
    {totalSymbols dataSymbols symbolSize : Nat} {allowEvict allocates : Bool}
    {overlaps : SentObject → Bool}
    (hfail : (cache.store object totalSymbols dataSymbols symbolSize allowEvict allocates
      overlaps).2 = false) :
    let after := (cache.store object totalSymbols dataSymbols symbolSize allowEvict allocates
      overlaps).1
    after = cache ∨ allocates = false ∧ Evicted cache after := by
  intro after
  by_cases hdata : object.data = []
  · exact .inl (by simp [after, store, hdata])
  cases hfind : cache.find object.trackId object.groupId object.objectId with
  | some existing =>
      by_cases hconflict : existing.data = object.data
      · simp [store, hdata, hfind, hconflict] at hfail
      · exact .inl (by simp [after, store, hdata, hfind, hconflict])
  | none =>
      cases hcan : cache.canStore object allowEvict overlaps with
      | false => exact .inl (by simp [after, store, hdata, hfind, hcan])
      | true =>
          obtain ⟨reclaimed, index, hevicted, hstore⟩ :=
            store_of_canStore hcache hfind hcan totalSymbols dataSymbols symbolSize
          have hstored := hstore allocates
          cases allocates with
          | true => simp [hstored] at hfail
          | false => exact .inr ⟨rfl, by simpa [after, hstored] using hevicted⟩

end SentCache

namespace CacheTable

/-- Before the slots are allocated the answers are those of the empty table. -/
theorem canStore_cache (table : CacheTable) (object : MoqObject) (allowEvict : Bool)
    (overlaps : SentObject → Bool) :
    table.canStore object allowEvict overlaps =
      table.cache.canStore object allowEvict overlaps := by
  cases table with
  | allocated cache => rfl
  | unallocated limit =>
      have hslots := SentCache.capacity_init_pos
        (valueOrDefault limit defaultRecoveryCacheBytes) maxFecObjectSize
      by_cases hdata : object.data = []
      · simp [canStore, SentCache.canStore, hdata]
      by_cases hsize : object.size ≤ valueOrDefault limit defaultRecoveryCacheBytes
      · have hwithin : ¬(object.data = [] ∨
            valueOrDefault limit defaultRecoveryCacheBytes < object.size ∨
              valueOrDefault limit defaultRecoveryCacheBytes < 0) := by
          rw [or_iff_right hdata]
          omega
        have hfast : (unallocated limit).cache.canStore object allowEvict overlaps = true := by
          rw [cache, SentCache.canStore]
          exact (if_neg hwithin).trans (if_pos ⟨hslots, hsize⟩)
        simp [canStore, hfast, hdata, hsize]
      · have hover := Nat.lt_of_not_le hsize
        simp [canStore, SentCache.canStore, cache, SentCache.init, hdata, hsize, hover]

theorem store_cache (table : CacheTable) (object : MoqObject)
    (totalSymbols dataSymbols symbolSize : Nat) (allowEvict copyAllocates : Bool)
    (overlaps : SentObject → Bool) :
    (table.store object totalSymbols dataSymbols symbolSize allowEvict true copyAllocates
        overlaps).2 =
      (table.cache.store object totalSymbols dataSymbols symbolSize allowEvict copyAllocates
        overlaps).2 := by
  by_cases hdata : object.data = []
  · simp [store, SentCache.store, hdata]
  · cases table with
    | allocated cache =>
        simp only [store, init, hdata, if_false]
        rfl
    | unallocated limit =>
        simp only [store, init, hdata, if_false]
        rfl

/-- Admission and storage agree, a failed store loses nothing but what an
allocation failure cut short, and the eviction loop makes one pass at most. -/
theorem admission_agrees {table : CacheTable} (htable : table.cache.WellFormed)
    (object : MoqObject) (totalSymbols dataSymbols symbolSize : Nat) (allowEvict : Bool)
    (overlaps : SentObject → Bool) :
    ((∀ entry ∈ table.cache.occupied, entry.identity = object.identity →
        entry.data = object.data) →
      table.canStore object allowEvict overlaps =
        (table.store object totalSymbols dataSymbols symbolSize allowEvict true true
          overlaps).2) ∧
    (∀ tableAllocates copyAllocates,
      let result := table.store object totalSymbols dataSymbols symbolSize allowEvict
        tableAllocates copyAllocates overlaps
      result.2 = false → result.1.cache = table.cache ∨
        copyAllocates = false ∧ SentCache.Evicted table.cache result.1.cache) ∧
    SentCache.reclaimLoop object.size allowEvict overlaps (table.cache.capacity + 1) 0
        table.cache =
      some (SentCache.reclaim object.size allowEvict overlaps table.cache.capacity
        table.cache) := by
  refine ⟨?_, ?_, ?_⟩
  · intro hsame
    rw [canStore_cache, store_cache]
    exact SentCache.canStore_eq_store htable hsame totalSymbols dataSymbols symbolSize
      allowEvict overlaps
  · intro tableAllocates copyAllocates result hfail
    rcases cache_store table object totalSymbols dataSymbols symbolSize allowEvict tableAllocates
      copyAllocates overlaps with hunchanged | hstore
    · exact .inl (Prod.mk.inj hunchanged).1
    · obtain ⟨hafter, hresult⟩ := Prod.mk.inj hstore
      rw [hafter]
      exact SentCache.store_failed htable (hresult ▸ hfail)
  · have hloop := SentCache.reclaimLoop_eq object.size allowEvict overlaps table.cache.capacity
      table.cache (Nat.le_refl _)
    rwa [Nat.sub_self] at hloop

/-- Two slots in use: an obligation and a best-effort object. -/
def crowdedCache : SentCache where
  entries := [
    some (SentCache.retained
      { trackId := ⟨.data, flagFecRateless, [97]⟩, groupId := 0, objectId := 0, data := [1, 2] }
      2 1 2 false),
    some (SentCache.retained
      { trackId := ⟨.data, flagFecEnabled, [98]⟩, groupId := 0, objectId := 0, data := [3, 4] }
      2 1 2 true)]
  nextEntry := 0
  maxPayloadBytes := 4
  payloadBytes := 4
  count := 2

def arrivingObject : MoqObject where
  trackId := ⟨.data, flagFecEnabled, [98]⟩
  groupId := 0
  objectId := 1
  data := [5, 6]

theorem crowdedCache_wellFormed : crowdedCache.WellFormed := by
  constructor <;> decide

theorem crowded_admission_agrees :
    (allocated crowdedCache).canStore arrivingObject true (fun _ => false) =
        ((allocated crowdedCache).store arrivingObject 2 1 2 true true true
          (fun _ => false)).2 ∧
      (allocated crowdedCache).canStore arrivingObject true (fun _ => false) = true := by
  have hwell : (allocated crowdedCache).cache.WellFormed := crowdedCache_wellFormed
  have hagree := admission_agrees hwell arrivingObject 2 1 2 true (fun _ => false)
  exact ⟨hagree.1 (by decide), by decide⟩

end CacheTable

end Qlinq
