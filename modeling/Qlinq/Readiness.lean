import Qlinq.Backpressure
import Qlinq.CacheAdmission

namespace Qlinq

/-! A track is ready for more records when the flush of its pending group finds room in the
cache. -/

namespace SentCache

/-! ### Overlapping payloads -/

/-- `source_overlaps_entry` for `size` bytes at address `source`; `address` says where each
payload is. -/
def sourceOverlapsEntry (source size : Nat) (address : SentObject → Nat) (entry : SentObject) :
    Bool :=
  if address entry ≤ source then
    source - address entry < entry.size
  else
    address entry - source < size

/-- A buffer and a payload lie apart. -/
def Apart (source size : Nat) (address : SentObject → Nat) (entry : SentObject) : Prop :=
  source + size ≤ address entry ∨ address entry + entry.size ≤ source

instance (source size : Nat) (address : SentObject → Nat) (entry : SentObject) :
    Decidable (Apart source size address entry) := by
  unfold Apart
  infer_instance

theorem sourceOverlapsEntry_eq_false_iff (hsize : 0 < size) :
    sourceOverlapsEntry source size address entry = false ↔
      Apart source size address entry := by
  unfold sourceOverlapsEntry Apart
  split
  · rw [decide_eq_false_iff_not]
    omega
  · rw [decide_eq_false_iff_not]
    omega

/-! ### The scan of the query -/

/-- The entry does not have to be acknowledged before it goes. -/
def bestEffort (entry : SentObject) : Bool := !entry.recoveryProtected

/-- The bytes and slots that the query counts as free once eviction is allowed. -/
def evictionRoom : List (Option SentObject) → (available : Nat) → (slot : Bool) → Nat × Bool
  | [], available, slot => (available, slot)
  | none :: rest, available, slot => evictionRoom rest available slot
  | some entry :: rest, available, slot =>
      if !entry.recoveryProtected then
        evictionRoom rest (available + entry.size) true
      else
        evictionRoom rest available slot

theorem evictionRoom_eq (slots : List (Option SentObject)) (available : Nat) (slot : Bool) :
    evictionRoom slots available slot =
      (available + (((SlotTable.occupied slots).filter bestEffort).map SentObject.size).sum,
        slot || (SlotTable.occupied slots).any bestEffort) := by
  induction slots generalizing available slot with
  | nil => simp [evictionRoom]
  | cons head rest ih =>
      cases head with
      | none =>
          rw [SlotTable.occupied_cons_none]
          exact ih available slot
      | some entry =>
          rw [evictionRoom, SlotTable.occupied_cons_some]
          change (if bestEffort entry = true then _ else _) = _
          cases hentry : bestEffort entry with
          | false =>
              rw [if_neg Bool.false_ne_true, ih, List.filter_cons_of_neg (by simp [hentry]),
                List.any_cons, hentry, Bool.false_or]
          | true =>
              rw [if_pos rfl, ih, List.filter_cons_of_pos hentry, List.map_cons, List.sum_cons,
                Nat.add_assoc, List.any_cons, hentry]
              simp

/-- Of entries that lie apart from the object, admission evicts those that the query counts. -/
theorem evictable_eq {overlaps : SentObject → Bool} (hapart : overlaps entry = false) :
    evictable true overlaps entry = bestEffort entry := by
  rw [evictable, hapart, bestEffort, Bool.true_and, Bool.not_false, Bool.and_true]

/-- A slot is free exactly when the counter says so. -/
theorem WellFormed.none_mem_iff {cache : SentCache} (hcache : cache.WellFormed) :
    none ∈ cache.entries ↔ cache.hasSpace = true := by
  rw [SlotTable.none_mem_iff, hasSpace, decide_eq_true_iff, hcache.count, occupied_eq]
  rfl

/-- Best-effort entries and free bytes together stay within the limit. -/
theorem WellFormed.bestEffort_le {cache : SentCache} (hcache : cache.WellFormed) :
    cache.maxPayloadBytes - cache.payloadBytes +
        ((cache.occupied.filter bestEffort).map SentObject.size).sum ≤ cache.maxPayloadBytes := by
  have hbudget := hcache.budget
  have hpayload := hcache.payload
  have hsplit := sum_sizes_split cache.occupied bestEffort
  omega

end SentCache

namespace CacheTable

/-! ### Counters of a table -/

/-- `transport_sent_cache_byte_limit`. -/
def byteLimit : CacheTable → Nat
  | .unallocated limit => valueOrDefault limit defaultRecoveryCacheBytes
  | .allocated cache => cache.maxPayloadBytes

def payloadBytes : CacheTable → Nat
  | .unallocated _ => 0
  | .allocated cache => cache.payloadBytes

/-- `transport_sent_cache_has_space`; slots that are not allocated count as the default
number of them. -/
def hasSpace : CacheTable → Bool
  | .unallocated _ => 0 < sentCacheSize
  | .allocated cache => cache.hasSpace

def entries : CacheTable → List (Option SentObject)
  | .unallocated _ => []
  | .allocated cache => cache.entries

theorem byteLimit_eq (table : CacheTable) : table.byteLimit = table.cache.maxPayloadBytes := by
  cases table <;> rfl

theorem payloadBytes_eq (table : CacheTable) : table.payloadBytes = table.cache.payloadBytes := by
  cases table <;> rfl

theorem occupied_entries (table : CacheTable) :
    SlotTable.occupied table.entries = table.cache.occupied := by
  cases table with
  | unallocated limit =>
      exact (SlotTable.occupied_replicate_none (SentCache.initCapacity _ _)).symm
  | allocated cache => rfl

theorem hasSpace_eq (table : CacheTable) : table.hasSpace = table.cache.hasSpace := by
  cases table with
  | unallocated limit =>
      have hslots : 0 < SentCache.initCapacity
          (valueOrDefault limit defaultRecoveryCacheBytes) maxFecObjectSize := by
        simp only [SentCache.initCapacity, sentCacheSize, sentCacheMaxSize]
        omega
      simpa [hasSpace, cache, SentCache.hasSpace, SentCache.init, SentCache.capacity,
        sentCacheSize] using hslots
  | allocated cache => rfl

end CacheTable

namespace Transport

/-- `transport_publish_recovery_ready` of an endpoint whose cache is `table`. -/
def publishRecoveryReady (t : Transport) (table : CacheTable) (track : TrackId) : Bool :=
  if track.type != .data || !(trackProfile track).fecRateless then
    true
  else
    let needed := if t.fecBuf ≠ [] then t.fecBuf.length else 1
    if table.byteLimit < table.payloadBytes then
      false
    else
      let available := table.byteLimit - table.payloadBytes
      let slot := table.hasSpace
      if slot && needed ≤ available then
        true
      else
        let pendingTrack := if t.fecBuf ≠ [] then t.fecTrackId else track
        if checkpointCacheIsProtected pendingTrack t.conns false then
          false
        else
          let (available, slot) := SentCache.evictionRoom table.entries available slot
          slot && needed ≤ available

/-- The query in terms of what the cache holds. -/
theorem publishRecoveryReady_iff {t : Transport} {table : CacheTable}
    (htable : table.cache.WellFormed) (hbuffer : t.fecBuf ≠ [])
    (hrateless : track.isRatelessData = true) :
    t.publishRecoveryReady table track = true ↔
      table.cache.roomFor t.fecBuf.length = true ∨
        checkpointCacheIsProtected t.fecTrackId t.conns false = false ∧
          (none ∈ table.cache.entries ∨
            ∃ entry ∈ table.cache.occupied, SentCache.bestEffort entry = true) ∧
          t.fecBuf.length ≤ table.cache.maxPayloadBytes - table.cache.payloadBytes +
            ((table.cache.occupied.filter SentCache.bestEffort).map SentObject.size).sum := by
  have hbudget := htable.budget
  obtain ⟨hdata, hfec⟩ := Bool.and_eq_true_iff.mp hrateless
  have hkind : (track.type != .data || !(trackProfile track).fecRateless) = false := by
    rw [hfec, Bool.not_true, Bool.or_false, bne, hdata, Bool.not_true]
  have hroom : (table.hasSpace && decide (t.fecBuf.length ≤ table.byteLimit - table.payloadBytes)) =
      true ↔ table.cache.roomFor t.fecBuf.length = true := by
    rw [SentCache.roomFor_iff htable, CacheTable.hasSpace_eq, CacheTable.byteLimit_eq,
      CacheTable.payloadBytes_eq, SentCache.hasSpace, Bool.and_eq_true, decide_eq_true_iff, decide_eq_true_iff]
    omega
  simp only [publishRecoveryReady, hkind, if_pos hbuffer, Bool.false_eq_true, if_false]
  split
  · next hover =>
      rw [CacheTable.byteLimit_eq, CacheTable.payloadBytes_eq] at hover
      omega
  split
  · next hhere => exact iff_of_true rfl (Or.inl (hroom.mp hhere))
  next hfull =>
  rw [hroom] at hfull
  split
  · next hprotected => simp [hfull, hprotected]
  · next hfree =>
      rw [SentCache.evictionRoom_eq, CacheTable.occupied_entries, CacheTable.byteLimit_eq,
        CacheTable.payloadBytes_eq]
      simp only [CacheTable.hasSpace_eq, Bool.and_eq_true, Bool.or_eq_true, decide_eq_true_iff,
        List.any_eq_true, ← htable.none_mem_iff]
      simp [hfull, hfree]

/-- The query agrees with the admission of a group that no cached payload overlaps. -/
theorem publishRecoveryReady_of_separate {t : Transport} {table : CacheTable}
    {overlaps : SentObject → Bool} (htable : table.cache.WellFormed) (hbuffer : t.fecBuf ≠ [])
    (hrateless : t.fecTrackId.isRatelessData = true) {state : FecTrackState}
    (hfresh : table.find t.fecTrackId 0 state.nextObjectId = none)
    (hseparate : ∀ entry ∈ table.cache.occupied, overlaps entry = false) :
    t.publishRecoveryReady table t.fecTrackId =
      table.canStore (t.groupObject state)
        (!checkpointCacheIsProtected t.fecTrackId t.conns false) overlaps := by
  have hnone : table.cache.find t.fecTrackId 0 state.nextObjectId = none := by
    cases table with
    | unallocated limit =>
        rw [SentCache.find, CacheTable.cache, SentCache.init, SentCache.occupied_eq,
          SlotTable.occupied_replicate_none]
        rfl
    | allocated cache => exact hfresh
  have hother : ∀ entry ∈ table.cache.occupied,
      entry.identity ≠ (t.groupObject state).identity := SentCache.fresh_of_find hnone
  have hlimit := htable.bestEffort_le
  have hbudget := htable.budget
  rw [Bool.eq_iff_iff, CacheTable.canStore_cache, SentCache.canStore_iff htable hother,
    publishRecoveryReady_iff htable hbuffer hrateless]
  have hsize : (t.groupObject state).size = t.fecBuf.length := rfl
  have hdata : (t.groupObject state).data ≠ [] := hbuffer
  rw [hsize, SentCache.roomFor_iff htable]
  cases hprotected : checkpointCacheIsProtected t.fecTrackId t.conns false with
  | true =>
      -- nothing may be evicted: a free slot without the bytes is no room
      have hkept : table.cache.occupied.filter (SentCache.evictable false overlaps) =
          [] :=
        List.filter_eq_nil_iff.mpr fun entry _ => by simp [SentCache.evictable]
      simp only [Bool.not_true, hkept, SentCache.evictable, Bool.false_and, htable.none_mem_iff,
        SentCache.hasSpace, decide_eq_true_iff]
      simp only [Bool.true_eq_false, Bool.false_eq_true, false_and, or_false,
        and_false, exists_false, List.map_nil, List.sum_nil, Nat.add_zero]
      constructor
      · intro hroom
        exact ⟨hdata, by omega, Or.inl hroom⟩
      · rintro ⟨_, _, hroom | ⟨hspace, hbytes⟩⟩
        · exact hroom
        · omega
  | false =>
      have hevictable : ∀ entry ∈ table.cache.occupied, SentCache.evictable true overlaps
          entry = SentCache.bestEffort entry :=
        fun entry hentry => SentCache.evictable_eq (hseparate entry hentry)
      have hany : (∃ entry ∈ table.cache.occupied, SentCache.evictable true overlaps
          entry = true) ↔
            ∃ entry ∈ table.cache.occupied, SentCache.bestEffort entry = true :=
        exists_congr fun entry => and_congr_right fun hentry => by rw [hevictable entry hentry]
      simp only [Bool.not_false, List.filter_congr hevictable, hany, true_and]
      constructor
      · rintro (hroom | hroom)
        · exact ⟨hdata, by omega, Or.inl hroom⟩
        · exact ⟨hdata, hroom.2.trans hlimit, Or.inr hroom⟩
      · exact fun hadmitted => hadmitted.2.2

/-- The query agrees with the admission check of the flush, whoever subscribes and whatever the
cache holds besides the group: the grouping buffer is no cached payload. -/
theorem publishRecoveryReady_eq_canStore {t : Transport} {table : CacheTable}
    (htable : table.cache.WellFormed) (hbuffer : t.fecBuf ≠ [])
    (hrateless : t.fecTrackId.isRatelessData = true) {state : FecTrackState}
    (hfresh : table.find t.fecTrackId 0 state.nextObjectId = none)
    {source : Nat} {address : SentObject → Nat}
    (hapart : ∀ entry ∈ table.cache.occupied,
      SentCache.Apart source t.fecBuf.length address entry) :
    t.publishRecoveryReady table t.fecTrackId =
      table.canStore (t.groupObject state)
        (!checkpointCacheIsProtected t.fecTrackId t.conns false)
        (SentCache.sourceOverlapsEntry source t.fecBuf.length address) := by
  apply publishRecoveryReady_of_separate htable hbuffer hrateless hfresh
  intro entry hentry
  rw [SentCache.sourceOverlapsEntry_eq_false_iff (List.length_pos_of_ne_nil hbuffer)]
  exact hapart entry hentry

/-- A server whose cache is crowded and whose buffer holds one empty record. -/
def crowdedServer : Transport where
  isServer := true
  limits := defaultLimits
  sentCache := CacheTable.crowdedCache
  fecBuf := [0, 0]
  fecTrackId := { type := .data, flags := flagFecRateless, name := [99] }
  fecPktCount := 1

theorem crowded_ready_eq_canStore :
    crowdedServer.publishRecoveryReady (.allocated CacheTable.crowdedCache)
        crowdedServer.fecTrackId =
        (CacheTable.allocated CacheTable.crowdedCache).canStore
          (crowdedServer.groupObject { trackId := crowdedServer.fecTrackId })
          (!checkpointCacheIsProtected crowdedServer.fecTrackId crowdedServer.conns false)
          (SentCache.sourceOverlapsEntry 64 2 fun entry =>
            if entry.recoveryProtected then 16 else 32) ∧
      crowdedServer.publishRecoveryReady (.allocated CacheTable.crowdedCache)
        crowdedServer.fecTrackId = true := by
  have hwell : (CacheTable.allocated CacheTable.crowdedCache).cache.WellFormed :=
    CacheTable.crowdedCache_wellFormed
  exact ⟨publishRecoveryReady_eq_canStore hwell (by decide) (by decide) (by decide) (by decide),
    by decide⟩

/-! ### Flushes -/

/-- The flush of a group that is not cached finds room exactly when the track is ready. -/
theorem hasRoomFor_group_iff {t : Transport} (hcache : t.sentCache.WellFormed)
    (hbuffer : t.fecBuf ≠ []) (hrateless : t.fecTrackId.isRatelessData = true)
    {state : FecTrackState}
    (hfresh : t.sentCache.find t.fecTrackId 0 state.nextObjectId = none) :
    t.HasRoomFor (t.groupObject state) ↔
      t.publishRecoveryReady (.allocated t.sentCache) t.fecTrackId = true := by
  have hcache : (CacheTable.allocated t.sentCache).cache.WellFormed := hcache
  rw [publishRecoveryReady_of_separate hcache hbuffer hrateless hfresh fun _ _ => rfl]
  exact ⟨fun hroom => hroom hrateless, fun hstore _ => hstore⟩

/-- The group of a track that is not ready is refused, and nothing is sent. -/
theorem publishDatagrams_unready {t : Transport} (hcache : t.sentCache.WellFormed)
    (hbuffer : t.fecBuf ≠ []) (hrateless : t.fecTrackId.isRatelessData = true)
    {state : FecTrackState}
    (hfresh : t.sentCache.find t.fecTrackId 0 state.nextObjectId = none)
    (hlimit : t.fecBuf.length ≤ t.publicationFecLimit t.fecTrackId)
    (hunready : t.publishRecoveryReady (.allocated t.sentCache) t.fecTrackId = false)
    (env : FlushEnv) (inFlush : Bool) :
    t.publishDatagrams env (t.groupObject state) inFlush = (t, .backpressure) := by
  have hroom : ¬ t.HasRoomFor (t.groupObject state) := by
    rw [hasRoomFor_group_iff hcache hbuffer hrateless hfresh, hunready]
    exact Bool.false_ne_true
  have hlength := List.length_pos_of_ne_nil hbuffer
  have hadmitted : ¬ ((t.groupObject state).size = 0 ∨
      t.publicationFecLimit t.fecTrackId < (t.groupObject state).size) := by
    simp only [MoqObject.size, groupObject]
    omega
  have hrefused : t.sentCache.canStore (t.groupObject state)
      (!checkpointCacheIsProtected t.fecTrackId t.conns false) (fun _ => false) = false := by
    rw [HasRoomFor, Classical.not_imp] at hroom
    exact Bool.eq_false_iff.mpr hroom.2
  have htrack : (t.groupObject state).trackId = t.fecTrackId := rfl
  simp only [publishDatagrams, htrack, if_neg hadmitted, hrateless, Bool.true_and, hrefused,
    Bool.not_false, if_true]

end Transport

end Qlinq
