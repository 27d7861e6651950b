import Qlinq.OwingSteps

namespace Qlinq

/-! Publications: what each leaves of the obligations to the subscribers of a track. -/

namespace SentCache

/-! ### Stored objects -/

theorem Evicted.thins (hevicted : Evicted before after) : Thins before after := by
  obtain ⟨gone, _, rfl⟩ := hevicted
  exact thins_releaseWhere before gone

/-- The table keeps its size and its budget. -/
theorem Stored.bounds (hstored : Stored before object after stored) :
    after.capacity = before.capacity ∧ after.maxPayloadBytes = before.maxPayloadBytes := by
  cases hstored with
  | refused hevicted => exact ⟨hevicted.thins.capacity, hevicted.thins.limit⟩
  | retried _ _ => exact ⟨List.length_map _, rfl⟩
  | placed _ hevicted =>
      refine ⟨?_, hevicted.thins.limit⟩
      rw [← hevicted.thins.capacity]
      exact List.length_set

/-- An entry was held before or is the object's. -/
theorem Stored.mem (hstored : Stored before object after stored) (hentry : entry' ∈ after.occupied) :
    (∃ entry ∈ before.occupied, entry'.identity = entry.identity ∧ entry'.data = entry.data) ∨
      entry'.identity = object.identity ∧ entry'.data = object.data := by
  cases hstored with
  | refused hevicted =>
      obtain ⟨gone, _, rfl⟩ := hevicted
      exact Or.inl ⟨entry', (mem_releaseWhere.mp hentry).1, rfl, rfl⟩
  | @retried existing hfind _ =>
      rw [mem_occupied, List.mem_map] at hentry
      obtain ⟨slot, hslot, hupdated⟩ := hentry
      split at hupdated
      · obtain rfl := Option.some.inj hupdated
        exact Or.inl ⟨existing, (mem_of_find hfind).1, rfl, rfl⟩
      · subst hupdated
        exact Or.inl ⟨entry', mem_occupied.mpr hslot, rfl, rfl⟩
  | placed _ hevicted _ hfree =>
      rw [(perm_occupy hfree).mem_iff] at hentry
      cases List.mem_cons.mp hentry with
      | inl hnew =>
          subst hnew
          exact Or.inr ⟨rfl, rfl⟩
      | inr hold =>
          obtain ⟨gone, _, rfl⟩ := hevicted
          exact Or.inl ⟨entry', (mem_releaseWhere.mp hold).1, rfl, rfl⟩

end SentCache

namespace Conn

theorem heeds_conns_keys {conns conns' : List Conn} {track : TrackId} {next next' : Nat}
    (hheeds : List.Forall₂ (Heeds track next next') conns conns') :
    Keyed.keys Conn.id conns' = Keyed.keys Conn.id conns := by
  induction hheeds with
  | nil => rfl
  | cons hhead _ ih =>
      simp only [Keyed.keys, List.map_cons, hhead.id_eq] at ih ⊢
      rw [ih]

end Conn

namespace Transport

open Conn

variable {track : TrackId} {t t' : Transport}

/-! ### Attempts -/

/-- The cache after an attempt to publish an object: as it was, or with an object that a
recipient was sent. -/
inductive Retention (t : Transport) (object : MoqObject) (inFlush : Bool) : SentCache → Prop
  | kept : Retention t object inFlush t.sentCache
  | stored (hrateless : object.trackId.isRatelessData = true)
      (hagreed : t.flagsConflict object.trackId = false) (hc : c ∈ t.conns)
      (heligible : t.recipientEligible c object.trackId = true)
      (hserved : inFlush = true ∧ c.fecGroupDelivered = true ∨
        ∃ a, c.sendSubscriptions.findAlias object.trackId = some a)
      (hstored : SentCache.Stored t.sentCache object cache stored) :
      Retention t object inFlush cache

theorem retention_publishUngrouped (hcache : t.sentCache.WellFormed) (env : FlushEnv)
    (object : MoqObject) (inFlush : Bool) :
    Retention t object inFlush (t.publishUngrouped env object inFlush).1.sentCache := by
  unfold publishUngrouped
  split
  · exact .kept
  next hvalid =>
  have hagreed : t.flagsConflict object.trackId = false := by
    simp only [Bool.or_eq_true, not_or, Bool.not_eq_true] at hvalid
    exact hvalid.2
  split
  · unfold publishReliable
    split
    · exact .kept
    split
    · exact .kept
    split <;> exact .kept
  unfold publishDatagrams
  split
  · exact .kept
  extract_lets cached protectCache tally
  split
  · exact .kept
  simp only [retainSent]
  split
  · next hretained =>
      simp only [Bool.and_eq_true, Bool.or_eq_true, bne_iff_ne] at hretained
      obtain ⟨c, hc, heligible, hserved⟩ := served_of_tally hretained.2
      refine .stored hretained.1 hagreed hc heligible ?_ (SentCache.stored_store hcache object _ _ _
        _ _ _)
      cases hserved with
      | inl hbefore => exact Or.inl hbefore
      | inr hqueues => exact Or.inr (findAlias_of_queuesSymbols _ c object _ _ _ hqueues)
  · exact .kept

/-- The endpoint after a step that publishes for the track, by what it leaves in each place. -/
theorem Owing.publishes (howing : Owing track t) (hlimits : t'.limits = t.limits)
    (hnextConn : t'.nextConnId = t.nextConnId)
    (hconns : List.Forall₂ (Heeds track (t.groupCount track) (t'.groupCount track)) t.conns
      t'.conns)
    (hsingle : ∀ other ≠ track, t'.findFecTrackState other = none)
    (hused : ∀ state, t'.findFecTrackState track = some state → state.hasObjects = true →
      0 < state.nextObjectId)
    (hbehind : ∀ mark, t'.checkpointOf track = some mark →
      mark.groupId = 0 ∧ mark.objectId < t'.groupCount track)
    (hcache : t'.sentCache = t.sentCache ∨ ∃ object stored,
      SentCache.Stored t.sentCache object t'.sentCache stored ∧ object.trackId = track ∧
        object.groupId = 0 ∧ object.size ≤ t.largestGroup ∧
        ∃ c ∈ t.conns, c.Awaits track object.objectId) : Owing track t' := by
  have hlargest : t'.largestGroup = t.largestGroup := by
    rw [largestGroup, hlimits, largestGroup]
  have hentries : ∀ entry' ∈ t'.sentCache.occupied,
      (entry'.trackId = track ∧ entry'.groupId = 0) ∧ entry'.size ≤ t.largestGroup ∧
        ∃ c ∈ t.conns, c.Awaits track entry'.objectId := by
    have hold : ∀ entry ∈ t.sentCache.occupied,
        (entry.trackId = track ∧ entry.groupId = 0) ∧ entry.size ≤ t.largestGroup ∧
          ∃ c ∈ t.conns, c.Awaits track entry.objectId := fun entry hentry =>
      ⟨howing.cached entry hentry, howing.sized entry hentry, howing.owed entry hentry⟩
    rcases hcache with hkept | ⟨object, stored, hstored, htrack, hgroup, hsize, hawaited⟩
    · rw [hkept]
      exact hold
    · intro entry' hentry'
      rcases hstored.mem hentry' with ⟨entry, hentry, hidentity, hdata⟩ | ⟨hidentity, hdata⟩
      · simp only [SentObject.identity, Prod.mk.injEq] at hidentity
        rw [hidentity.1, hidentity.2.1, hidentity.2.2, SentObject.size, hdata]
        exact hold entry hentry
      · simp only [SentObject.identity, MoqObject.identity, Prod.mk.injEq] at hidentity
        rw [hidentity.1, hidentity.2.1, hidentity.2.2, SentObject.size, hdata]
        exact ⟨⟨htrack, hgroup⟩, hsize, hawaited⟩
  have hwellFormed : t'.sentCache.WellFormed := by
    rcases hcache with hkept | ⟨object, stored, hstored, _⟩
    · rw [hkept]
      exact howing.wellFormed
    · exact hstored.wellFormed howing.wellFormed
  have hbounds : t'.sentCache.capacity = t.sentCache.capacity ∧
      t'.sentCache.maxPayloadBytes = t.sentCache.maxPayloadBytes := by
    rcases hcache with hkept | ⟨object, stored, hstored, _⟩
    · rw [hkept]
      exact ⟨rfl, rfl⟩
    · exact hstored.bounds
  refine ⟨?_, fun c' hc' => ?_, fun c' hc' => ?_, hsingle, hused, hbehind, hwellFormed,
    fun entry' hentry' => (hentries entry' hentry').1, fun entry' hentry' => ?_, ?_, ?_,
    fun entry' hentry' => ?_⟩
  · rw [Keyed.UniqueKeys, heeds_conns_keys hconns]
    exact howing.unique
  · obtain ⟨c, hc, hheeds⟩ := Pointwise.exists_left hconns hc'
    rw [hnextConn, hheeds.id_eq]
    exact howing.below c hc
  · obtain ⟨c, hc, hheeds⟩ := Pointwise.exists_left hconns hc'
    exact hheeds.member (howing.member c hc)
  · rw [hlargest]
    exact (hentries entry' hentry').2.1
  · rw [hbounds.1]
    exact howing.capacity
  · rw [hbounds.2, hlargest]
    exact howing.budget
  · obtain ⟨c, hc, hawaits⟩ := (hentries entry' hentry').2.2
    obtain ⟨c', hc', hheeds⟩ := Pointwise.exists_right hconns hc
    exact ⟨c', hc', hheeds.awaits (howing.member c hc) _ hawaits⟩

/-- A recipient whose subscription agrees awaits the next group. -/
theorem Owing.awaits_next (howing : Owing track t) (hagreed : t.flagsConflict track = false)
    (hc : c ∈ t.conns) (heligible : t.recipientEligible c track = true)
    (halias : c.sendSubscriptions.findAlias track = some a) :
    c.Awaits track (t.groupCount track) := by
  have hhere := howing.member c hc
  obtain ⟨entry, hfind, rfl⟩ := SubscriptionTable.find_of_findAlias halias
  obtain ⟨hbound, hkey⟩ := SubscriptionTable.bound_of_find hfind
  have hflags : entry.trackId.flags = track.flags := by
    simp only [flagsConflict, List.any_eq_false, Bool.and_eq_true, not_and] at hagreed
    simpa [hfind] using hagreed c hc heligible
  rw [TrackId.eq_of_key_of_flags hkey hflags] at hbound
  refine ⟨_, halias, fun hcapable => ⟨hhere.member _ hbound hcapable, fun mark hmark => ?_⟩⟩
  exact (hhere.reached _ halias mark (Or.inr hmark)).2

/-- A recipient that an earlier attempt of the flush served subscribes to the track. -/
def ServesSubscribers (track : TrackId) (t : Transport) : Prop :=
  ∀ c ∈ t.conns, t.recipientEligible c track = true → c.fecGroupDelivered = true →
    (c.sendSubscriptions.findAlias track).isSome = true

instance (track : TrackId) (t : Transport) : Decidable (t.ServesSubscribers track) := by
  unfold ServesSubscribers
  infer_instance

/-- No subscription and no track changes. -/
theorem Owing.continues (howing : Owing track t) (htracks : t'.fecTracks = t.fecTracks)
    (hlimits : t'.limits = t.limits) (hnextConn : t'.nextConnId = t.nextConnId)
    (hconns : List.Forall₂ (SameStance track) t.conns t'.conns)
    (hcache : t'.sentCache = t.sentCache ∨ ∃ object stored,
      SentCache.Stored t.sentCache object t'.sentCache stored ∧ object.trackId = track ∧
        object.groupId = 0 ∧ object.size ≤ t.largestGroup ∧
        ∃ c ∈ t.conns, c.Awaits track object.objectId) : Owing track t' := by
  have hfind : ∀ other, t'.findFecTrackState other = t.findFecTrackState other := by
    intro other
    rw [findFecTrackState, htracks, findFecTrackState]
  have hcount : t'.groupCount track = t.groupCount track := by simp only [groupCount, hfind]
  refine howing.publishes hlimits hnextConn ?_ (fun other hother => ?_) (fun state hfound => ?_)
    (fun mark hmark => ?_) hcache
  · rw [hcount]
    exact hconns.imp fun _ _ hsame => hsame.heeds (le_refl _)
  · rw [hfind]
    exact howing.single other hother
  · rw [hfind] at hfound
    exact howing.used state hfound
  · rw [hcount]
    rw [checkpointOf_congr htracks] at hmark
    exact howing.behind mark hmark

/-- An attempt changes no subscription and no track. -/
theorem Owing.attempted (howing : Owing track t)
    (hattempted : Attempted object geometry inFlush t t')
    (hnextConn : t'.nextConnId = t.nextConnId)
    (hcache : t'.sentCache = t.sentCache ∨ ∃ object stored,
      SentCache.Stored t.sentCache object t'.sentCache stored ∧ object.trackId = track ∧
        object.groupId = 0 ∧ object.size ≤ t.largestGroup ∧
        ∃ c ∈ t.conns, c.Awaits track object.objectId) : Owing track t' :=
  howing.continues hattempted.grouping.fecTracks hattempted.grouping.limits hnextConn
    (hattempted.conns.imp fun _ _ hturn => sameStance_of_publishes hturn.publishes) hcache

/-- The next group is attempted. -/
theorem owing_attempt (howing : Owing track t) (hserves : t.ServesSubscribers track)
    (htrack : object.trackId = track) (hgroup : object.groupId = 0)
    (hnext : object.objectId = t.groupCount track) (hsize : object.size ≤ t.largestGroup)
    (env : FlushEnv) : Owing track (t.publishUngrouped env object true).1 := by
  refine howing.attempted (attempted_publishUngrouped t env object true)
    (nextConnId_publishUngrouped t env object true) ?_
  have hretention := retention_publishUngrouped howing.wellFormed env object true
  revert hretention
  generalize (t.publishUngrouped env object true).1.sentCache = cache
  intro hretention
  cases hretention with
  | kept => exact Or.inl rfl
  | @stored c _ _ hrateless hagreed hc heligible hserved hstored =>
      subst htrack
      have halias : ∃ a, c.sendSubscriptions.findAlias object.trackId = some a := by
        rcases hserved with ⟨_, hbefore⟩ | halias
        · exact Option.isSome_iff_exists.mp (hserves c hc heligible hbefore)
        · exact halias
      obtain ⟨a, halias⟩ := halias
      have hawaits := howing.awaits_next hagreed hc heligible halias
      rw [← hnext] at hawaits
      exact Or.inr ⟨object, _, hstored, rfl, hgroup, hsize, c, hc, hawaits⟩

theorem isGroupable_of_isRatelessData (hrateless : track.isRatelessData = true) :
    isGroupable track = true := by
  obtain ⟨hdata, hfec⟩ := Bool.and_eq_true_iff.mp hrateless
  rw [isGroupable, hdata, TrackProfile.usesFec, hfec, Bool.or_true, Bool.and_true]

/-- A record that is not grouped is not cached. -/
theorem owing_direct (howing : Owing track t) (hgroups : t.groupsRecords object.trackId = false)
    (env : FlushEnv) : Owing track (t.publishUngrouped env object false).1 := by
  refine howing.attempted (attempted_publishUngrouped t env object false)
    (nextConnId_publishUngrouped t env object false) (Or.inl ?_)
  have hretention := retention_publishUngrouped howing.wellFormed env object false
  revert hretention
  generalize (t.publishUngrouped env object false).1.sentCache = cache
  intro hretention
  cases hretention with
  | kept => rfl
  | stored hrateless hagreed hc heligible hserved hstored =>
      rcases hserved with ⟨hflush, _⟩ | halias
      · cases hflush
      · have hgrouped := groupsRecords_of_addressable hagreed
          (isGroupable_of_isRatelessData hrateless) ⟨_, hc, heligible, halias⟩
        rw [hgroups] at hgrouped
        cases hgrouped

/-! ### Committed groups and completions -/

/-- The track's slot takes a new state, and every connection its turn. -/
theorem Owing.turned (howing : Owing track t) (turn : Conn → Conn) (state : FecTrackState)
    (hlimits : t'.limits = t.limits) (hnextConn : t'.nextConnId = t.nextConnId)
    (hcache : t'.sentCache = t.sentCache) (hconns : t'.conns = t.conns.map turn)
    (hfind : ∀ other, t'.findFecTrackState other =
      if other = track then some state else t.findFecTrackState other)
    (hused : state.hasObjects = true → 0 < state.nextObjectId)
    (hbehind : ∀ mark, state.checkpoint = some mark →
      mark.groupId = 0 ∧ mark.objectId < state.nextObjectId)
    (hturn : ∀ c, Heeds track (t.groupCount track) state.nextObjectId c (turn c)) :
    Owing track t' := by
  have hhere : t'.findFecTrackState track = some state := (hfind track).trans (if_pos rfl)
  have hcount : t'.groupCount track = state.nextObjectId := by
    rw [groupCount, hhere]
    rfl
  refine howing.publishes hlimits hnextConn ?_ (fun other hother => ?_) (fun found hfound => ?_)
    (fun mark hmark => ?_) (Or.inl hcache)
  · rw [hcount, hconns]
    exact Pointwise.of_map fun c _ => hturn c
  · rw [hfind, if_neg hother]
    exact howing.single other hother
  · rw [hhere] at hfound
    obtain rfl := Option.some.inj hfound
    exact hused
  · rw [checkpointOf, hhere] at hmark
    rw [hcount]
    exact hbehind mark hmark

theorem groupCount_of_find (hfound : t.findFecTrackState track = some state) :
    t.groupCount track = state.nextObjectId := by
  rw [groupCount, hfound]
  rfl

theorem owing_commitGroup (howing : Owing track t) (hrateless : track.isRatelessData = true)
    (hfound : t.findFecTrackState track = some state) (object : MoqObject) :
    Owing track (t.commitGroup state object) := by
  obtain rfl := trackId_of_find hfound
  have hcount := groupCount_of_find hfound
  have hbehind : ∀ mark, state.checkpoint = some mark →
      mark.groupId = 0 ∧ mark.objectId < state.nextObjectId := by
    intro mark hmark
    have hmark : t.checkpointOf state.trackId = some mark := by
      rw [checkpointOf, hfound]
      exact hmark
    rw [← hcount]
    exact howing.behind mark hmark
  unfold commitGroup
  extract_lets bumped slotted t₁
  have hbumped : ∀ other, t₁.findFecTrackState other =
      if other = state.trackId then some bumped else t.findFecTrackState other := by
    intro other
    have hset := findFecTrackState_setFecTrackState t bumped other
    split
    · next hsame =>
        subst hsame
        rw [if_pos rfl, hfound] at hset
        exact hset
    · next hother => exact hset.trans (if_neg hother)
  have hnext : bumped.nextObjectId = state.nextObjectId + 1 := rfl
  have hnextMark : ∀ mark, t₁.checkpointOf state.trackId = some mark →
      mark.groupId = 0 ∧ mark.objectId < bumped.nextObjectId := by
    intro mark hmark
    rw [checkpointOf, hbumped, if_pos rfl] at hmark
    obtain ⟨hgroup, hbelow⟩ := hbehind mark hmark
    exact ⟨hgroup, by omega⟩
  split
  · refine howing.turned (t₁.emitCheckpointTo bumped.trackId 0
        (bumped.nextObjectId - recoveryWindowObjects) (bumped.nextObjectId - 1))
      { bumped with checkpoint := some ⟨0, bumped.nextObjectId - 1⟩ } rfl rfl rfl rfl
      (fun other => ?_) (fun _ => by simp only; omega) (fun mark hmark => ?_) fun c => ?_
    · rw [emitRollingCheckpoint, findFecTrackState_setFecTrackState]
      show (if other = state.trackId then (t₁.findFecTrackState other).map fun _ => _
        else t₁.findFecTrackState other) = _
      rw [hbumped]
      split
      · rfl
      · rfl
    · obtain rfl := Option.some.inj hmark
      exact ⟨rfl, by simp only; omega⟩
    · rw [hcount]
      exact heeds_emitCheckpointTo hrateless hnextMark (by omega) (by omega) _ c
  · refine howing.turned (fun c => c) bumped rfl rfl rfl (List.map_id _).symm hbumped
      (fun _ => by omega) (fun mark hmark => hnextMark mark ?_) fun c => ?_
    · rw [checkpointOf, hbumped, if_pos rfl]
      exact hmark
    · rw [hcount]
      exact (SameStance.refl _ c).heeds (by omega)

theorem owing_announceEnd (howing : Owing track t) (hrateless : track.isRatelessData = true)
    (hfound : t.findFecTrackState track = some state) (hobjects : state.hasObjects = true) :
    Owing track (t.announceEnd track state).1 := by
  obtain rfl := trackId_of_find hfound
  have hcount := groupCount_of_find hfound
  have hpositive := howing.used state hfound hobjects
  refine howing.turned (fun c => (t.finishTrackTo state.trackId (state.nextObjectId - 1) c).1)
    { state with checkpoint := some ⟨0, state.nextObjectId - 1⟩ } rfl rfl rfl ?_
    (fun other => ?_) (fun _ => hpositive) (fun mark hmark => ?_) fun c => ?_
  · simp [announceEnd, setFecTrackState]
  · rw [announceEnd]
    simp only
    rw [findFecTrackState_setFecTrackState]
    show (if other = state.trackId then (t.findFecTrackState other).map fun _ => _
      else t.findFecTrackState other) = _
    split
    · next hsame =>
        rw [hsame, hfound]
        rfl
    · rfl
  · obtain rfl := Option.some.inj hmark
    exact ⟨rfl, by simp only; omega⟩
  · rw [hcount]
    exact heeds_finishTrackTo hrateless (fun mark hmark => hcount ▸ howing.behind mark hmark)
      (by omega) c

/-! ### The grouping buffer -/

/-- The buffer holds a group of the track, none longer than the longest. -/
structure Buffers (track : TrackId) (t : Transport) : Prop where
  named : t.fecBuf ≠ [] → t.fecTrackId = track
  sized : t.fecBuf.length ≤ t.largestGroup

/-- The record is short enough to be grouped. -/
def TakesRecord (t : Transport) (object : MoqObject) : Prop :=
  object.size ≤ maxFecRecordSize ∧ object.size + 2 ≤ t.publicationFecLimit object.trackId

instance (t : Transport) (object : MoqObject) : Decidable (t.TakesRecord object) := by
  unfold TakesRecord
  infer_instance

theorem Buffers.same (hbuffers : t.Buffers track) (hsame : SameGrouping t t') :
    t'.Buffers track where
  named := by
    rw [hsame.fecBuf, hsame.fecTrackId]
    exact hbuffers.named
  sized := by
    rw [hsame.fecBuf, largestGroup, hsame.limits]
    exact hbuffers.sized

theorem buffers_of_empty (hempty : t.fecBuf = []) : t.Buffers track where
  named hbuffer := absurd hempty hbuffer
  sized := by
    rw [hempty]
    exact Nat.zero_le _

theorem buffers_flushed (hbuffers : t.Buffers track) (hflushed : Flushed t env t' result) :
    t'.Buffers track := by
  have hlimits := hflushed.moves.connsMove.limits
  obtain ⟨hbuffer, htrack⟩ := hflushed.buffer
  rcases hbuffer with ⟨_, hkept, _⟩ | ⟨_, hempty, _⟩
  · refine ⟨?_, ?_⟩
    · rw [hkept, htrack]
      exact hbuffers.named
    · rw [hkept, largestGroup, hlimits]
      exact hbuffers.sized
  · exact buffers_of_empty hempty

theorem buffers_of_flush (hbuffers : t.Buffers track)
    (hflush : t.flushGrouped env = (t', result)) : t'.Buffers track := by
  have hflushed := flushed t env
  rw [hflush] at hflushed
  exact buffers_flushed hbuffers hflushed

/-- Behind a flush for want of room the buffer is empty, and without one the record fits. -/
theorem buffers_room {s : Transport} (hbuffers : t.Buffers track)
    (hroom : Room t env object (groupLimit fecLimit) s) (hlimit : object.size + 2 ≤ fecLimit) :
    s.Buffers track ∧ s.limits = t.limits ∧
      (s.fecBuf = [] ∨ s.fecBuf.length + 2 + object.size ≤ groupLimit fecLimit) := by
  cases hroom with
  | here hforeign hfull =>
      refine ⟨hbuffers, rfl, ?_⟩
      cases hbuffer : t.fecBuf with
      | nil => exact Or.inl rfl
      | cons byte rest =>
          right
          rw [← hbuffer]
          have hne : t.fecBuf ≠ [] := by
            rw [hbuffer]
            exact List.cons_ne_nil byte rest
          simp only [groupFull, Bool.and_eq_false_iff, bne_eq_false_iff_eq, hne, false_or,
            Bool.or_eq_false_iff, decide_eq_false_iff_not] at hfull
          simp only [groupLimit, maxFecGroupSize] at hfull ⊢
          omega
  | emptied hdue hflush =>
      have hflushed := flushed t env
      rw [hflush] at hflushed
      refine ⟨buffers_flushed hbuffers hflushed, hflushed.moves.connsMove.limits, Or.inl ?_⟩
      rcases hflushed.buffer.1 with ⟨hne, _⟩ | ⟨_, hempty, _⟩
      · exact absurd rfl hne
      · exact hempty

theorem buffers_beginGroup (hbuffers : t.Buffers track) (htrack : object.trackId = track) :
    (t.beginGroup object).Buffers track ∧ (t.beginGroup object).fecTrackId = track ∧
      (t.beginGroup object).fecBuf = t.fecBuf ∧ (t.beginGroup object).limits = t.limits := by
  unfold beginGroup
  split
  · next hempty => exact ⟨buffers_of_empty hempty, htrack, rfl, rfl⟩
  · next hbuffer => exact ⟨hbuffers, hbuffers.named hbuffer, rfl, rfl⟩

theorem buffers_stageRecord (hbuffers : t.Buffers track) (htrack : object.trackId = track)
    (htakes : t.TakesRecord object) (env : PublishEnv) :
    (t.stageRecord env object).1.Buffers track := by
  obtain ⟨hrecord, hfits⟩ := htakes
  have hlimit : t.publicationFecLimit object.trackId ≤ t.limits.maxFecObjectSize :=
    lowest_le_start _ _ _ _
  have hstaged := staged t env object
  revert hstaged
  generalize (t.stageRecord env object).1 = t'
  generalize (t.stageRecord env object).2 = refused
  intro hstaged
  cases hstaged with
  | refused hdue hflush hresult => exact buffers_of_flush hbuffers hflush
  | unallocated hroom happend =>
      exact (buffers_beginGroup (buffers_room hbuffers hroom hfits).1 htrack).1
  | @appended s _ hroom happend =>
      obtain ⟨hs, hlimits, hroomy⟩ := buffers_room hbuffers hroom hfits
      obtain ⟨_, hnamed, hbuf, hbegun⟩ := buffers_beginGroup hs htrack
      simp only [appendRecord] at happend
      split at happend
      · cases happend
      obtain rfl := Option.some.inj happend
      refine ⟨fun _ => hnamed, ?_⟩
      simp only [largestGroup, hbegun, hlimits, hbuf, u16be, MoqObject.size, List.length_append,
        List.length_cons, List.length_nil] at hrecord hfits hroomy ⊢
      rcases hroomy with hempty | hroomy
      · rw [hempty, List.length_nil]
        omega
      · simp only [groupLimit, maxFecGroupSize, maxFecRecordSize] at hroomy ⊢
        omega

/-- A record that is not grouped for its length changes nothing. -/
theorem publish_oversized (hgroups : t.groupsRecords object.trackId = true)
    (hlong : ¬ t.TakesRecord object) (env : PublishEnv) : (t.publish env object).1 = t := by
  simp only [publish, hgroups, if_true]
  split
  · rfl
  unfold publishGrouped
  extract_lets fecLimit
  rw [if_pos]
  unfold TakesRecord at hlong
  simp only [fecLimit]
  omega

/-! ### Flushes -/

/-- Only the list of slots differs. -/
theorem slotted_eq {slotted : Transport}
    (hslot : t.createFecTrackState track = some (slotted, state)) :
    ∃ slots, slotted = { t with fecTracks := slots } := by
  cases createFecTrackState_cases hslot with
  | inl hfound =>
      obtain ⟨rfl, _⟩ := hfound
      exact ⟨_, rfl⟩
  | inr hfresh =>
      obtain ⟨_, _, _, rfl⟩ := hfresh
      exact ⟨_, rfl⟩

theorem owing_attempting {slotted : Transport} (howing : Owing track t)
    (hslot : t.createFecTrackState track = some (slotted, state)) :
    Owing track slotted.attempting := by
  rcases createFecTrackState_cases hslot with ⟨rfl, _⟩ | ⟨hnone, _, rfl, rfl⟩
  · exact howing.quiet rfl rfl (.refl _) howing.unique howing.below howing.member howing.owed
  · refine howing.turned (fun c => c) { trackId := track } rfl rfl rfl (List.map_id _).symm
      (fun other => ?_) (fun h => by cases h) (fun mark h => by cases h) fun c => ?_
    · have hlookup : ({ t with fecTracks := t.fecTracks ++ [{ trackId := track }] } : Transport
          ).attempting.findFecTrackState other =
            (t.findFecTrackState other).or
              (Keyed.lookup FecTrackState.trackId other [{ trackId := track }]) :=
        Keyed.lookup_append other t.fecTracks _
      rw [hlookup]
      split
      · next hsame =>
          subst hsame
          rw [hnone]
          simp [Keyed.lookup]
      · next hother => simp [Keyed.lookup, Ne.symm hother]
    · have hcount : t.groupCount track = 0 := by
        rw [groupCount, hnone]
        rfl
      rw [hcount]
      exact (SameStance.refl track c).heeds (le_refl 0)

/-- The buffered group of the track is attempted. -/
theorem owing_flush_attempt {slotted : Transport} (howing : Owing track t)
    (hserves : t.ServesSubscribers track) (hbuffers : t.Buffers track) (hbuffer : t.fecBuf ≠ [])
    (hslot : t.createFecTrackState t.fecTrackId = some (slotted, state))
    (hattempt : slotted.attempting.publishUngrouped env (slotted.groupObject state) true =
      (attempted, result)) :
    Owing track attempted ∧ attempted.findFecTrackState track = some state := by
  have hnamed := hbuffers.named hbuffer
  rw [hnamed] at hslot
  have hready := owing_attempting howing hslot
  have hfound : slotted.findFecTrackState track = some state := find_created hslot
  have hgrouping := publishUngrouped_grouping slotted.attempting env (slotted.groupObject state) true
  have hmade : Owing track
      (slotted.attempting.publishUngrouped env (slotted.groupObject state) true).1 := by
    obtain ⟨slots, rfl⟩ := slotted_eq hslot
    refine owing_attempt hready hserves hnamed rfl ?_ ?_ env
    · exact (groupCount_of_find hfound).symm
    · exact hbuffers.sized
  rw [hattempt] at hmade hgrouping
  exact ⟨hmade, (hgrouping.findFecTrackState track).trans hfound⟩

theorem owing_flushed (howing : Owing track t) (hrateless : track.isRatelessData = true)
    (hserves : t.ServesSubscribers track) (hbuffers : t.Buffers track)
    (hflushed : Flushed t env t' result) : Owing track t' := by
  cases hflushed with
  | empty hempty => exact howing
  | noSlot hbuffer hslot => exact howing
  | failed hbuffer hslot hattempt hdelivered hnobody =>
      exact (owing_flush_attempt howing hserves hbuffers hbuffer hslot hattempt).1
  | committed hbuffer hslot hattempt hresult =>
      obtain ⟨hmade, hfound⟩ :=
        owing_flush_attempt howing hserves hbuffers hbuffer hslot hattempt
      exact owing_commitGroup hmade hrateless hfound _

/-- What the flushes of a publisher rely on. -/
theorem owing_flushInvariant (hrateless : track.isRatelessData = true) :
    FlushInvariant (Owing track) fun t => t.ServesSubscribers track ∧ t.Buffers track where
  flush howing hready hflushed := owing_flushed howing hrateless hready.1 hready.2 hflushed
  regrouped howing hregroups := by
    obtain ⟨mark, hconns⟩ := hregroups.conns
    refine howing.continues hregroups.fecTracks hregroups.limits hregroups.nextConnId ?_
      (Or.inl hregroups.sentCache)
    rw [hconns]
    exact Pointwise.of_map fun c _ => .of_table rfl rfl rfl rfl
  direct := by
    intro t t' env object result howing hgroups hattempt
    have hmade := owing_direct howing hgroups env
    rw [hattempt] at hmade
    exact hmade

end Transport

end Qlinq
