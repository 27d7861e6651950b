import Qlinq.Traffic

namespace Qlinq

/-! Group objects are numbered in the order in which they leave the buffer, and
all traffic of a grouped track is theirs. -/

namespace Transport

@[simp] theorem findFecTrackState_setFecTrackState (t : Transport) (state : FecTrackState)
    (track : TrackId) :
    (t.setFecTrackState state).findFecTrackState track =
      if track = state.trackId then (t.findFecTrackState track).map fun _ => state
      else t.findFecTrackState track := by
  simp only [findFecTrackState, setFecTrackState]
  rw [Keyed.lookup_adjust (fun _ _ => rfl)]
  split
  · next hsame => rw [hsame]
  · rfl

/-- Slots are found again after one was taken. -/
theorem createFecTrackState_find {t slotted : Transport}
    (hslot : t.createFecTrackState track = some (slotted, state)) :
    slotted.findFecTrackState track = some state ∧
      ∀ other found, t.findFecTrackState other = some found →
        slotted.findFecTrackState other = some found := by
  rcases createFecTrackState_cases hslot with ⟨rfl, hfound⟩ | ⟨hnone, -, rfl, rfl⟩
  · exact ⟨hfound, fun _ _ hold => hold⟩
  · constructor
    · simp only [findFecTrackState] at hnone ⊢
      rw [Keyed.lookup_append, hnone]
      simp [Keyed.lookup]
    · intro other found hold
      simp only [findFecTrackState] at hold ⊢
      rw [Keyed.lookup_append, hold]
      rfl

/-- The slot after its group was committed. -/
theorem commitGroup_find {t : Transport} (object : MoqObject)
    (hfound : t.findFecTrackState state.trackId = some old) :
    (∃ next, (t.commitGroup state object).findFecTrackState state.trackId = some next ∧
      next.nextObjectId = state.nextObjectId + 1 ∧ next.hasObjects = true) ∧
      ∀ other ≠ state.trackId,
        (t.commitGroup state object).findFecTrackState other = t.findFecTrackState other := by
  let bumped := { state with nextObjectId := state.nextObjectId + 1, hasObjects := true }
  have hbumped : ∀ other, (t.setFecTrackState bumped).findFecTrackState other =
      if other = state.trackId then (t.findFecTrackState other).map fun _ => bumped
      else t.findFecTrackState other :=
    findFecTrackState_setFecTrackState t bumped
  simp only [commitGroup]
  split
  · refine ⟨⟨{ bumped with checkpoint := some ⟨0, bumped.nextObjectId - 1⟩ }, ?_, rfl, rfl⟩,
      fun other hother => ?_⟩
    · rw [emitRollingCheckpoint, findFecTrackState_setFecTrackState, if_pos rfl]
      show Option.map _ ((t.setFecTrackState bumped).findFecTrackState state.trackId) = _
      rw [hbumped, if_pos rfl, hfound]
      rfl
    · rw [emitRollingCheckpoint, findFecTrackState_setFecTrackState, if_neg hother]
      exact (hbumped other).trans (if_neg hother)
  · refine ⟨⟨bumped, ?_, rfl, rfl⟩, fun other hother => ?_⟩
    · exact (hbumped state.trackId).trans (by rw [if_pos rfl, hfound]; rfl)
    · exact (hbumped other).trans (if_neg hother)

/-- The buffered group was attempted and waits to be attempted again. -/
def PendingGroup (t : Transport) (object : MoqObject) : Prop :=
  t.fecFlushPending = true ∧ ∃ state, t.findFecTrackState t.fecTrackId = some state ∧
    object = t.groupObject state

def KnownGroup (t : Transport) (object : MoqObject) : Prop :=
  object ∈ t.published ∨ t.PendingGroup object

def isGroupable (track : TrackId) : Bool := track.type == .data && (trackProfile track).usesFec

/-- Published groups carry distinct ids below their track's next one, a pending
group will take the next one, and no other object was sent on a track whose
records are grouped. -/
structure Numbered (t : Transport) : Prop where
  pending : t.fecFlushPending = true → t.fecBuf ≠ [] ∧
    ∃ state, t.findFecTrackState t.fecTrackId = some state
  below : ∀ object ∈ t.published, object.groupId = 0 ∧
    ∃ state, t.findFecTrackState object.trackId = some state ∧
      object.objectId < state.nextObjectId
  distinct : (t.published.map fun object => (object.trackId, object.objectId)).Nodup
  stems : Stems (fun object _ => isGroupable object.trackId = true → t.KnownGroup object) t

theorem numbered_init (isServer : Bool) (limits : TransportLimits)
    (maxRecoveryCacheBytes : Nat) :
    Numbered (init isServer limits maxRecoveryCacheBytes) where
  pending := by simp [init]
  below := by simp [init]
  distinct := by simp [init]
  stems := by
    refine ⟨by simp [init], fun entry hentry => ?_⟩
    simp [init, SentCache.init, SentCache.mem_occupied] at hentry

theorem SameGrouping.findFecTrackState {t t' : Transport} (hsame : SameGrouping t t')
    (track : TrackId) : t'.findFecTrackState track = t.findFecTrackState track := by
  rw [Transport.findFecTrackState, hsame.fecTracks, Transport.findFecTrackState]

theorem SameGrouping.pendingGroup {t t' : Transport} (hsame : SameGrouping t t')
    (object : MoqObject) : t'.PendingGroup object ↔ t.PendingGroup object := by
  simp only [PendingGroup, groupObject, hsame.fecFlushPending, hsame.findFecTrackState,
    hsame.fecTrackId, hsame.fecBuf, hsame.fecPriority]

theorem SameGrouping.knownGroup {t t' : Transport} (hsame : SameGrouping t t')
    (object : MoqObject) : t'.KnownGroup object ↔ t.KnownGroup object := by
  simp only [KnownGroup, hsame.published, hsame.pendingGroup]

/-- The invariant but for the traffic. -/
theorem Numbered.same {t t' : Transport} (hnumbered : Numbered t) (hsame : SameGrouping t t')
    (hstems : Stems (fun object _ => isGroupable object.trackId = true →
      t.KnownGroup object) t') : Numbered t' where
  pending := by
    rw [hsame.fecFlushPending, hsame.fecBuf, hsame.fecTrackId, hsame.findFecTrackState]
    exact hnumbered.pending
  below := by
    rw [hsame.published]
    simpa only [hsame.findFecTrackState] using hnumbered.below
  distinct := by
    rw [hsame.published]
    exact hnumbered.distinct
  stems := hstems.mono fun object _ hknown hgroupable =>
    (hsame.knownGroup object).mpr (hknown hgroupable)

theorem Numbered.echo {t t' : Transport} (hnumbered : Numbered t)
    (hsame : SameGrouping t t') (hechoes : Echoes t t') : Numbered t' :=
  hnumbered.same hsame (hnumbered.stems.echo hechoes)

/-! ### Flushes -/

/-- The group is about to be attempted, maybe again. -/
theorem numbered_attempting {t slotted : Transport} (hnumbered : Numbered t)
    (hbuffer : t.fecBuf ≠ [])
    (hslot : t.createFecTrackState t.fecTrackId = some (slotted, state)) :
    Numbered slotted.attempting ∧
      slotted.attempting.PendingGroup (slotted.groupObject state) := by
  obtain ⟨hfound, hkept⟩ := createFecTrackState_find hslot
  have hechoes := Echoes.of_stays (stays_createFecTrackState hslot)
  have hsame : slotted.fecBuf = t.fecBuf ∧ slotted.fecTrackId = t.fecTrackId ∧
      slotted.fecPriority = t.fecPriority ∧ slotted.published = t.published := by
    rcases createFecTrackState_cases hslot with ⟨rfl, -⟩ | ⟨-, -, -, rfl⟩
    · exact ⟨rfl, rfl, rfl, rfl⟩
    · exact ⟨rfl, rfl, rfl, rfl⟩
  obtain ⟨hbuf, htrack, hpriority, hpublished⟩ := hsame
  have hready : slotted.attempting.findFecTrackState slotted.attempting.fecTrackId =
      some state := by
    rw [← hfound, ← htrack]
    rfl
  have hpending : slotted.attempting.PendingGroup (slotted.groupObject state) :=
    ⟨rfl, state, hready, rfl⟩
  refine ⟨⟨?_, ?_, ?_, ?_⟩, hpending⟩
  · intro _
    exact ⟨by simpa [attempting, hbuf] using hbuffer, state, hready⟩
  · intro object hobject
    obtain ⟨hgroup, found, hstate, hbelow⟩ := hnumbered.below object (hpublished ▸ hobject)
    exact ⟨hgroup, found, hkept _ _ hstate, hbelow⟩
  · simpa [attempting, hpublished] using hnumbered.distinct
  · refine (hnumbered.stems.echo hechoes).mono fun object _ hknown hgroupable => ?_
    rcases hknown hgroupable with hold | ⟨-, old, hold, rfl⟩
    · exact Or.inl (hpublished.symm ▸ hold)
    · rw [hkept _ _ hold] at hfound
      obtain rfl := Option.some.inj hfound
      right
      simpa [groupObject, hbuf, htrack, hpriority] using hpending

theorem numbered_commitGroup {t : Transport} (hnumbered : Numbered t)
    (hfound : t.findFecTrackState t.fecTrackId = some state)
    (htrack : state.trackId = t.fecTrackId) :
    Numbered (t.commitGroup state (t.groupObject state)) := by
  have hfound' : t.findFecTrackState state.trackId = some state := by rwa [htrack]
  obtain ⟨⟨next, hnext, hid, -⟩, hothers⟩ := commitGroup_find (t.groupObject state)
    hfound'
  have hcommit : (t.commitGroup state (t.groupObject state)).fecFlushPending = false ∧
      (t.commitGroup state (t.groupObject state)).published =
        t.published ++ [t.groupObject state] := by
    simp only [commitGroup]
    split <;> exact ⟨rfl, rfl⟩
  obtain ⟨hsettled, hpublished⟩ := hcommit
  have hfresh : ∀ object ∈ t.published, object.trackId = t.fecTrackId →
      object.objectId < state.nextObjectId := by
    intro object hobject hsame
    obtain ⟨-, found, hstate, hbelow⟩ := hnumbered.below object hobject
    rw [hsame, hfound] at hstate
    obtain rfl := Option.some.inj hstate
    exact hbelow
  constructor
  · simp [hsettled]
  · intro object hobject
    rw [hpublished] at hobject
    rcases List.mem_append.mp hobject with hold | hnew
    · obtain ⟨hgroup, found, hstate, hbelow⟩ := hnumbered.below object hold
      refine ⟨hgroup, ?_⟩
      by_cases hsame : object.trackId = state.trackId
      · have := hfresh object hold (hsame.trans htrack)
        exact ⟨next, hsame.symm ▸ hnext, by omega⟩
      · exact ⟨found, (hothers _ hsame).trans hstate, hbelow⟩
    · obtain rfl := List.mem_singleton.mp hnew
      refine ⟨rfl, next, ?_, ?_⟩
      · simpa [groupObject, htrack] using hnext
      · simp [groupObject, hid]
  · rw [hpublished, List.map_append, List.map_singleton, List.nodup_append]
    refine ⟨hnumbered.distinct, by simp, fun left hleft right hright heq => ?_⟩
    obtain ⟨object, hobject, rfl⟩ := List.mem_map.mp hleft
    rw [List.mem_singleton.mp hright, Prod.mk.injEq] at heq
    have := hfresh object hobject heq.1
    simp only [groupObject] at heq
    omega
  · refine (hnumbered.stems.echo (.of_stays (stays_commitGroup t state _))).mono
      fun object _ hknown hgroupable => ?_
    left
    rw [hpublished]
    rcases hknown hgroupable with hold | ⟨-, old, hold, rfl⟩
    · exact List.mem_append_left _ hold
    · rw [hfound] at hold
      obtain rfl := Option.some.inj hold
      exact List.mem_append_right _ (List.mem_singleton_self _)

theorem numbered_flushed {t t' : Transport} (hnumbered : Numbered t)
    (hflushed : Flushed t env t' result) : Numbered t' := by
  have hattempted : ∀ {slotted attempted : Transport} {state : FecTrackState}
      {outcome : PublishResult}, t.fecBuf ≠ [] →
      t.createFecTrackState t.fecTrackId = some (slotted, state) →
      slotted.attempting.publishUngrouped env (slotted.groupObject state) true =
        (attempted, outcome) →
      Numbered attempted ∧ SameGrouping slotted.attempting attempted ∧
        slotted.attempting.PendingGroup (slotted.groupObject state) := by
    intro slotted attempted state outcome hbuffer hslot hattempt
    obtain ⟨hready, hpending⟩ := numbered_attempting hnumbered hbuffer hslot
    have hmade := attempted_publishUngrouped slotted.attempting env
      (slotted.groupObject state) true
    rw [hattempt] at hmade
    exact ⟨hready.same hmade.grouping (hready.stems.attempt hmade fun _ _ => Or.inr hpending),
      hmade.grouping, hpending⟩
  cases hflushed with
  | empty hempty => exact hnumbered
  | noSlot hbuffer hslot => exact hnumbered
  | failed hbuffer hslot hattempt hdelivered hnobody =>
      exact (hattempted hbuffer hslot hattempt).1
  | @committed slotted state attempted outcome hbuffer hslot hattempt hresult =>
      obtain ⟨hdone, hsame, hwaits, found, hfound, hobject⟩ :=
        hattempted hbuffer hslot hattempt
      have htrack : slotted.fecTrackId = t.fecTrackId := by
        rcases createFecTrackState_cases hslot with ⟨rfl, -⟩ | ⟨-, -, -, rfl⟩ <;> rfl
      have hgroup : slotted.groupObject state = attempted.groupObject state := by
        simp only [groupObject, hsame.fecTrackId, hsame.fecBuf, hsame.fecPriority]
        rfl
      rw [hgroup]
      refine numbered_commitGroup hdone ?_ ?_
      · rw [hsame.findFecTrackState, hsame.fecTrackId]
        have := (createFecTrackState_find hslot).1
        rw [← htrack] at this
        exact this
      · rw [createFecTrackState_trackId hslot, hsame.fecTrackId]
        exact htrack.symm

theorem numbered_flushGrouped {t : Transport} (hnumbered : Numbered t) (env : FlushEnv) :
    Numbered (t.flushGrouped env).1 :=
  numbered_flushed hnumbered (flushed t env)

/-! ### Staging -/

/-- The transport with another buffered group, none of which was attempted. -/
theorem Numbered.rebuffer {t t' : Transport} (hnumbered : Numbered t)
    (hidle : t.fecFlushPending = false) (hstill : t'.fecFlushPending = false)
    (htracks : t'.fecTracks = t.fecTracks) (hpublished : t'.published = t.published)
    (hechoes : Echoes t t') : Numbered t' where
  pending := by simp [hstill]
  below := by
    rw [hpublished]
    simpa only [findFecTrackState, htracks] using hnumbered.below
  distinct := by
    rw [hpublished]
    exact hnumbered.distinct
  stems := by
    refine (hnumbered.stems.echo hechoes).mono fun object _ hknown hgroupable => ?_
    rcases hknown hgroupable with hold | ⟨hwaits, -⟩
    · exact Or.inl (hpublished.symm ▸ hold)
    · simp [hidle] at hwaits

theorem fecFlushPending_of_empty {t : Transport} (hnumbered : Numbered t)
    (hempty : t.fecBuf = []) : t.fecFlushPending = false := by
  by_contra hwaits
  exact (hnumbered.pending (by simpa using hwaits)).1 hempty

theorem numbered_room {t s : Transport} (hnumbered : Numbered t)
    (hroom : Room t env object limit s) : Numbered s ∧ s.fecFlushPending = false := by
  cases hroom with
  | here hforeign hfull =>
      refine ⟨hnumbered, ?_⟩
      by_cases hempty : t.fecBuf = []
      · exact fecFlushPending_of_empty hnumbered hempty
      · simp only [groupForeign, Bool.and_eq_false_iff, Bool.or_eq_false_iff] at hforeign
        rcases hforeign with hnone | ⟨⟨hidle, -⟩, -⟩
        · simp [hempty] at hnone
        · exact hidle
  | emptied hdue hflush =>
      have hflushed := flushed t env
      rw [hflush] at hflushed
      have hdone := numbered_flushed hnumbered hflushed
      refine ⟨hdone, fecFlushPending_of_empty hdone ?_⟩
      rcases hflushed.buffer.1 with ⟨hne, -⟩ | ⟨-, hempty, -⟩
      · exact absurd rfl hne
      · exact hempty

theorem numbered_beginGroup {t : Transport} (hnumbered : Numbered t)
    (hidle : t.fecFlushPending = false) (object : MoqObject) :
    Numbered (t.beginGroup object) ∧ (t.beginGroup object).fecFlushPending = false := by
  have hsame : (t.beginGroup object).fecFlushPending = t.fecFlushPending ∧
      (t.beginGroup object).fecTracks = t.fecTracks ∧
      (t.beginGroup object).published = t.published := by
    simp only [beginGroup]
    split <;> exact ⟨rfl, rfl, rfl⟩
  obtain ⟨hwaits, htracks, hpublished⟩ := hsame
  exact ⟨hnumbered.rebuffer hidle (hwaits.trans hidle) htracks hpublished
    (.of_stays (stays_beginGroup t object)), hwaits.trans hidle⟩

theorem numbered_appendRecord {t t' : Transport} (hnumbered : Numbered t)
    (hidle : t.fecFlushPending = false)
    (happend : t.appendRecord grows object = some t') : Numbered t' := by
  have hechoes := Echoes.of_stays (stays_appendRecord happend)
  simp only [appendRecord] at happend
  split at happend
  · simp at happend
  · obtain rfl := Option.some.inj happend
    exact hnumbered.rebuffer hidle hidle rfl rfl hechoes

theorem numbered_stageRecord {t : Transport} (hnumbered : Numbered t) (env : PublishEnv)
    (object : MoqObject) : Numbered (t.stageRecord env object).1 := by
  have hstaged := staged t env object
  revert hstaged
  generalize (t.stageRecord env object).1 = t'
  generalize (t.stageRecord env object).2 = refused
  intro hstaged
  cases hstaged with
  | refused hdue hflush hresult =>
      have hflushed := flushed t env.before
      rw [hflush] at hflushed
      exact numbered_flushed hnumbered hflushed
  | unallocated hroom happend =>
      obtain ⟨hready, hidle⟩ := numbered_room hnumbered hroom
      exact (numbered_beginGroup hready hidle object).1
  | appended hroom happend =>
      obtain ⟨hready, hidle⟩ := numbered_room hnumbered hroom
      obtain ⟨hbegun, hstill⟩ := numbered_beginGroup hready hidle object
      exact numbered_appendRecord hbegun hstill happend

/-! ### Direct publication -/

/-- A connection that can be sent symbols of the track makes it a grouped one. -/
theorem groupsRecords_of_addressable {t : Transport}
    (hconflict : t.flagsConflict track = false) (hgroupable : isGroupable track = true)
    (haddressable : t.Addressable track) : t.groupsRecords track = true := by
  obtain ⟨c, hc, heligible, a, halias⟩ := haddressable
  obtain ⟨entry, hfind, -⟩ := SubscriptionTable.find_of_findAlias halias
  obtain ⟨hdata, hfec⟩ := Bool.and_eq_true_iff.mp hgroupable
  have hflags : entry.trackId.flags = track.flags := by
    simp only [flagsConflict, List.any_eq_false, Bool.and_eq_true, not_and] at hconflict
    simpa [hfind] using hconflict c hc heligible
  have huses : t.usesFec track = true := by
    simp only [recipientEligible, Bool.and_eq_true] at heligible
    simp only [usesFec, List.any_eq_true]
    refine ⟨c, hc, ?_⟩
    simp [heligible.1, hfind, trackProfile_congr hflags, hfec]
  simp [groupsRecords, hdata, huses]

theorem numbered_publish {t : Transport} (hnumbered : Numbered t) (env : PublishEnv)
    (object : MoqObject) : Numbered (t.publish env object).1 := by
  have hcases := published_cases t env object
  have hstaged := numbered_stageRecord hnumbered env object
  revert hcases
  generalize (t.publish env object).1 = t'
  generalize (t.publish env object).2 = result
  intro hcases
  cases hcases with
  | refused hinvalid => exact hnumbered
  | direct hconflict hgroups hattempt =>
      have hmade := attempted_publishUngrouped t env.direct object false
      rw [hattempt] at hmade
      refine hnumbered.same hmade.grouping (hnumbered.stems.attempt hmade ?_)
      rintro (hflush | haddressable) hgroupable
      · simp at hflush
      · have := groupsRecords_of_addressable hconflict hgroupable haddressable
        simp [hgroups] at this
  | oversized hgroups => exact hnumbered
  | unstaged hgroups hstage =>
      rw [hstage] at hstaged
      exact hstaged
  | buffered hgroups hsize hstage =>
      rw [hstage] at hstaged
      exact hstaged
  | @completed s _ _ hgroups hsize hstage hcomplete hflush =>
      rw [hstage] at hstaged
      have hflushed := flushed s env.after
      rw [hflush] at hflushed
      exact numbered_flushed hstaged hflushed

/-! ### Completions -/

theorem numbered_announceEnd {t : Transport} (hnumbered : Numbered t)
    (hfound : t.findFecTrackState track = some state) :
    Numbered (t.announceEnd track state).1 := by
  have htrack := (Keyed.mem_of_lookup hfound).2
  have hlookup : ∀ other, (t.announceEnd track state).1.findFecTrackState other =
      if other = track then some { state with
        checkpoint := some ⟨0, state.nextObjectId - 1⟩ } else t.findFecTrackState other := by
    intro other
    rw [announceEnd, findFecTrackState_setFecTrackState]
    simp only [htrack]
    split
    · next hsame =>
        show Option.map _ (t.findFecTrackState other) = _
        rw [hsame, hfound]
        rfl
    · rfl
  have hkept : ∀ other found, t.findFecTrackState other = some found →
      ∃ next, (t.announceEnd track state).1.findFecTrackState other = some next ∧
        next.nextObjectId = found.nextObjectId := by
    intro other found hold
    rw [hlookup]
    split
    · next hsame =>
        rw [hsame, hfound] at hold
        obtain rfl := Option.some.inj hold
        exact ⟨_, rfl, rfl⟩
    · exact ⟨found, hold, rfl⟩
  constructor
  · intro hwaits
    obtain ⟨hbuffer, found, hold⟩ := hnumbered.pending hwaits
    obtain ⟨next, hnext, -⟩ := hkept _ _ hold
    exact ⟨hbuffer, next, hnext⟩
  · intro object hobject
    obtain ⟨hgroup, found, hold, hbelow⟩ := hnumbered.below object hobject
    obtain ⟨next, hnext, hid⟩ := hkept _ _ hold
    exact ⟨hgroup, next, hnext, by omega⟩
  · exact hnumbered.distinct
  · refine (hnumbered.stems.echo (.of_stays (stays_announceEnd t track state))).mono
      fun object _ hknown hgroupable => ?_
    rcases hknown hgroupable with hold | ⟨hwaits, found, hold, rfl⟩
    · exact Or.inl hold
    · obtain ⟨next, hnext, hid⟩ := hkept _ _ hold
      refine Or.inr ⟨hwaits, next, hnext, ?_⟩
      simp only [groupObject, hid]
      rfl

theorem numbered_finishTrack {t : Transport} (hnumbered : Numbered t) (env : FlushEnv)
    (track : TrackId) : Numbered (t.finishTrack env track).1 := by
  have hsettled : ∀ s, Settled t env track s → Numbered s := by
    intro s hsettled
    cases hsettled with
    | here hother => exact hnumbered
    | flushed hpending hflush =>
        have hflushed := flushed t env
        rw [hflush] at hflushed
        exact numbered_flushed hnumbered hflushed
  have hfinished := finished t env track
  revert hfinished
  generalize (t.finishTrack env track).1 = t'
  intro hfinished
  cases hfinished with
  | refused => exact hnumbered
  | unflushed hpending hflush hresult =>
      have hflushed := flushed t env
      rw [hflush] at hflushed
      exact numbered_flushed hnumbered hflushed
  | unused hunused => exact hsettled _ hunused
  | announced hrateless hannounced hfound hobjects =>
      exact numbered_announceEnd (hsettled _ hannounced) hfound

theorem numbered_apply {t : Transport} (hnumbered : Numbered t) (op : Op) :
    Numbered (t.apply op) := by
  by_cases hquiet : op.quiet = true
  · exact hnumbered.echo (grouping_apply t hquiet) (echoes_apply t hquiet)
  · cases op with
    | publish env object => exact numbered_publish hnumbered env object
    | flush env => exact numbered_flushGrouped hnumbered env
    | finish env track => exact numbered_finishTrack hnumbered env track
    | _ => simp [Op.quiet] at hquiet

/-- Every reachable transport numbers its groups. -/
theorem numbered_run (isServer : Bool) (limits : TransportLimits)
    (maxRecoveryCacheBytes : Nat) (ops : List Op) :
    Numbered ((init isServer limits maxRecoveryCacheBytes).run ops) :=
  Machine.invariant_run (fun _ op hnumbered _ => numbered_apply hnumbered op)
    (numbered_init isServer limits maxRecoveryCacheBytes)
    (Machine.along_true _ ops)

end Transport

end Qlinq
