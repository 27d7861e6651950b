import Qlinq.GroupIds
import Qlinq.Moves

namespace Qlinq

/-! The groups of a track leave the buffer under the ids 0, 1, 2 and so on. -/

namespace Transport

variable {t t' : Transport} {track : TrackId}

/-- The id of the track's next object. -/
def nextObject (t : Transport) (track : TrackId) : Nat :=
  (t.findFecTrackState track).elim 0 (·.nextObjectId)

/-- The groups of the track that left the buffer. -/
def publishedOn (t : Transport) (track : TrackId) : List MoqObject :=
  t.published.filter fun object => object.trackId = track

structure Consecutive (t : Transport) : Prop where
  ids : ∀ track, (t.publishedOn track).map (·.objectId) = List.range (t.nextObject track)
  group : ∀ object ∈ t.published, object.groupId = 0

theorem Consecutive.same (hconsecutive : Consecutive t) (hpublished : t'.published = t.published)
    (hnext : ∀ track, t'.nextObject track = t.nextObject track) : Consecutive t' where
  ids := by
    intro track
    rw [publishedOn, hpublished, hnext]
    exact hconsecutive.ids track
  group := by
    rw [hpublished]
    exact hconsecutive.group

theorem Consecutive.grouping (hconsecutive : Consecutive t) (hsame : SameGrouping t t') :
    Consecutive t' := by
  refine hconsecutive.same hsame.published fun track => ?_
  rw [nextObject, hsame.findFecTrackState, nextObject]

theorem consecutive_slotted (hconsecutive : Consecutive t)
    (hslot : t.createFecTrackState track = some (t', state)) : Consecutive t' := by
  rcases createFecTrackState_cases hslot with ⟨rfl, -⟩ | ⟨hnone, -, rfl, rfl⟩
  · exact hconsecutive
  · refine hconsecutive.same rfl fun other => ?_
    by_cases hother : other = track
    · subst hother
      unfold findFecTrackState at hnone
      rw [nextObject, findFecTrackState, Keyed.lookup_append, hnone, nextObject,
        findFecTrackState, hnone]
      simp [Keyed.lookup]
    · rw [nextObject, findFecTrackState, Keyed.lookup_append]
      simp [nextObject, findFecTrackState, Keyed.lookup, Ne.symm hother]

theorem consecutive_commitGroup (hconsecutive : Consecutive t)
    (hfound : t.findFecTrackState t.fecTrackId = some state)
    (htrack : state.trackId = t.fecTrackId) :
    Consecutive (t.commitGroup state (t.groupObject state)) := by
  have hfound' : t.findFecTrackState state.trackId = some state := by rwa [htrack]
  obtain ⟨⟨next, hnext, hid, -⟩, hothers⟩ := commitGroup_find (t.groupObject state) hfound'
  have hpublished : (t.commitGroup state (t.groupObject state)).published =
      t.published ++ [t.groupObject state] := by
    simp only [commitGroup]
    split <;> rfl
  constructor
  · intro track
    have hold := hconsecutive.ids track
    rw [publishedOn, hpublished, List.filter_append, List.map_append, ← publishedOn, hold]
    by_cases hsame : track = t.fecTrackId
    · subst hsame
      have hbefore : t.nextObject t.fecTrackId = state.nextObjectId := by
        simp [nextObject, hfound]
      have hafter : (t.commitGroup state (t.groupObject state)).nextObject t.fecTrackId =
          state.nextObjectId + 1 := by
        rw [← htrack]
        simp [nextObject, hnext, hid]
      rw [hbefore, hafter, List.range_succ]
      simp [groupObject]
    · have hafter : (t.commitGroup state (t.groupObject state)).nextObject track =
          t.nextObject track := by
        rw [nextObject, hothers track fun h => hsame (h.trans htrack), nextObject]
      rw [hafter]
      simp [groupObject, Ne.symm hsame]
  · rw [hpublished, List.forall_mem_append, List.forall_mem_singleton]
    exact ⟨hconsecutive.group, rfl⟩

theorem findFecTrackState_trackId (hfound : t.findFecTrackState track = some state) :
    state.trackId = track :=
  (Keyed.mem_of_lookup hfound).2

theorem grouping_of_attempt {t : Transport}
    (hattempt : t.publishUngrouped env object inFlush = (t', result)) : SameGrouping t t' := by
  have hsame := publishUngrouped_grouping t env object inFlush
  rwa [hattempt] at hsame

theorem groupObject_grouping {t : Transport} (hsame : SameGrouping t t') (state : FecTrackState) :
    t'.groupObject state = t.groupObject state := by
  simp only [groupObject, hsame.fecTrackId, hsame.fecBuf, hsame.fecPriority]

theorem Move.consecutive (hmove : Move t t') (hconsecutive : Consecutive t) :
    Consecutive t' := by
  cases hmove with
  | regrouped hregroups =>
      refine hconsecutive.same hregroups.published fun track => ?_
      rw [nextObject, findFecTrackState, hregroups.fecTracks]
      rfl
  | slotted hslot => exact consecutive_slotted hconsecutive hslot
  | direct hgroups hattempt => exact hconsecutive.grouping (grouping_of_attempt hattempt)
  | failed hbuffer hfound hattempt hresult =>
      exact hconsecutive.grouping (grouping_of_attempt hattempt)
  | committed hbuffer hfound hattempt hresult =>
      have hsame := grouping_of_attempt hattempt
      rw [← groupObject_grouping hsame]
      refine consecutive_commitGroup (hconsecutive.grouping hsame) ?_ ?_
      · rw [hsame.findFecTrackState, hsame.fecTrackId]
        exact hfound
      · rw [hsame.fecTrackId]
        exact findFecTrackState_trackId hfound

theorem Moves.consecutive (hmoves : Moves t t') (hconsecutive : Consecutive t) :
    Consecutive t' :=
  hmoves.preserves (fun _ _ hmove hstart => hmove.consecutive hstart) hconsecutive

theorem consecutive_announceEnd (hconsecutive : Consecutive t)
    (hfound : t.findFecTrackState track = some state) :
    Consecutive (t.announceEnd track state).1 := by
  refine hconsecutive.same rfl fun other => ?_
  have htrack := findFecTrackState_trackId hfound
  unfold nextObject announceEnd
  rw [findFecTrackState_setFecTrackState]
  split
  · next hother =>
      obtain rfl : other = state.trackId := hother
      rw [htrack]
      change ((t.findFecTrackState track).map _).elim 0 _ = _
      rw [hfound]
      rfl
  · rfl

theorem consecutive_apply (hconsecutive : Consecutive t) (op : Op) : Consecutive (t.apply op) := by
  by_cases hquiet : op.quiet = true
  · exact hconsecutive.grouping (grouping_apply t hquiet)
  · cases op with
    | publish env object => exact (moves_publish t env object).consecutive hconsecutive
    | flush env => exact (moves_flushGrouped t env).consecutive hconsecutive
    | finish env track =>
        rcases (finished t env track).moves with
          hmoves | ⟨s, state, hmoves, -, hfound, -, hfinish⟩
        · exact hmoves.consecutive hconsecutive
        · change Consecutive (t.finishTrack env track).1
          rw [hfinish]
          exact consecutive_announceEnd (hmoves.consecutive hconsecutive) hfound
    | _ => simp [Op.quiet] at hquiet

theorem consecutive_init (isServer : Bool) (limits : TransportLimits)
    (maxRecoveryCacheBytes : Nat) : Consecutive (init isServer limits maxRecoveryCacheBytes) where
  ids := fun _ => rfl
  group := by simp [init]

theorem consecutive_run (isServer : Bool) (limits : TransportLimits)
    (maxRecoveryCacheBytes : Nat) (ops : List Op) :
    Consecutive ((init isServer limits maxRecoveryCacheBytes).run ops) :=
  Machine.invariant_run (fun _ op hconsecutive _ => consecutive_apply hconsecutive op)
    (consecutive_init isServer limits maxRecoveryCacheBytes) (Machine.along_true _ ops)

/-! ### Objects by id -/

/-- The groups of the track by id; the group that waits for another attempt is the last. -/
def sequence (t : Transport) (track : TrackId) : List MoqObject :=
  t.publishedOn track ++
    if t.fecFlushPending = true ∧ t.fecTrackId = track then
      ((t.findFecTrackState track).map t.groupObject).toList
    else
      []

theorem getElem?_publishedOn (hconsecutive : Consecutive t) (track : TrackId) (id : Nat)
    (object : MoqObject) :
    (t.publishedOn track)[id]? = some object ↔
      object ∈ t.published ∧ object.trackId = track ∧ object.objectId = id := by
  have hids := hconsecutive.ids track
  have hid : ∀ (index : Nat) (object : MoqObject), (t.publishedOn track)[index]? = some object →
      object.objectId = index := by
    intro index object hobject
    have hmapped : ((t.publishedOn track).map (·.objectId))[index]? = some object.objectId := by
      rw [List.getElem?_map, hobject]
      rfl
    rw [hids, List.getElem?_range] at hmapped
    · exact (Option.some.inj hmapped).symm
    · by_contra hlarge
      rw [List.getElem?_eq_none (by simpa using hlarge)] at hmapped
      cases hmapped
  constructor
  · intro hobject
    have hmem := List.mem_of_getElem? hobject
    rw [publishedOn, List.mem_filter, decide_eq_true_eq] at hmem
    exact ⟨hmem.1, hmem.2, hid id object hobject⟩
  · rintro ⟨hmem, htrack, rfl⟩
    have hin : object ∈ t.publishedOn track := by
      rw [publishedOn, List.mem_filter, decide_eq_true_eq]
      exact ⟨hmem, htrack⟩
    obtain ⟨index, hindex⟩ := List.mem_iff_getElem?.mp hin
    rw [hid index object hindex]
    exact hindex

/-- Every group that may have been sent is found under its id. -/
theorem sequence_of_knownGroup (hconsecutive : Consecutive t) (hknown : t.KnownGroup object) :
    object.groupId = 0 ∧ (t.sequence object.trackId)[object.objectId]? = some object := by
  rcases hknown with hpublished | ⟨hpending, state, hfound, rfl⟩
  · refine ⟨hconsecutive.group object hpublished, ?_⟩
    have hold := (getElem?_publishedOn hconsecutive object.trackId object.objectId object).mpr
      ⟨hpublished, rfl, rfl⟩
    rw [sequence, List.getElem?_append_left]
    · exact hold
    · exact (List.getElem?_eq_some_iff.mp hold).1
  · refine ⟨rfl, ?_⟩
    have hlength : (t.publishedOn t.fecTrackId).length = state.nextObjectId := by
      have hids := congrArg List.length (hconsecutive.ids t.fecTrackId)
      simpa [nextObject, hfound] using hids
    change (t.sequence t.fecTrackId)[state.nextObjectId]? = _
    rw [sequence, if_pos ⟨hpending, rfl⟩, hfound, ← hlength, List.getElem?_append_right le_rfl]
    simp

end Transport

end Qlinq
