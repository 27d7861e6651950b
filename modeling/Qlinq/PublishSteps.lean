import Qlinq.Publish

namespace Qlinq

/-! What a publication call does, step by step: attempts to publish an object,
flushes of the grouping buffer and the staging of a record. -/

namespace Transport

/-- The part of a transport that connections and the sent cache are not. -/
structure SameGrouping (t t' : Transport) : Prop where
  isServer : t'.isServer = t.isServer
  limits : t'.limits = t.limits
  fecBuf : t'.fecBuf = t.fecBuf
  fecTrackId : t'.fecTrackId = t.fecTrackId
  fecPriority : t'.fecPriority = t.fecPriority
  fecPktCount : t'.fecPktCount = t.fecPktCount
  fecFlushPending : t'.fecFlushPending = t.fecFlushPending
  fecTracks : t'.fecTracks = t.fecTracks
  published : t'.published = t.published

theorem SameGrouping.refl (t : Transport) : SameGrouping t t :=
  ⟨rfl, rfl, rfl, rfl, rfl, rfl, rfl, rfl, rfl⟩

theorem SameGrouping.trans (hfirst : SameGrouping first second)
    (hsecond : SameGrouping second third) : SameGrouping first third where
  isServer := hsecond.isServer.trans hfirst.isServer
  limits := hsecond.limits.trans hfirst.limits
  fecBuf := hsecond.fecBuf.trans hfirst.fecBuf
  fecTrackId := hsecond.fecTrackId.trans hfirst.fecTrackId
  fecPriority := hsecond.fecPriority.trans hfirst.fecPriority
  fecPktCount := hsecond.fecPktCount.trans hfirst.fecPktCount
  fecFlushPending := hsecond.fecFlushPending.trans hfirst.fecFlushPending
  fecTracks := hsecond.fecTracks.trans hfirst.fecTracks
  published := hsecond.published.trans hfirst.published

theorem publishReliable_grouping (t : Transport) (env : FlushEnv) (object : MoqObject) :
    SameGrouping t (t.publishReliable env object).1 := by
  simp only [publishReliable]
  split
  · exact SameGrouping.refl t
  split
  · exact ⟨rfl, rfl, rfl, rfl, rfl, rfl, rfl, rfl, rfl⟩
  · split <;> exact ⟨rfl, rfl, rfl, rfl, rfl, rfl, rfl, rfl, rfl⟩

theorem publishDatagrams_grouping (t : Transport) (env : FlushEnv) (object : MoqObject)
    (inFlush : Bool) : SameGrouping t (t.publishDatagrams env object inFlush).1 := by
  simp only [publishDatagrams]
  split
  · exact SameGrouping.refl t
  split
  · exact SameGrouping.refl t
  · exact ⟨rfl, rfl, rfl, rfl, rfl, rfl, rfl, rfl, rfl⟩

theorem publishUngrouped_grouping (t : Transport) (env : FlushEnv) (object : MoqObject)
    (inFlush : Bool) : SameGrouping t (t.publishUngrouped env object inFlush).1 := by
  simp only [publishUngrouped]
  split
  · exact SameGrouping.refl t
  split
  · exact publishReliable_grouping t env object
  · exact publishDatagrams_grouping t env object inFlush

/-! Only the grouping branch answers BUFFERED. -/

theorem tally_failure_ne_buffered (outcomes : List RecipientOutcome) (start : Tally)
    (hstart : start.failure ≠ .buffered) :
    (outcomes.foldl Tally.count start).failure ≠ .buffered := by
  induction outcomes generalizing start with
  | nil => exact hstart
  | cons outcome rest ih =>
      refine ih _ ?_
      cases outcome with
      | attempted result sent => cases result <;> simp [Tally.count, hstart]
      | _ => simp [Tally.count, hstart]

theorem tally_result_ne_buffered {tally : Tally} (hfailure : tally.failure ≠ .buffered)
    (stored : Bool) : tally.result stored ≠ .buffered := by
  simp only [Tally.result]
  repeat' split
  all_goals first
    | exact hfailure
    | simp

theorem publishDatagrams_ne_buffered (t : Transport) (env : FlushEnv) (object : MoqObject)
    (inFlush : Bool) : (t.publishDatagrams env object inFlush).2 ≠ .buffered := by
  have hfailure := tally_failure_ne_buffered
    ((t.recipientTurns env object inFlush).map Prod.snd)
    { maximumSentSymbols := t.objectDataSymbols object } (by simp)
  simp only [publishDatagrams]
  split
  · simp
  split
  · simp
  · exact tally_result_ne_buffered hfailure _

theorem reliablePreflight_failure {failure : PublishResult} (t : Transport)
    (env : FlushEnv) (object : MoqObject) (conns : List Conn) (eligible : Nat)
    (hfailed : (t.reliablePreflight env object conns eligible).2.1 = some failure) :
    failure = .invalid ∨ failure = .error ∨ failure = .backpressure := by
  induction conns generalizing eligible with
  | nil => simp [reliablePreflight] at hfailed
  | cons c rest ih =>
      simp only [reliablePreflight] at hfailed
      split at hfailed
      · exact ih _ hfailed
      split at hfailed
      · exact Or.inl (Option.some.inj hfailed).symm
      split at hfailed
      · exact Or.inr (Or.inl (Option.some.inj hfailed).symm)
      split at hfailed
      · exact Or.inr (Or.inr (Option.some.inj hfailed).symm)
      · exact ih _ hfailed

theorem reliableWrite_failure {failure : PublishResult} (t : Transport)
    (env : FlushEnv) (object : MoqObject) (conns : List Conn) (delivered : Nat)
    (hfailed : (t.reliableWrite env object conns delivered).2 = some failure) :
    failure = .error ∨ failure = .partialDelivery := by
  induction conns generalizing delivered with
  | nil => simp [reliableWrite] at hfailed
  | cons c rest ih =>
      have hstopped : some (if delivered = 0 then PublishResult.error else .partialDelivery) =
          some failure → failure = .error ∨ failure = .partialDelivery := by
        intro hsame
        obtain rfl := Option.some.inj hsame
        split <;> simp
      simp only [reliableWrite] at hfailed
      split at hfailed
      · exact ih _ hfailed
      split at hfailed
      · exact hstopped hfailed
      · exact hstopped hfailed
      · exact ih _ hfailed

theorem publishReliable_ne_buffered (t : Transport) (env : FlushEnv)
    (object : MoqObject) : (t.publishReliable env object).2 ≠ .buffered := by
  simp only [publishReliable]
  split
  · simp
  split
  · next hfailed =>
      rcases reliablePreflight_failure t env object t.conns 0
        (congrArg (·.2.1) hfailed) with rfl | rfl | rfl <;> simp
  · next conns eligible _ =>
      split
      · next hfailed =>
          rcases reliableWrite_failure t env object conns 0 (congrArg Prod.snd hfailed) with
            rfl | rfl <;> simp
      · split <;> simp

theorem publishUngrouped_ne_buffered (t : Transport) (env : FlushEnv) (object : MoqObject)
    (inFlush : Bool) : (t.publishUngrouped env object inFlush).2 ≠ .buffered := by
  simp only [publishUngrouped]
  split
  · simp
  split
  · exact publishReliable_ne_buffered t env object
  · exact publishDatagrams_ne_buffered t env object inFlush

/-! ### Flushes -/

/-- The state a group is attempted in: its track has a slot and the flush is
pending. -/
def attempting (t : Transport) : Transport := { t with fecFlushPending := true }

/-- The ways a flush ends. -/
inductive Flushed (t : Transport) (env : FlushEnv) : Transport → PublishResult → Prop
  | empty (hempty : t.fecBuf = []) : Flushed t env t .delivered
  | noSlot (hbuffer : t.fecBuf ≠ [])
      (hslot : t.createFecTrackState t.fecTrackId = none) : Flushed t env t .error
  | failed (hbuffer : t.fecBuf ≠ [])
      (hslot : t.createFecTrackState t.fecTrackId = some (slotted, state))
      (hattempt : slotted.attempting.publishUngrouped env (slotted.groupObject state) true =
        (attempted, result))
      (hdelivered : result ≠ .delivered) (hnobody : result ≠ .noRecipients) :
      Flushed t env attempted result
  | committed (hbuffer : t.fecBuf ≠ [])
      (hslot : t.createFecTrackState t.fecTrackId = some (slotted, state))
      (hattempt : slotted.attempting.publishUngrouped env (slotted.groupObject state) true =
        (attempted, result))
      (hresult : result = .delivered ∨ result = .noRecipients) :
      Flushed t env (attempted.commitGroup state (slotted.groupObject state)) .delivered

theorem flushed (t : Transport) (env : FlushEnv) :
    Flushed t env (t.flushGrouped env).1 (t.flushGrouped env).2 := by
  simp only [flushGrouped]
  split
  · next hempty => exact .empty hempty
  · next hbuffer =>
      split
      · next hslot => exact .noSlot hbuffer hslot
      · next slotted state hslot =>
          rcases hattempt : slotted.attempting.publishUngrouped env
            (slotted.groupObject state) true with ⟨attempted, result⟩
          have hattempt' := hattempt
          simp only [attempting] at hattempt'
          rw [hattempt']
          cases result with
          | delivered => exact .committed hbuffer hslot hattempt (Or.inl rfl)
          | noRecipients => exact .committed hbuffer hslot hattempt (Or.inr rfl)
          | _ => exact .failed hbuffer hslot hattempt (by simp) (by simp)

theorem createFecTrackState_cases {t slotted : Transport}
    (hslot : t.createFecTrackState track = some (slotted, state)) :
    (slotted = t ∧ t.findFecTrackState track = some state) ∨
      (t.findFecTrackState track = none ∧ t.fecTracks.length < hardMaxSubscriptions ∧
        state = { trackId := track } ∧
        slotted = { t with fecTracks := t.fecTracks ++ [state] }) := by
  simp only [createFecTrackState] at hslot
  split at hslot
  · next found hfound =>
      obtain ⟨rfl, rfl⟩ := Prod.mk.inj (Option.some.inj hslot)
      exact Or.inl ⟨rfl, hfound⟩
  · next hnone =>
      split at hslot
      · next hroom =>
          obtain ⟨rfl, rfl⟩ := Prod.mk.inj (Option.some.inj hslot)
          exact Or.inr ⟨hnone, hroom, rfl, rfl⟩
      · simp at hslot

theorem createFecTrackState_trackId {t : Transport}
    (hslot : t.createFecTrackState track = some (slotted, state)) :
    state.trackId = track := by
  rcases createFecTrackState_cases hslot with ⟨-, hfound⟩ | ⟨-, -, rfl, -⟩
  · exact (Keyed.mem_of_lookup hfound).2
  · rfl

/-- What a flush makes of the grouping buffer and the published groups. -/
theorem Flushed.buffer (hflushed : Flushed t env t' result) :
    (result ≠ .delivered ∧ t'.fecBuf = t.fecBuf ∧ t'.published = t.published ∨
      result = .delivered ∧ t'.fecBuf = [] ∧
        (t.fecBuf = [] ∧ t'.published = t.published ∨
          t.fecBuf ≠ [] ∧ ∃ object : MoqObject, object.trackId = t.fecTrackId ∧
            object.data = t.fecBuf ∧ t'.published = t.published ++ [object])) ∧
      t'.fecTrackId = t.fecTrackId := by
  cases hflushed with
  | empty hempty => exact ⟨Or.inr ⟨rfl, hempty, Or.inl ⟨hempty, rfl⟩⟩, rfl⟩
  | noSlot hbuffer hslot => exact ⟨Or.inl ⟨by simp, rfl, rfl⟩, rfl⟩
  | @failed slotted state attempted result hbuffer hslot hattempt hdelivered hnobody =>
      have hsame := publishUngrouped_grouping slotted.attempting env
        (slotted.groupObject state) true
      rw [hattempt] at hsame
      have hslotted : slotted.fecBuf = t.fecBuf ∧ slotted.published = t.published ∧
          slotted.fecTrackId = t.fecTrackId := by
        rcases createFecTrackState_cases hslot with ⟨rfl, -⟩ | ⟨-, -, -, rfl⟩ <;>
          exact ⟨rfl, rfl, rfl⟩
      exact ⟨Or.inl ⟨hdelivered, hsame.fecBuf.trans hslotted.1,
        hsame.published.trans hslotted.2.1⟩, hsame.fecTrackId.trans hslotted.2.2⟩
  | @committed slotted state attempted result hbuffer hslot hattempt hresult =>
      have hsame := publishUngrouped_grouping slotted.attempting env
        (slotted.groupObject state) true
      rw [hattempt] at hsame
      have hslotted : slotted.fecBuf = t.fecBuf ∧ slotted.published = t.published ∧
          slotted.fecTrackId = t.fecTrackId := by
        rcases createFecTrackState_cases hslot with ⟨rfl, -⟩ | ⟨-, -, -, rfl⟩ <;>
          exact ⟨rfl, rfl, rfl⟩
      have hcommit : (attempted.commitGroup state (slotted.groupObject state)).fecBuf = [] ∧
          (attempted.commitGroup state (slotted.groupObject state)).published =
            attempted.published ++ [slotted.groupObject state] ∧
          (attempted.commitGroup state (slotted.groupObject state)).fecTrackId =
            attempted.fecTrackId := by
        simp only [commitGroup]
        split <;> exact ⟨rfl, rfl, rfl⟩
      refine ⟨Or.inr ⟨rfl, hcommit.1, Or.inr ⟨hbuffer, slotted.groupObject state,
        hslotted.2.2, hslotted.1, ?_⟩⟩, hcommit.2.2.trans (hsame.fecTrackId.trans hslotted.2.2)⟩
      rw [hcommit.2.1]
      exact congrArg (· ++ [slotted.groupObject state])
        (hsame.published.trans hslotted.2.1)

/-! ### Staging -/

/-- What a failing flush in front of a record makes of the record's result. -/
def refusal : PublishResult → PublishResult
  | .backpressure => .backpressure
  | .partialDelivery => .backpressure
  | _ => .error

/-- The transport has room for the record, after a flush if one is due. -/
inductive Room (t : Transport) (env : FlushEnv) (object : MoqObject) (limit : Nat) :
    Transport → Prop
  | here (hforeign : t.groupForeign object = false)
      (hfull : t.groupFull object limit = false) : Room t env object limit t
  | emptied (hdue : (t.groupForeign object || t.groupFull object limit) = true)
      (hflush : t.flushGrouped env = (t', .delivered)) : Room t env object limit t'

inductive Staged (t : Transport) (env : PublishEnv) (object : MoqObject) (limit : Nat) :
    Transport → Option PublishResult → Prop
  | refused
      (hdue : (t.groupForeign object || t.groupFull object limit) = true)
      (hflush : t.flushGrouped env.before = (t', result)) (hresult : result ≠ .delivered) :
      Staged t env object limit t' (some (refusal result))
  | unallocated (hroom : Room t env.before object limit s)
      (happend : (s.beginGroup object).appendRecord env.grows object = none) :
      Staged t env object limit (s.beginGroup object) (some .error)
  | appended (hroom : Room t env.before object limit s)
      (happend : (s.beginGroup object).appendRecord env.grows object = some t') :
      Staged t env object limit t' none

theorem makeRoom_false (t : Transport) (env : FlushEnv) : t.makeRoom env false = (t, none) :=
  rfl

theorem makeRoom_true {t : Transport} {env : FlushEnv}
    (hflush : t.flushGrouped env = (t', result)) :
    t.makeRoom env true =
      (t', if result = .delivered then none else some (refusal result)) := by
  simp only [makeRoom, if_true, hflush]
  cases result <;> rfl

theorem groupFull_of_empty {t : Transport} (hempty : t.fecBuf = []) (object : MoqObject)
    (limit : Nat) : t.groupFull object limit = false := by
  simp [groupFull, hempty]

theorem staged (t : Transport) (env : PublishEnv) (object : MoqObject) :
    Staged t env object (groupLimit (t.publicationFecLimit object.trackId))
      (t.stageRecord env object).1 (t.stageRecord env object).2 := by
  have happended : ∀ s next, Room t env.before object
      (groupLimit (t.publicationFecLimit object.trackId)) s →
      next = ((s.beginGroup object).appendRecord env.grows object).elim
        (s.beginGroup object, some PublishResult.error) (·, none) →
      Staged t env object (groupLimit (t.publicationFecLimit object.trackId))
        next.1 next.2 := by
    rintro s next hroom rfl
    cases happend : (s.beginGroup object).appendRecord env.grows object with
    | none => exact .unallocated hroom happend
    | some t' => exact .appended hroom happend
  simp only [stageRecord]
  rcases hflush : t.flushGrouped env.before with ⟨t', result⟩
  have hbuffer := (flushed t env.before).buffer
  rw [hflush] at hbuffer
  cases hforeign : t.groupForeign object with
  | true =>
      have hdue : (t.groupForeign object || t.groupFull object
          (groupLimit (t.publicationFecLimit object.trackId))) = true := by
        simp [hforeign]
      rw [makeRoom_true hflush]
      by_cases hdelivered : result = .delivered
      · subst hdelivered
        rcases hbuffer.1 with ⟨hne, -⟩ | ⟨-, hempty, -⟩
        · exact absurd rfl hne
        simp only [if_true, groupFull_of_empty hempty, makeRoom_false]
        refine happended t' _ (.emptied hdue hflush) ?_
        cases (t'.beginGroup object).appendRecord env.grows object <;> rfl
      · simp only [hdelivered, if_false]
        exact .refused hdue hflush hdelivered
  | false =>
      simp only [makeRoom_false]
      cases hfull : t.groupFull object
          (groupLimit (t.publicationFecLimit object.trackId)) with
      | true =>
          have hdue : (t.groupForeign object || t.groupFull object
              (groupLimit (t.publicationFecLimit object.trackId))) = true := by
            simp [hfull]
          rw [makeRoom_true hflush]
          by_cases hdelivered : result = .delivered
          · subst hdelivered
            simp only [if_true]
            refine happended t' _ (.emptied hdue hflush) ?_
            cases (t'.beginGroup object).appendRecord env.grows object <;> rfl
          · simp only [hdelivered, if_false]
            exact .refused hdue hflush hdelivered
      | false =>
          simp only [makeRoom_false]
          refine happended t _ (.here hforeign hfull) ?_
          cases (t.beginGroup object).appendRecord env.grows object <;> rfl

/-- The ways a publication call ends. -/
inductive Published (t : Transport) (env : PublishEnv) (object : MoqObject) :
    Transport → PublishResult → Prop
  | refused (hinvalid : (!trackIdValid object.trackId ||
      t.flagsConflict object.trackId) = true) : Published t env object t .invalid
  | direct (hconflict : t.flagsConflict object.trackId = false)
      (hgroups : t.groupsRecords object.trackId = false)
      (hattempt : t.publishUngrouped env.direct object false = (t', result)) :
      Published t env object t' result
  | oversized (hgroups : t.groupsRecords object.trackId = true) :
      Published t env object t .invalid
  | unstaged (hgroups : t.groupsRecords object.trackId = true)
      (hstage : t.stageRecord env object = (t', some result)) :
      Published t env object t' result
  | buffered (hgroups : t.groupsRecords object.trackId = true)
      (hsize : object.size ≤ maxFecRecordSize)
      (hstage : t.stageRecord env object = (t', none)) :
      Published t env object t' .buffered
  | completed (hgroups : t.groupsRecords object.trackId = true)
      (hsize : object.size ≤ maxFecRecordSize)
      (hstage : t.stageRecord env object = (s, none))
      (hcomplete : s.groupComplete
        (groupLimit (t.publicationFecLimit object.trackId)) = true)
      (hflush : s.flushGrouped env.after = (t', result)) :
      Published t env object t' (trailingResult result)

theorem published_cases (t : Transport) (env : PublishEnv) (object : MoqObject) :
    Published t env object (t.publish env object).1 (t.publish env object).2 := by
  simp only [publish]
  split
  · next hinvalid => exact .refused hinvalid
  · next hvalid =>
      have hconflict : t.flagsConflict object.trackId = false := by
        simp only [Bool.or_eq_true, not_or] at hvalid
        simpa using hvalid.2
      cases hgroups : t.groupsRecords object.trackId with
      | false => exact .direct hconflict hgroups rfl
      | true =>
          simp only [if_true, publishGrouped]
          split
          · exact .oversized hgroups
          · next hsize =>
              have hsize : object.size ≤ maxFecRecordSize := by omega
              rcases hstage : t.stageRecord env object with ⟨s, refused⟩
              cases refused with
              | some result => exact .unstaged hgroups hstage
              | none =>
                  simp only
                  split
                  · next hcomplete => exact .completed hgroups hsize hstage hcomplete rfl
                  · exact .buffered hgroups hsize hstage

/-- The buffer holds nothing of the track, after a flush if it did. -/
inductive Settled (t : Transport) (env : FlushEnv) (track : TrackId) : Transport → Prop
  | here (hother : ¬ (t.fecBuf ≠ [] ∧ t.fecTrackId = track)) : Settled t env track t
  | flushed (hpending : t.fecBuf ≠ [] ∧ t.fecTrackId = track)
      (hflush : t.flushGrouped env = (t', .delivered)) : Settled t env track t'

/-- The ways a completion call ends. -/
inductive Finished (t : Transport) (env : FlushEnv) (track : TrackId) : Transport → Prop
  | refused : Finished t env track t
  | unflushed (hpending : t.fecBuf ≠ [] ∧ t.fecTrackId = track)
      (hflush : t.flushGrouped env = (t', result)) (hresult : result ≠ .delivered) :
      Finished t env track t'
  | unused (hsettled : Settled t env track t') : Finished t env track t'
  | announced (hrateless : track.isRatelessData = true) (hsettled : Settled t env track s)
      (hfound : s.findFecTrackState track = some state)
      (hobjects : state.hasObjects = true) :
      Finished t env track (s.announceEnd track state).1

theorem flushTrack_cases (t : Transport) (env : FlushEnv) (track : TrackId) :
    match t.flushTrack env track with
    | (t', true) => Settled t env track t'
    | (t', false) => (t.fecBuf ≠ [] ∧ t.fecTrackId = track) ∧
        ∃ result, t.flushGrouped env = (t', result) ∧ result ≠ .delivered := by
  by_cases hpending : t.fecBuf ≠ [] ∧ t.fecTrackId = track
  · simp only [flushTrack, if_pos hpending]
    have hflushed := flushed t env
    rcases hflush : t.flushGrouped env with ⟨t', result⟩
    rw [hflush] at hflushed
    by_cases hdelivered : result = .delivered
    · subst hdelivered
      exact .flushed hpending hflush
    · have hnobody : result ≠ .noRecipients := by
        cases hflushed with
        | noSlot hbuffer hslot => simp
        | failed hbuffer hslot hattempt hdelivered hnobody => exact hnobody
        | empty hempty => exact absurd rfl hdelivered
        | committed hbuffer hslot hattempt houtcome => exact absurd rfl hdelivered
      cases result with
      | delivered => exact absurd rfl hdelivered
      | noRecipients => exact absurd rfl hnobody
      | _ => exact ⟨hpending, _, rfl, hdelivered⟩
  · simp only [flushTrack, if_neg hpending]
    exact .here hpending

theorem finished (t : Transport) (env : FlushEnv) (track : TrackId) :
    Finished t env track (t.finishTrack env track).1 := by
  have hflush := flushTrack_cases t env track
  simp only [finishTrack]
  split
  · exact .refused
  next hvalid =>
  have hrateless : track.isRatelessData = true := by
    simp only [Bool.or_eq_true, not_or] at hvalid
    simpa using hvalid.2
  split
  · next hfailed =>
      rw [hfailed] at hflush
      obtain ⟨hpending, result, hflush, hresult⟩ := hflush
      exact .unflushed hpending hflush hresult
  · next hdone =>
      rw [hdone] at hflush
      split
      · exact .unused hflush
      · next state hfound =>
          split
          · next hobjects => exact .announced hrateless hflush hfound hobjects
          · exact .unused hflush

end Transport

end Qlinq
