import Mathlib.Algebra.Order.BigOperators.Group.List
import Mathlib.Algebra.Order.Ring.Nat
import Qlinq.Backpressure
import Qlinq.CacheAdmission
import Qlinq.OwingFlushes
import Qlinq.StreamBudget

namespace Qlinq

/-! An accepted configuration lets a track reach its next checkpoint: the cache has room for
the groups of one window. -/

namespace SentCache

/-! ### Room beside the objects of a window -/

/-- Ids within a span are no more than the span is long. -/
theorem length_le_of_span {first span : Nat} {ids : List Nat} (hnodup : ids.Nodup)
    (hspan : ∀ id ∈ ids, first ≤ id ∧ id < first + span) : ids.length ≤ span := by
  have hsubset : ids ⊆ List.range' first span := by
    intro id hid
    rw [List.mem_range'_1]
    exact hspan id hid
  have hlength := (List.subperm_of_subset hnodup hsubset).length_le
  rwa [List.length_range'] at hlength

/-- A cache that holds short objects of a span has room for one more. -/
theorem canStore_of_span {cache : SentCache} {first span : Nat} (hcache : cache.WellFormed)
    (hnodup : (cache.occupied.map SentObject.objectId).Nodup)
    (hspan : ∀ entry ∈ cache.occupied, first ≤ entry.objectId ∧ entry.objectId < first + span)
    (hsized : ∀ entry ∈ cache.occupied, entry.size ≤ largest) (hcapacity : span < cache.capacity)
    (hbudget : (span + 1) * largest ≤ cache.maxPayloadBytes) {object : MoqObject}
    (hdata : object.data ≠ []) (hsize : object.size ≤ largest) (allowEvict : Bool)
    (overlaps : SentObject → Bool) : cache.canStore object allowEvict overlaps = true := by
  have hlength : cache.occupied.length ≤ span := by
    have hids := length_le_of_span hnodup fun id hid => by
      obtain ⟨entry, hentry, rfl⟩ := List.mem_map.mp hid
      exact hspan entry hentry
    rwa [List.length_map] at hids
  have hpayload : cache.payloadBytes ≤ span * largest := by
    have hsum := List.sum_le_card_nsmul (cache.occupied.map SentObject.size) largest
      fun size hsize => by
        obtain ⟨entry, hentry, rfl⟩ := List.mem_map.mp hsize
        exact hsized entry hentry
    rw [← hcache.payload, List.length_map, Nat.nsmul_eq_mul] at hsum
    exact hsum.trans (Nat.mul_le_mul_right largest hlength)
  have hcount := hcache.count
  have hwithin := hcache.budget
  rw [Nat.succ_mul] at hbudget
  have hadmitted : ¬(object.data = [] ∨ cache.maxPayloadBytes < object.size ∨
      cache.maxPayloadBytes < cache.payloadBytes) := by
    rw [or_iff_right hdata]
    omega
  unfold canStore
  rw [if_neg hadmitted]
  exact if_pos ⟨by omega, by omega⟩

end SentCache

namespace Transport

open Conn
open SentCache (Thins)

variable {track : TrackId} {t t' : Transport}

/-! ### One step -/

/-- Records are published on the track only. -/
def Op.PublishesOn (track : TrackId) : Op → Prop
  | .publish _ object => object.trackId = track
  | _ => True

instance (track : TrackId) : (op : Op) → Decidable (op.PublishesOn track)
  | .publish _ object => inferInstanceAs (Decidable (object.trackId = track))
  | .flush _ | .finish _ _ | .connect | .hello _ _ | .respondAuth _ _ | .receive _ _ _
  | .admissions _ _ | .close _ _ _ | .disconnect _ => isTrue trivial

/-- No connection loses its claim on a cached object unless the object is released or others
have a claim on it, and a record that is not grouped is no longer than one that is. -/
def KeepsClaims (track : TrackId) (t : Transport) : Op → Prop
  | .publish env object =>
      (t.groupsRecords object.trackId = false → object.size ≤ maxFecRecordSize) ∧
        t.FlushesUnder (ServesSubscribers track) (.publish env object)
  | .receive _ connId (.subscribe _ other) => t.ResumesShared track connId other
  | .receive _ connId (.unsubscribe a other) => t.LeavesShared track connId a other
  | .receive _ connId (.trackCheckpointAck ack) => t.AcksShared track connId ack
  | .disconnect connId => t.DepartsShared track connId
  | op => t.FlushesUnder (ServesSubscribers track) op

instance (track : TrackId) (t : Transport) : (op : Op) → Decidable (t.KeepsClaims track op)
  | .publish env object => inferInstanceAs (Decidable
      ((t.groupsRecords object.trackId = false → object.size ≤ maxFecRecordSize) ∧
        t.FlushesUnder (ServesSubscribers track) (.publish env object)))
  | .flush env => inferInstanceAs (Decidable (t.FlushesUnder (ServesSubscribers track) (.flush env)))
  | .finish env other => inferInstanceAs
      (Decidable (t.FlushesUnder (ServesSubscribers track) (.finish env other)))
  | .receive _ connId (.subscribe _ other) =>
      inferInstanceAs (Decidable (t.ResumesShared track connId other))
  | .receive _ connId (.unsubscribe a other) =>
      inferInstanceAs (Decidable (t.LeavesShared track connId a other))
  | .receive _ connId (.trackCheckpointAck ack) =>
      inferInstanceAs (Decidable (t.AcksShared track connId ack))
  | .disconnect connId => inferInstanceAs (Decidable (t.DepartsShared track connId))
  | .receive _ _ (.keyframeRequest _ _) | .receive _ _ (.unicast _) | .receive _ _ (.nack _)
  | .receive _ _ (.trackCheckpoint _) | .receive _ _ (.trackEnd _) | .connect | .hello _ _
  | .respondAuth _ _ | .admissions _ _ | .close _ _ _ => isTrue trivial

/-- The publisher of one track while no claim is lost. -/
structure Working (track : TrackId) (t : Transport) : Prop where
  owing : Owing track t
  buffers : t.Buffers track
  numbered : Numbered t

theorem owing_updateConn (howing : Owing track t) (connId : Nat) (update : Conn → Conn)
    (hsame : ∀ c, SameStance track c (update c)) : Owing track (t.updateConn connId update) := by
  refine howing.continues rfl rfl rfl ?_ (Or.inl rfl)
  refine Pointwise.of_map fun c _ => ?_
  split
  · exact hsame c
  · exact .refl track c

theorem owing_connect (howing : Owing track t) : Owing track t.connect := by
  have hfresh : Keyed.UniqueKeys Conn.id (t.conns ++ [Conn.init t.nextConnId t.limits]) := by
    refine Keyed.unique_append_singleton howing.unique fun hmem => ?_
    obtain ⟨c, hc, hid⟩ := List.mem_map.mp hmem
    have := howing.below c hc
    rw [hid] at this
    exact lt_irrefl _ this
  refine howing.quiet rfl rfl (.refl _) hfresh (fun c hc => ?_) (fun c hc => ?_)
    fun entry hentry => ?_
  · rcases List.mem_append.mp hc with hold | hnew
    · exact Nat.lt_succ_of_lt (howing.below c hold)
    · obtain rfl := List.mem_singleton.mp hnew
      exact Nat.lt_succ_self _
  · rcases List.mem_append.mp hc with hold | hnew
    · exact howing.member c hold
    · obtain rfl := List.mem_singleton.mp hnew
      exact participates_of_none rfl _
  · obtain ⟨c, hc, hawaits⟩ := howing.owed entry hentry
    exact ⟨c, List.mem_append_left _ hc, hawaits⟩

theorem owing_receive (howing : Owing track t) (hrateless : track.isRatelessData = true)
    (env : RepairEnv) (connId : Nat) (frame : ControlFrame)
    (hkeeps : t.KeepsClaims track (.receive env connId frame)) :
    Owing track (t.receiveControlFrame env connId frame) := by
  have hgrouping := grouping_receiveControlFrame t env connId frame
  have hheard := heard_receiveControlFrame track t env connId frame
  revert hgrouping hheard
  generalize t.receiveControlFrame env connId frame = t'
  intro hgrouping hheard
  cases hheard with
  | ignored => exact howing
  | passed hlookup hsame =>
      exact howing.stands hgrouping (.refl _) hlookup (replaces_setConn hlookup hsame.id_eq) hsame
  | subscribed hlookup hhello hadd =>
      exact owing_subscribed howing hrateless hlookup hhello hadd hkeeps
  | unsubscribed hlookup => exact owing_unsubscribed howing hlookup hkeeps
  | acked hlookup hbound hacked => exact owing_acked howing hlookup hbound hacked hkeeps
  | repaired hlookup hsame hthins =>
      exact howing.stands hgrouping hthins hlookup
        ((replaces_setConn hlookup hsame.id_eq).of_conns rfl rfl) hsame

/-! ### Publications -/

theorem FlushesUnder.and {P Q : Transport → Prop} {op : Op} (hP : t.FlushesUnder P op)
    (hQ : t.FlushesUnder Q op) : t.FlushesUnder (fun s => P s ∧ Q s) op := by
  cases op with
  | publish env object =>
      intro hgroups
      exact ⟨fun hdue => ⟨(hP hgroups).1 hdue, (hQ hgroups).1 hdue⟩,
        fun hstaged hcomplete => ⟨(hP hgroups).2 hstaged hcomplete,
          (hQ hgroups).2 hstaged hcomplete⟩⟩
  | flush env => exact ⟨hP, hQ⟩
  | finish env other => exact fun hpending => ⟨hP hpending, hQ hpending⟩
  | _ => trivial

/-- The buffer is bounded wherever an accepted record makes it flush. -/
theorem flushesUnder_buffers (hbuffers : t.Buffers track) {env : PublishEnv}
    (htrack : object.trackId = track) (htakes : t.TakesRecord object) :
    t.FlushesUnder (Buffers track) (.publish env object) := fun _ =>
  ⟨fun _ => hbuffers, fun _ _ => buffers_stageRecord hbuffers htrack htakes env⟩

theorem owing_publish (howing : Owing track t) (hrateless : track.isRatelessData = true)
    (hbuffers : t.Buffers track) (env : PublishEnv) (htrack : object.trackId = track)
    (hserves : t.FlushesUnder (ServesSubscribers track) (.publish env object)) :
    Owing track (t.publish env object).1 := by
  by_cases htakes : t.TakesRecord object
  · exact (owing_flushInvariant hrateless).publish howing env object
      (hserves.and (flushesUnder_buffers hbuffers htrack htakes))
  cases hgroups : t.groupsRecords object.trackId with
  | true =>
      rw [publish_oversized hgroups htakes env]
      exact howing
  | false =>
      refine (owing_flushInvariant hrateless).publish howing env object fun hgrouped => ?_
      rw [hgroups] at hgrouped
      cases hgrouped

theorem buffers_publish (hbuffers : t.Buffers track) (env : PublishEnv)
    (htrack : object.trackId = track) : (t.publish env object).1.Buffers track := by
  have hcases := published_cases t env object
  by_cases htakes : t.TakesRecord object
  · have hstaged := buffers_stageRecord hbuffers htrack htakes env
    revert hcases
    generalize (t.publish env object).1 = t'
    generalize (t.publish env object).2 = result
    intro hcases
    cases hcases with
    | refused hinvalid => exact hbuffers
    | direct hconflict hgroups hattempt =>
        have hgrouping := publishUngrouped_grouping t env.direct object false
        rw [hattempt] at hgrouping
        exact hbuffers.same hgrouping
    | oversized hgroups => exact hbuffers
    | unstaged hgroups hstage =>
        rw [hstage] at hstaged
        exact hstaged
    | buffered hgroups hsize hstage =>
        rw [hstage] at hstaged
        exact hstaged
    | completed hgroups hsize hstage hcomplete hflush =>
        rw [hstage] at hstaged
        exact buffers_of_flush hstaged hflush
  cases hgroups : t.groupsRecords object.trackId with
  | true =>
      rw [publish_oversized hgroups htakes env]
      exact hbuffers
  | false =>
      unfold publish
      split
      · exact hbuffers
      · rw [hgroups, if_neg Bool.false_ne_true]
        exact hbuffers.same (publishUngrouped_grouping t env.direct object false)

theorem settled_keeps (howing : Owing track t) (hrateless : track.isRatelessData = true)
    (hbuffers : t.Buffers track) (hserves : t.fecTrackId = other → t.ServesSubscribers track)
    (hsettled : Settled t env other t') : Owing track t' ∧ t'.Buffers track := by
  refine ⟨(owing_flushInvariant hrateless).settled howing (fun h => ⟨hserves h, hbuffers⟩) hsettled,
    ?_⟩
  cases hsettled with
  | here _ => exact hbuffers
  | flushed _ hflush => exact buffers_of_flush hbuffers hflush

/-- A completion of another track finds nothing to announce. -/
theorem owing_finishTrack (howing : Owing track t) (hrateless : track.isRatelessData = true)
    (hbuffers : t.Buffers track) (env : FlushEnv) (other : TrackId)
    (hserves : t.fecTrackId = other → t.ServesSubscribers track) :
    Owing track (t.finishTrack env other).1 ∧ (t.finishTrack env other).1.Buffers track := by
  have hfinished := finished t env other
  revert hfinished
  generalize (t.finishTrack env other).1 = t'
  intro hfinished
  cases hfinished with
  | refused => exact ⟨howing, hbuffers⟩
  | unflushed hpending hflush hresult =>
      have hflushed := flushed t env
      rw [hflush] at hflushed
      exact ⟨owing_flushed howing hrateless (hserves hpending.2) hbuffers hflushed,
        buffers_flushed hbuffers hflushed⟩
  | unused hsettled => exact settled_keeps howing hrateless hbuffers hserves hsettled
  | @announced s state hother hsettled hfound hobjects =>
      obtain ⟨hs, hsbuffers⟩ := settled_keeps howing hrateless hbuffers hserves hsettled
      have hsame : other = track := by
        by_contra hne
        rw [hs.single other hne] at hfound
        cases hfound
      subst hsame
      exact ⟨owing_announceEnd hs hrateless hfound hobjects, ⟨hsbuffers.named, hsbuffers.sized⟩⟩

/-- One step that takes no claim away. -/
theorem working_apply (hworking : Working track t) (hrateless : track.isRatelessData = true)
    (op : Op) (honly : op.PublishesOn track) (hkeeps : t.KeepsClaims track op) :
    Working track (t.apply op) := by
  obtain ⟨howing, hbuffers, hnumbered⟩ := hworking
  suffices hboth : Owing track (t.apply op) ∧ (t.apply op).Buffers track from
    ⟨hboth.1, hboth.2, numbered_apply hnumbered op⟩
  have hquiet : op.quiet = true → (t.apply op).Buffers track := fun h =>
    hbuffers.same (grouping_apply t h)
  cases op with
  | publish env object =>
      exact ⟨owing_publish howing hrateless hbuffers env honly hkeeps.2,
        buffers_publish hbuffers env honly⟩
  | flush env =>
      exact ⟨owing_flushed howing hrateless hkeeps hbuffers (flushed t env),
        buffers_flushed hbuffers (flushed t env)⟩
  | finish env other => exact owing_finishTrack howing hrateless hbuffers env other hkeeps
  | connect => exact ⟨owing_connect howing, hquiet rfl⟩
  | hello connId hello =>
      exact ⟨owing_updateConn howing connId _ fun c => sameStance_receiveHello track c _ hello,
        hquiet rfl⟩
  | respondAuth connId success =>
      exact ⟨owing_updateConn howing connId _ fun c => sameStance_respondAuth track c success,
        hquiet rfl⟩
  | receive env connId frame =>
      exact ⟨owing_receive howing hrateless env connId frame hkeeps, hquiet rfl⟩
  | admissions connId admissions =>
      exact ⟨owing_updateConn howing connId _ fun c => .of_table rfl rfl rfl rfl, hquiet rfl⟩
  | close connId code reason =>
      exact ⟨owing_updateConn howing connId _ fun c => sameStance_quiclyClose track c code reason,
        hquiet rfl⟩
  | disconnect connId => exact ⟨owing_disconnect howing hkeeps, hquiet rfl⟩

/-! ### Room for the groups of a window -/

/-- First object of the window that the track is publishing. -/
def windowStart (t : Transport) (track : TrackId) : Nat :=
  recoveryWindowObjects * (t.groupCount track / recoveryWindowObjects)

/-- Whoever takes part in the track's checkpoints has acknowledged the earlier windows, and
everybody takes part. -/
def EarlierAcked (track : TrackId) (t : Transport) : Prop :=
  ∀ c ∈ t.conns, ∀ a ∈ c.sendSubscriptions.findAlias track, t.windowStart track = 0 ∨
    c.checkpointCapable = true ∧ ((c.checkpointAck a).participating = true →
      ∃ mark ∈ (c.checkpointAck a).acked, t.windowStart track ≤ mark.objectId + 1)

instance (track : TrackId) (t : Transport) : Decidable (t.EarlierAcked track) :=
  @List.decidableBAll _ _ (fun _ => Option.decidableForallMem _) t.conns

/-- What is cached is of the window, and only the pending group may be its newest. -/
theorem Working.span (hworking : Working track t) (hrateless : track.isRatelessData = true)
    (hacked : t.EarlierAcked track) (hentry : entry ∈ t.sentCache.occupied) :
    t.windowStart track ≤ entry.objectId ∧ (entry.objectId < t.groupCount track ∨
      entry.objectId = t.groupCount track ∧ entry.data = t.fecBuf) := by
  obtain ⟨howing, hbuffers, hnumbered⟩ := hworking
  constructor
  · obtain ⟨c, hc, a, halias, hwaits⟩ := howing.owed entry hentry
    rcases hacked c hc a halias with hfirst | ⟨hcapable, hmarked⟩
    · rw [hfirst]
      exact Nat.zero_le _
    · obtain ⟨hmember, hbehind⟩ := hwaits hcapable
      obtain ⟨mark, hmark, hreached⟩ := hmarked hmember
      have := hbehind mark hmark
      omega
  · obtain ⟨object, geometry, hknown, ⟨hidentity, hdata, _⟩, _⟩ :=
      hnumbered.stems.cached entry hentry
    obtain ⟨htrack, _, hid⟩ := SentCache.hasIdentity_iff.mp hidentity
    have hnamed : object.trackId = track := htrack.symm.trans (howing.cached entry hentry).1
    rw [hid, hdata]
    have hgroupable := isGroupable_of_isRatelessData hrateless
    rw [← hnamed] at hgroupable
    rcases hknown hgroupable with hpublished | ⟨hpending, state, hfound, rfl⟩
    · obtain ⟨_, state, hfound, hbelow⟩ := hnumbered.below object hpublished
      rw [hnamed] at hfound
      rw [groupCount_of_find hfound]
      exact Or.inl hbelow
    · have hsame : t.fecTrackId = track := hbuffers.named (hnumbered.pending hpending).1
      rw [hsame] at hfound
      rw [groupCount_of_find hfound]
      exact Or.inr ⟨rfl, rfl⟩

/-- Objects of one track and group are told apart by their ids. -/
theorem Owing.nodup_ids (howing : Owing track t) :
    (t.sentCache.occupied.map SentObject.objectId).Nodup := by
  have hidentities : t.sentCache.occupied.map SentObject.identity =
      (t.sentCache.occupied.map SentObject.objectId).map fun id => (track, 0, id) := by
    rw [List.map_map]
    apply List.map_congr_left
    intro entry hentry
    obtain ⟨htrack, hgroup⟩ := howing.cached entry hentry
    rw [SentObject.identity, htrack, hgroup]
    rfl
  have hnodup := howing.wellFormed.identities
  rw [hidentities] at hnodup
  exact hnodup.of_map

/-- An object finds room as long as one of the window's is not cached. -/
theorem Working.hasRoom_of_span {first span : Nat} (hworking : Working track t)
    (hspan : ∀ entry ∈ t.sentCache.occupied,
      first ≤ entry.objectId ∧ entry.objectId < first + span)
    (hcount : span < recoveryWindowObjects) {object : MoqObject} (hdata : object.data ≠ [])
    (hsize : object.size ≤ t.largestGroup) : t.HasRoomFor object := by
  intro _
  have hcapacity := hworking.owing.capacity
  refine SentCache.canStore_of_span hworking.owing.wellFormed hworking.owing.nodup_ids hspan
    hworking.owing.sized (by omega) ?_ hdata hsize _ _
  exact (Nat.mul_le_mul_right _ hcount).trans hworking.owing.budget

/-- The buffered group finds room in the window. -/
theorem Working.hasRoom_group {slotted : Transport} (hworking : Working track t)
    (hrateless : track.isRatelessData = true) (hacked : t.EarlierAcked track)
    (hbuffer : t.fecBuf ≠ [])
    (hslot : t.createFecTrackState t.fecTrackId = some (slotted, state)) :
    slotted.HasRoomFor (slotted.groupObject state) := by
  have hnamed := hworking.buffers.named hbuffer
  have hcount : t.groupCount track = state.nextObjectId := by
    rw [hnamed] at hslot
    rcases createFecTrackState_cases hslot with ⟨_, hfound⟩ | ⟨hnone, _, rfl, _⟩
    · exact groupCount_of_find hfound
    · rw [groupCount, hnone]
      rfl
  obtain ⟨slots, rfl⟩ := slotted_eq hslot
  suffices hroom : t.HasRoomFor (t.groupObject state) from hroom
  have hspan := fun entry (hentry : entry ∈ t.sentCache.occupied) =>
    hworking.span hrateless hacked hentry
  by_cases hcached : ∃ entry ∈ t.sentCache.occupied, entry.objectId = t.groupCount track
  · obtain ⟨existing, hmem, hid⟩ := hcached
    have hidentity : ∀ entry ∈ t.sentCache.occupied,
        entry.identity = (t.groupObject state).identity ↔ entry.objectId = t.groupCount track := by
      intro entry hentry
      obtain ⟨htrack, hgroup⟩ := hworking.owing.cached entry hentry
      simp [SentObject.identity, MoqObject.identity, groupObject, htrack, hgroup, hnamed, hcount]
    refine fun _ => SentCache.canStore_of_mem hworking.owing.wellFormed hbuffer hmem
      ((hidentity existing hmem).mpr hid) (fun entry hentry hsame => ?_) _ _
    rcases (hspan entry hentry).2 with hbelow | ⟨_, hdata⟩
    · have := (hidentity entry hentry).mp hsame
      omega
    · exact hdata
  · have hwindow : t.groupCount track < t.windowStart track + recoveryWindowObjects := by
      unfold windowStart recoveryWindowObjects
      omega
    have hstart : t.windowStart track ≤ t.groupCount track := Nat.mul_div_le _ _
    have hbelow : ∀ entry ∈ t.sentCache.occupied, t.windowStart track ≤ entry.objectId ∧
        entry.objectId < t.windowStart track + (t.groupCount track - t.windowStart track) := by
      intro entry hentry
      obtain ⟨hfirst, hlast⟩ := hspan entry hentry
      rcases hlast with hbelow | ⟨hsame, _⟩
      · exact ⟨hfirst, by omega⟩
      · exact absurd ⟨entry, hentry, hsame⟩ hcached
    exact hworking.hasRoom_of_span hbelow (by omega) hbuffer hworking.buffers.sized

/-! ### Every step finds room -/

/-- The cache takes the buffered group when the earlier windows are acknowledged. -/
def GroupAdmitted (track : TrackId) (t : Transport) : Prop :=
  t.fecBuf ≠ [] → t.EarlierAcked track →
    ∀ slotted state, t.createFecTrackState t.fecTrackId = some (slotted, state) →
      slotted.HasRoomFor (slotted.groupObject state)

/-- Nothing that the step publishes meets a full cache: no group that it flushes, and no record
that is sent by itself before the window is complete. -/
def Unblocked (track : TrackId) (t : Transport) : Op → Prop
  | .publish env object =>
      (t.TakesRecord object → t.FlushesUnder (GroupAdmitted track) (.publish env object)) ∧
        (t.groupsRecords object.trackId = false → t.EarlierAcked track →
          (∀ entry ∈ t.sentCache.occupied,
            entry.objectId + 1 < t.windowStart track + recoveryWindowObjects) →
          object.size ≠ 0 → object.size ≤ t.publicationFecLimit object.trackId →
            t.HasRoomFor object)
  | op => t.FlushesUnder (GroupAdmitted track) op

theorem Working.groupAdmitted (hworking : Working track t)
    (hrateless : track.isRatelessData = true) : t.GroupAdmitted track :=
  fun hbuffer hacked _ _ hslot => hworking.hasRoom_group hrateless hacked hbuffer hslot

/-- The record that is staged leaves the publisher at work. -/
theorem working_stageRecord (hworking : Working track t) (hrateless : track.isRatelessData = true)
    (htrack : object.trackId = track) (htakes : t.TakesRecord object) (env : PublishEnv)
    (hgroups : t.groupsRecords object.trackId = true)
    (hserves : t.FlushesUnder (ServesSubscribers track) (.publish env object)) :
    Working track (t.stageRecord env object).1 where
  owing := (owing_flushInvariant hrateless).staged hworking.owing (type_of_groupsRecords hgroups)
    (fun hdue => ⟨(hserves hgroups).1 hdue, hworking.buffers⟩) (staged t env object)
  buffers := buffers_stageRecord hworking.buffers htrack htakes env
  numbered := numbered_stageRecord hworking.numbered env object

theorem Working.hasRoom_direct (hworking : Working track t) (hrateless : track.isRatelessData = true)
    (hacked : t.EarlierAcked track) {object : MoqObject} (hdata : object.size ≠ 0)
    (hopen : ∀ entry ∈ t.sentCache.occupied,
      entry.objectId + 1 < t.windowStart track + recoveryWindowObjects)
    (hlong : object.size ≤ maxFecRecordSize)
    (hlimit : object.size ≤ t.publicationFecLimit object.trackId) : t.HasRoomFor object := by
  have hspan : ∀ entry ∈ t.sentCache.occupied, t.windowStart track ≤ entry.objectId ∧
      entry.objectId < t.windowStart track + (recoveryWindowObjects - 1) := by
    intro entry hentry
    have hlast := hopen entry hentry
    exact ⟨(hworking.span hrateless hacked hentry).1, by omega⟩
  have hconfigured : t.publicationFecLimit object.trackId ≤ t.limits.maxFecObjectSize :=
    lowest_le_start _ _ _ _
  have hne : object.data ≠ [] := fun hempty => hdata (by rw [MoqObject.size, hempty]; rfl)
  exact hworking.hasRoom_of_span hspan (by decide) hne (by rw [largestGroup]; omega)

theorem unblocked_of_working (hworking : Working track t) (hrateless : track.isRatelessData = true)
    (op : Op) (honly : op.PublishesOn track) (hkeeps : t.KeepsClaims track op) :
    t.Unblocked track op := by
  have hadmitted := hworking.groupAdmitted hrateless
  cases op with
  | publish env object =>
      refine ⟨fun htakes hgroups => ⟨fun _ => hadmitted, fun _ _ => ?_⟩,
        fun hgroups hacked hopen hsize hlimit => ?_⟩
      · exact (working_stageRecord hworking hrateless honly htakes env hgroups
          hkeeps.2).groupAdmitted hrateless
      · exact hworking.hasRoom_direct hrateless hacked hsize hopen (hkeeps.1 hgroups) hlimit
  | flush env => exact hadmitted
  | finish env other => exact fun _ => hadmitted
  | _ => trivial

/-- Over a run that takes no claim away, nothing meets a full cache. -/
theorem unblocked_run (hrateless : track.isRatelessData = true) (ops : List Op)
    (hworking : Working track t) (honly : ∀ op ∈ ops, op.PublishesOn track)
    (hkeeps : Machine.Along apply (KeepsClaims track) t ops) :
    Machine.Along apply (Unblocked track) t ops := by
  induction ops generalizing t with
  | nil => trivial
  | cons op rest ih =>
      obtain ⟨hhere, hrest⟩ := List.forall_mem_cons.mp honly
      exact ⟨unblocked_of_working hworking hrateless op hhere hkeeps.1,
        ih (working_apply hworking hrateless op hhere hkeeps.1) hrest hkeeps.2⟩

/-! ### Accepted configurations -/

theorem minimumCache_le {configured limits : ConfiguredLimits}
    (hresolve : configured.resolve = .ok limits) :
    limits.minimumCache ≤ limits.maxRecoveryCacheBytes := by
  unfold ConfiguredLimits.resolve at hresolve
  simp only [ConfiguredLimits.ite_error_eq_ok, not_or, not_lt, Except.ok.injEq] at hresolve
  obtain ⟨_, _, _, _, _, _, _, _, _, _, _, hcache, _, _, _, _, rfl⟩ := hresolve
  exact hcache

/-- The publisher of a track begins without claims. -/
theorem working_init {configured limits : ConfiguredLimits}
    (hresolve : configured.resolve = .ok limits) (isServer : Bool) (track : TrackId) :
    Working track (init isServer limits.toTransportLimits limits.maxRecoveryCacheBytes) := by
  have hresolved := ConfiguredLimits.resolved_of_resolve hresolve
  have hcache := minimumCache_le hresolve
  have hpositive := hresolved.fec_pos
  simp only [ConfiguredLimits.minimumCache, max_le_iff] at hcache
  have hempty : (init isServer limits.toTransportLimits limits.maxRecoveryCacheBytes).sentCache.occupied
      = [] := SlotTable.occupied_replicate_none _
  refine ⟨⟨List.nodup_nil, nofun, nofun, fun _ _ => rfl, nofun, nofun,
    SentCache.wellFormed_init (by omega), ?_, ?_, ?_, hcache.1, ?_⟩, buffers_of_empty rfl,
    numbered_init isServer _ _⟩
  · rw [hempty]
    exact nofun
  · rw [hempty]
    exact nofun
  · simp only [init, SentCache.init, SentCache.capacity, List.length_replicate,
      SentCache.initCapacity, sentCacheSize, sentCacheMaxSize, recoveryWindowObjects]
    omega
  · rw [Owed, hempty]
    exact nofun

/-- No reserve exceeds the limit it is taken from. -/
theorem reserves_le {limits : ConfiguredLimits} (hresolved : limits.Resolved) :
    streamControlByteReserve ≤ limits.maxStreamEgressBytes ∧
      streamControlFrameReserve ≤
        min (limits.maxStreamEgressBytes / streamMinFrameAccountingBytes)
          streamEndpointMaxVectors ∧
      streamEndpointControlByteReserve ≤ limits.maxTotalStreamEgressBytes ∧
      streamEndpointControlVectorReserve ≤ streamEndpointMaxVectors ∧
      ∀ (s : EgressStream) (preserves : Bool), 0 < s.frameLimit limits preserves := by
  have hstream := hresolved.stream_ge
  have htotal := hresolved.total_ge
  have hframes : streamControlFrameReserve <
      min (limits.maxStreamEgressBytes / streamMinFrameAccountingBytes)
        streamEndpointMaxVectors := by
    simp only [streamControlByteReserve, streamControlFrameReserve, streamMinFrameAccountingBytes,
      streamEndpointMaxVectors] at hstream ⊢
    omega
  refine ⟨by omega, hframes.le, by omega, by decide, fun s preserves => ?_⟩
  unfold EgressStream.frameLimit
  split
  · omega
  · omega

/-- An empty stream of an idle endpoint takes a reliable object of any size allowed. -/
theorem canAccept_idle {limits : ConfiguredLimits} (hresolved : limits.Resolved) {e : Egress}
    {s : EgressStream} (hbytes : e.egressBytes = 0) (hvectors : e.vectorCapacity = 0)
    (hopen : s.isOpen = true) (hframes : s.frames = []) (hcapacity : s.capacity = 0)
    (hretained : s.retainedFrameBytes = 0)
    (hlen : frameLen ≤ wireFrameHeaderSize + trackObjectHeaderSize + limits.maxReliableObjectSize)
    (preserves : Bool) : e.canAccept limits s frameLen preserves = true := by
  have hstream := hresolved.stream_ge
  have htotal := hresolved.total_ge
  have hreliable := hresolved.reliable_le
  have hcost : s.frameCost frameLen = 8 + frameLen + 96 := by
    simp [EgressStream.frameCost, EgressStream.vectorGrowth, retainedFrameSize, sendbufVecSize,
      hframes, hcapacity]
  have hgrowth : s.vectorGrowth = 4 := by
    simp [EgressStream.vectorGrowth, hframes, hcapacity]
  have hheld : s.streamBytes = 0 := by
    simp [EgressStream.streamBytes, hcapacity, hretained]
  rw [Egress.canAccept_iff, hcost, hgrowth, hheld, hbytes, hvectors, hframes]
  simp only [wireFrameHeaderSize, trackObjectHeaderSize, streamControlByteReserve,
    Qlinq.maxReliableObjectSize] at hlen hstream hreliable
  refine ⟨hopen, ?_, (reserves_le hresolved).2.2.2.2 s preserves, ?_, ?_, ?_⟩
  · simp only [wireMaxStreamPayload, wireFrameHeaderSize, Qlinq.maxReliableObjectSize]
    omega
  · simp only [EgressStream.byteLimit, streamControlByteReserve]
    split <;> omega
  · simp only [Egress.byteLimit]
    split <;> omega
  · cases preserves <;> decide

def narrowConfiguration : ConfiguredLimits :=
  { defaultConfiguration with maxFecObjectSize := 3, maxRecoveryCacheBytes := 96 }

def narrowResolved : ConfiguredLimits := narrowConfiguration.withDefaults

theorem resolve_narrow : narrowConfiguration.resolve = .ok narrowResolved := by
  decide +kernel

def narrowServer : Transport :=
  init true narrowResolved.toTransportLimits narrowResolved.maxRecoveryCacheBytes

def logTrack : TrackId where
  type := .data
  flags := flagFecRateless
  name := [108]

def byteRecord : MoqObject where
  trackId := logTrack
  groupId := 0
  objectId := 0
  data := [1]

/-- A subscriber acknowledges a window. -/
def ackedRun : List Op :=
  join 0 narrowResolved.toTransportLimits 8 logTrack ++
    List.replicate 32 (.publish quietPublish byteRecord) ++
    [.receive quietRepair 0 (.trackCheckpointAck ⟨8, 0, 31⟩)]

/-- A peer that knows no recovery checkpoints. -/
def legacyHello (limits : TransportLimits) : Hello :=
  { helloFor limits with capabilities := capReliable ||| capDatagram }

/-- Beside such a peer a subscriber acknowledges a window; then the peer unsubscribes. -/
def leavingRun : List Op :=
  join 0 narrowResolved.toTransportLimits 8 logTrack ++
    [.connect, .hello 1 (legacyHello narrowResolved.toTransportLimits), .respondAuth 1 true,
      .receive quietRepair 1 (.subscribe 8 logTrack)] ++
    List.replicate 32 (.publish quietPublish byteRecord) ++
    [.receive quietRepair 0 (.trackCheckpointAck ⟨8, 0, 31⟩),
      .receive quietRepair 1 (.unsubscribe 8 logTrack)]

def leftServer : Transport := narrowServer.run leavingRun

/-- A record is blocked when the group that it completes meets a full cache. -/
theorem blocked_of_full {env : PublishEnv} (htakes : t.TakesRecord object)
    (hgroups : t.groupsRecords object.trackId = true)
    (hstaged : (t.stageRecord env object).2 = none)
    (hcomplete : (t.stageRecord env object).1.groupComplete
      (groupLimit (t.publicationFecLimit object.trackId)) = true)
    (hbuffer : (t.stageRecord env object).1.fecBuf ≠ [])
    (hacked : (t.stageRecord env object).1.EarlierAcked track)
    (hfound : (t.stageRecord env object).1.findFecTrackState
      (t.stageRecord env object).1.fecTrackId = some state)
    (hrateless : (t.stageRecord env object).1.fecTrackId.isRatelessData = true)
    (hfull : (t.stageRecord env object).1.sentCache.canStore
      ((t.stageRecord env object).1.groupObject state)
      (!checkpointCacheIsProtected (t.stageRecord env object).1.fecTrackId
        (t.stageRecord env object).1.conns false) (fun _ => false) = false) :
    ¬ t.Unblocked track (.publish env object) := by
  intro hunblocked
  have hadmitted := (hunblocked.1 htakes hgroups).2 hstaged hcomplete
  have hslot : (t.stageRecord env object).1.createFecTrackState
      (t.stageRecord env object).1.fecTrackId = some ((t.stageRecord env object).1, state) := by
    rw [createFecTrackState, hfound]
  have hroom := hadmitted hbuffer hacked _ _ hslot hrateless
  exact Bool.false_ne_true (hfull.symm.trans hroom)

end Transport

end Qlinq
