import Qlinq.Owing

namespace Qlinq

/-! Control frames and departures: what each leaves of the obligations to the subscribers of
a track. -/

namespace SubscriptionTable

variable {table table' : SubscriptionTable} {track other : TrackId} {a b : TrackAlias}

/-- Binding a track leaves the subscription of another one. -/
theorem add_elsewhere (hadd : table.add other a = some table') (hother : other.key ≠ track.key)
    (halias : table.findAlias track = some b) :
    b ≠ a ∧ table'.findByAlias b = table.findByAlias b ∧ table'.getState b = table.getState b := by
  obtain ⟨bound, hbound, hkey⟩ := findAlias_eq_some_iff_bound.mp halias
  rcases add_cases hadd with ⟨hhere, rfl⟩ | ⟨hfree, _, _, _, hothers⟩
  · refine ⟨?_, rfl, rfl⟩
    rintro rfl
    rw [hbound] at hhere
    obtain rfl := Option.some.inj hhere
    exact hother hkey
  · have hb : b ≠ a := by
      rintro rfl
      rw [hbound] at hfree
      cases hfree
    rcases hothers b hb with hkept | ⟨⟨old, hold, hmoved⟩, _⟩
    · exact ⟨hb, hkept.1, hkept.2⟩
    · rw [hbound] at hold
      obtain rfl := Option.some.inj hold
      exact absurd (hmoved.symm.trans hkey) hother

/-- The alias of another track is the old one. -/
theorem findAlias_add (hadd : table.add other a = some table') (hother : other.key ≠ track.key) :
    table'.findAlias track = table.findAlias track := by
  apply Option.ext
  intro b
  constructor
  · intro halias
    obtain ⟨bound, hbound, hkey⟩ := findAlias_eq_some_iff_bound.mp halias
    rcases add_cases hadd with ⟨_, rfl⟩ | ⟨_, hnew, _, _, hothers⟩
    · exact halias
    cases decEq b a with
    | isTrue hb =>
        subst hb
        rw [hnew] at hbound
        obtain rfl := Option.some.inj hbound
        exact absurd hkey hother
    | isFalse hb =>
        rcases hothers b hb with hkept | ⟨_, hgone⟩
        · rw [hkept.1] at hbound
          exact findAlias_eq_some_iff_bound.mpr ⟨bound, hbound, hkey⟩
        · rw [hgone] at hbound
          cases hbound
  · intro halias
    obtain ⟨_, hkept, _⟩ := add_elsewhere hadd hother halias
    obtain ⟨bound, hbound, hkey⟩ := findAlias_eq_some_iff_bound.mp halias
    exact findAlias_eq_some_iff_bound.mpr ⟨bound, hkept.trans hbound, hkey⟩

theorem remove_elsewhere (hother : other.key ≠ track.key)
    (halias : table.findAlias track = some b) :
    (table.remove other).findByAlias b = table.findByAlias b ∧
      (table.remove other).getState b = table.getState b := by
  unfold remove
  split
  · exact ⟨rfl, rfl⟩
  next entry hfind =>
  obtain ⟨hentry, hentryKey⟩ := bound_of_find hfind
  obtain ⟨bound, hbound, hkey⟩ := findAlias_eq_some_iff_bound.mp halias
  have hb : b ≠ entry.trackAlias := by
    rintro rfl
    rw [hbound] at hentry
    obtain rfl := Option.some.inj hentry
    exact hother (hentryKey.symm.trans hkey)
  rw [findByAlias_removeAlias, getState_removeAlias, if_neg hb, if_neg hb]
  exact ⟨rfl, rfl⟩

theorem findAlias_remove (hother : other.key ≠ track.key) :
    (table.remove other).findAlias track = table.findAlias track := by
  apply Option.ext
  intro b
  constructor
  · intro halias
    obtain ⟨bound, hbound, hkey⟩ := findAlias_eq_some_iff_bound.mp halias
    unfold remove at hbound
    split at hbound
    · exact findAlias_eq_some_iff_bound.mpr ⟨bound, hbound, hkey⟩
    · rw [findByAlias_removeAlias] at hbound
      split at hbound
      · cases hbound
      · exact findAlias_eq_some_iff_bound.mpr ⟨bound, hbound, hkey⟩
  · intro halias
    obtain ⟨bound, hbound, hkey⟩ := findAlias_eq_some_iff_bound.mp halias
    exact findAlias_eq_some_iff_bound.mpr
      ⟨bound, (remove_elsewhere hother halias).1.trans hbound, hkey⟩

/-- A removed track is gone under whatever flags it was named. -/
theorem findAlias_removed (hkey : other.key = track.key) :
    (table.remove other).findAlias track = none := by
  rw [Option.eq_none_iff_forall_not_mem]
  intro b halias
  obtain ⟨bound, hbound, hboundKey⟩ := findAlias_eq_some_iff_bound.mp halias
  unfold remove at hbound
  split at hbound
  · next hnone =>
      have hsome := findAlias_eq_some_iff_bound.mpr ⟨bound, hbound, hboundKey.trans hkey.symm⟩
      rw [findAlias, hnone] at hsome
      cases hsome
  · next entry hfind =>
      obtain ⟨hentry, hentryKey⟩ := bound_of_find hfind
      rw [findByAlias_removeAlias] at hbound
      split at hbound
      · cases hbound
      · next hb =>
          exact hb (bound_unique hbound hentry ((hboundKey.trans hkey.symm).trans hentryKey.symm))

end SubscriptionTable

namespace Conn

variable {track other : TrackId} {a : TrackAlias} {c : Conn}

theorem sameStance_add (hadd : c.sendSubscriptions.add other a = some table)
    (hother : other.key ≠ track.key) :
    SameStance track c { c with sendSubscriptions := table } where
  id_eq := rfl
  findAlias := SubscriptionTable.findAlias_add hadd hother
  bound _ halias := (SubscriptionTable.add_elsewhere hadd hother halias).2.1
  ack b halias := by
    simp only [checkpointAck, (SubscriptionTable.add_elsewhere hadd hother halias).2.2]
  greeted h := ⟨h, rfl⟩

theorem sameStance_remove (c : Conn) (hother : other.key ≠ track.key) :
    SameStance track c { c with sendSubscriptions := c.sendSubscriptions.remove other } where
  id_eq := rfl
  findAlias := SubscriptionTable.findAlias_remove hother
  bound _ halias := (SubscriptionTable.remove_elsewhere hother halias).1
  ack b halias := by
    simp only [checkpointAck, (SubscriptionTable.remove_elsewhere hother halias).2]
  greeted h := ⟨h, rfl⟩

theorem sameStance_emit (track : TrackId) (c : Conn) (event : Event) :
    SameStance track c (c.emit event) :=
  .of_table rfl rfl rfl rfl

end Conn

namespace Transport

open Conn
open SentCache (Thins)

variable {track : TrackId} {t : Transport}

/-! ### Control frames -/

/-- What a control frame of connection `connId` does, as far as the track's subscribers and
the cache are concerned. -/
inductive Heard (track : TrackId) (t : Transport) (connId : Nat) :
    ControlFrame → Transport → Prop
  | ignored : Heard track t connId frame t
  | passed (hlookup : Keyed.lookup Conn.id connId t.conns = some c)
      (hsame : SameStance track c c') : Heard track t connId frame (t.setConn c')
  | subscribed (hlookup : Keyed.lookup Conn.id connId t.conns = some c)
      (hhello : c.helloReceived = true)
      (hadd : c.sendSubscriptions.add other a = some table) :
      Heard track t connId (.subscribe a other) (t.setConn ((t.checkpointMemberAdded
        { c with sendSubscriptions := table } other a).emit (.subscribe other)))
  | unsubscribed (hlookup : Keyed.lookup Conn.id connId t.conns = some c) :
      Heard track t connId (.unsubscribe a other) (t.receiveUnsubscribe c a other)
  | acked {ack : TrackCheckpointAck} (hlookup : Keyed.lookup Conn.id connId t.conns = some c)
      (hbound : c.sendSubscriptions.findByAlias ack.trackAlias = some other)
      (hacked : t.checkpointAcked c ack other = some t') :
      Heard track t connId (.trackCheckpointAck ack) t'
  | repaired (hlookup : Keyed.lookup Conn.id connId t.conns = some c)
      (hsame : SameStance track c c') (hthins : Thins t.sentCache cache) :
      Heard track t connId frame { t.setConn c' with sentCache := cache }

theorem heard_receiveNack (hlookup : Keyed.lookup Conn.id connId t.conns = some c)
    (env : RepairEnv) (nack : Nack) :
    Heard track t connId frame (t.receiveNack env c nack) := by
  unfold receiveNack
  split
  · exact .ignored
  split
  · exact .ignored
  split
  · exact .passed hlookup (sameStance_quiclyClose track c _ _)
  split
  · exact .ignored
  next cached hfind =>
  split
  · exact .ignored
  split
  · exact .ignored
  next batch commit hanswer =>
  extract_lets queued packets kept
  have hkept : cached.Same kept := by
    simp only [kept]
    cases hcommit : commit queued with
    | none => exact .refl cached
    | some entry => exact (cutFrom_repairAnswer hanswer).2 _ entry hcommit
  have hrepaired : Heard track t connId frame
      { t.setConn { c with datagrams := c.datagrams ++ packets } with
        sentCache := t.sentCache.update cached kept } :=
    .repaired hlookup (.of_table rfl rfl rfl rfl) (SentCache.thins_update _ hkept)
  exact hrepaired

theorem heard_receiveControlFrame (track : TrackId) (t : Transport) (env : RepairEnv)
    (connId : Nat) (frame : ControlFrame) :
    Heard track t connId frame (t.receiveControlFrame env connId frame) := by
  unfold receiveControlFrame
  split
  · exact .ignored
  next c hlookup =>
  have hclosed : ∀ code reason,
      Heard track t connId frame (t.setConn (c.quiclyClose code reason)) := fun code reason =>
    .passed hlookup (sameStance_quiclyClose track c code reason)
  have hemitted : ∀ event, Heard track t connId frame (t.setConn (c.emit event)) :=
    fun event => .passed hlookup (sameStance_emit track c event)
  split
  · exact .ignored
  split
  · exact hclosed _ _
  next hhello =>
  have hhello : c.helloReceived = true := by simpa using hhello
  extract_lets unauthorized invalidTrack
  cases frame with
  | subscribe a other =>
      simp only
      split
      · exact hclosed _ _
      split
      · exact hclosed _ _
      unfold receiveSubscribe
      split
      · exact hclosed _ _
      split
      · exact hclosed _ _
      · next hadd => exact .subscribed hlookup hhello hadd
  | unsubscribe a other =>
      simp only
      split
      · exact hclosed _ _
      split
      · exact hclosed _ _
      · exact .unsubscribed hlookup
  | keyframeRequest a other =>
      simp only
      split
      · exact hclosed _ _
      split
      · exact hclosed _ _
      · exact hemitted _
  | unicast payload =>
      simp only
      split
      · exact hclosed _ _
      split
      · exact hclosed _ _
      · exact hemitted _
  | nack request =>
      simp only
      split
      · exact hclosed _ _
      · exact heard_receiveNack hlookup env request
  | trackCheckpoint checkpoint =>
      exact .passed hlookup ((receiveFrame_sameStance track).receiveTrackCheckpoint c checkpoint)
  | trackCheckpointAck ack =>
      simp only
      split
      · exact hclosed _ _
      unfold receiveCheckpointAck
      split
      · exact hclosed _ _
      next other hbound =>
      split
      · exact hclosed _ _
      · next hacked => exact .acked hlookup (Option.filter_eq_some_iff.mp hbound).1 hacked
  | trackEnd finish =>
      exact .passed hlookup ((receiveFrame_sameStance track).receiveTrackEnd c finish)

/-! ### The invariant -/

/-- Id of the group the track publishes next. -/
def groupCount (t : Transport) (track : TrackId) : Nat :=
  ((t.findFecTrackState track).map FecTrackState.nextObjectId).getD 0

/-- Bytes of the longest group: one record of the longest kind makes a group of its own. -/
def largestGroup (t : Transport) : Nat := min t.limits.maxFecObjectSize (maxFecRecordSize + 2)

/-- A publisher of one track, none of whose cached objects is unawaited, with a cache that
holds a window of them. -/
structure Owing (track : TrackId) (t : Transport) : Prop where
  unique : Keyed.UniqueKeys Conn.id t.conns
  below : ∀ c ∈ t.conns, c.id < t.nextConnId
  member : ∀ c ∈ t.conns, c.Participates track (t.groupCount track)
  single : ∀ other ≠ track, t.findFecTrackState other = none
  used : ∀ state, t.findFecTrackState track = some state → state.hasObjects = true →
    0 < state.nextObjectId
  behind : ∀ mark, t.checkpointOf track = some mark →
    mark.groupId = 0 ∧ mark.objectId < t.groupCount track
  wellFormed : t.sentCache.WellFormed
  cached : ∀ entry ∈ t.sentCache.occupied, entry.trackId = track ∧ entry.groupId = 0
  sized : ∀ entry ∈ t.sentCache.occupied, entry.size ≤ t.largestGroup
  capacity : recoveryWindowObjects ≤ t.sentCache.capacity
  budget : recoveryWindowObjects * t.largestGroup ≤ t.sentCache.maxPayloadBytes
  owed : t.Owed track

namespace Owing

variable {t' : Transport}

/-- A step that publishes nothing and only thins the cache. -/
theorem quiet (howing : Owing track t) (htracks : t'.fecTracks = t.fecTracks)
    (hlimits : t'.limits = t.limits) (hthins : Thins t.sentCache t'.sentCache)
    (hunique : Keyed.UniqueKeys Conn.id t'.conns) (hbelow : ∀ c ∈ t'.conns, c.id < t'.nextConnId)
    (hmember : ∀ c ∈ t'.conns, c.Participates track (t.groupCount track))
    (howed : t'.Owed track) : Owing track t' := by
  have hfind : ∀ other, t'.findFecTrackState other = t.findFecTrackState other := by
    intro other
    rw [findFecTrackState, htracks, findFecTrackState]
  have hnext : t'.groupCount track = t.groupCount track := by
    simp only [groupCount, hfind]
  have hlargest : t'.largestGroup = t.largestGroup := by
    rw [largestGroup, hlimits, largestGroup]
  refine ⟨hunique, hbelow, ?_, fun other hother => ?_, fun state hfound => ?_, fun mark hmark => ?_,
    hthins.wellFormed howing.wellFormed, fun entry' hentry' => ?_, fun entry' hentry' => ?_, ?_, ?_,
    howed⟩
  · rw [hnext]
    exact hmember
  · rw [hfind]
    exact howing.single other hother
  · rw [hfind] at hfound
    exact howing.used state hfound
  · rw [hnext]
    rw [checkpointOf_congr htracks] at hmark
    exact howing.behind mark hmark
  · obtain ⟨entry, hentry, hentrySame⟩ := hthins.mem entry' hentry'
    rw [hentrySame.trackId, hentrySame.groupId]
    exact howing.cached entry hentry
  · obtain ⟨entry, hentry, hentrySame⟩ := hthins.mem entry' hentry'
    rw [SentObject.size, hentrySame.data, hlargest]
    exact howing.sized entry hentry
  · rw [hthins.capacity]
    exact howing.capacity
  · rw [hthins.limit, hlargest]
    exact howing.budget

/-- One connection changes. -/
theorem replaces (howing : Owing track t) (hsame : SameGrouping t t')
    (hthins : Thins t.sentCache t'.sentCache)
    (hlookup : Keyed.lookup Conn.id connId t.conns = some c) (hreplaces : Replaces connId c' t t')
    (hmember : c'.Participates track (t.groupCount track)) (howed : t'.Owed track) :
    Owing track t' := by
  obtain ⟨hc, hcid⟩ := Keyed.mem_of_lookup hlookup
  refine howing.quiet hsame.fecTracks hsame.limits hthins ?_ (fun d hd => ?_) (fun d hd => ?_) howed
  · rw [Keyed.UniqueKeys, hreplaces.keys]
    exact howing.unique
  · rw [hreplaces.nextConnId]
    rcases (hreplaces.mem_iff d).mp hd with hold | rfl
    · exact howing.below d hold.1
    · rw [hreplaces.id_eq, ← hcid]
      exact howing.below c hc
  · rcases (hreplaces.mem_iff d).mp hd with hold | rfl
    · exact howing.member d hold.1
    · exact hmember

/-- One connection changes without its subscription of the track. -/
theorem stands (howing : Owing track t) (hsame : SameGrouping t t')
    (hthins : Thins t.sentCache t'.sentCache)
    (hlookup : Keyed.lookup Conn.id connId t.conns = some c) (hreplaces : Replaces connId c' t t')
    (hstance : SameStance track c c') : Owing track t' := by
  have hheeds := hstance.heeds (le_refl (t.groupCount track))
  have hhere := howing.member c (Keyed.mem_of_lookup hlookup).1
  refine howing.replaces hsame hthins hlookup hreplaces (hheeds.member hhere) ?_
  exact howing.owed.replaces howing.unique hlookup hreplaces hthins fun entry _ hawaits =>
    Or.inl (hheeds.awaits hhere entry.objectId hawaits)

end Owing

/-- What connection `connId` awaits of the objects in `lost`, another connection awaits, too. -/
def Shared (track : TrackId) (connId : Nat) (lost : Nat → Prop) (t : Transport) : Prop :=
  ∀ c ∈ t.conns, c.id = connId → ∀ entry ∈ t.sentCache.occupied, lost entry.objectId →
    c.Awaits track entry.objectId →
      ∃ d ∈ t.conns, d.id ≠ connId ∧ d.Awaits track entry.objectId

instance (track : TrackId) (connId : Nat) (lost : Nat → Prop) [DecidablePred lost]
    (t : Transport) : Decidable (t.Shared track connId lost) := by
  unfold Shared
  infer_instance

theorem Owed.beside (howed : t.Owed track) (hshared : t.Shared track connId fun _ => True) :
    t.OwedBeside track connId := by
  intro entry hentry
  obtain ⟨c, hc, hawaits⟩ := howed entry hentry
  cases decEq c.id connId with
  | isTrue hhere => exact hshared c hc hhere entry hentry trivial hawaits
  | isFalse hother => exact ⟨c, hc, hother, hawaits⟩

/-! ### SUBSCRIBE -/

/-- A peer that subscribes again starts from the last checkpoint. -/
def ResumesShared (track : TrackId) (t : Transport) (connId : Nat) (other : TrackId) : Prop :=
  other.key = track.key → t.Shared track connId fun objectId =>
    other = track → ∃ mark ∈ t.checkpointOf track, objectId ≤ mark.objectId

instance (track : TrackId) (t : Transport) (connId : Nat) (other : TrackId) :
    Decidable (t.ResumesShared track connId other) := by
  unfold ResumesShared
  infer_instance

theorem owing_subscribed (howing : Owing track t) (hrateless : track.isRatelessData = true)
    (hlookup : Keyed.lookup Conn.id connId t.conns = some c) (hhello : c.helloReceived = true)
    (hadd : c.sendSubscriptions.add other a = some table)
    (hshared : t.ResumesShared track connId other) :
    Owing track (t.setConn ((t.checkpointMemberAdded { c with sendSubscriptions := table } other a
      ).emit (.subscribe other))) := by
  obtain ⟨hc, hcid⟩ := Keyed.mem_of_lookup hlookup
  have hhere := howing.member c hc
  generalize hbinding : ({ c with sendSubscriptions := table } : Conn) = bound
  obtain ⟨ack, hrestates, hack⟩ := restates_checkpointMemberAdded t bound other a
  have hbound : table.findByAlias a = some other := by
    rcases SubscriptionTable.add_cases hadd with ⟨hold, rfl⟩ | ⟨_, hnew, _⟩
    · exact hold
    · exact hnew
  have hjoined : Restates a ack bound ((t.checkpointMemberAdded bound other a).emit
      (.subscribe other)) := hrestates.keep rfl rfl rfl rfl
  have hid : ((t.checkpointMemberAdded bound other a).emit (.subscribe other)).id = c.id := by
    rw [hjoined.id_eq, ← hbinding]
  have hreplaces := replaces_setConn hlookup hid
  cases decEq other.key track.key with
  | isFalse hother =>
      refine howing.stands (grouping_setConn t _) (.refl _) hlookup hreplaces ?_
      have hstance : SameStance track c bound := by
        rw [← hbinding]
        exact sameStance_add hadd hother
      refine hstance.trans (.of_restates hjoined fun halias => ?_)
      rw [hstance.findAlias] at halias
      exact absurd rfl (SubscriptionTable.add_elsewhere hadd hother halias).1
  | isTrue hkey =>
      have halias : bound.sendSubscriptions.findAlias track = some a := by
        rw [← hbinding]
        exact SubscriptionTable.findAlias_eq_some_iff_bound.mpr ⟨other, hbound, hkey⟩
      have hstate := getState_isSome_of_findAlias halias
      have hjoins : other = track → bound.checkpointCapable = true → Joins t track ack := by
        rintro rfl hcapable
        rcases hack with ⟨_, hplain⟩ | hjoins
        · exact (hplain hcapable hrateless hstate).elim
        · exact hjoins
      have hmember : ((t.checkpointMemberAdded bound other a).emit (.subscribe other)).Participates
          track (t.groupCount track) := by
        refine participates_of_restates hjoined (by rw [← hbinding]; exact hhello) halias
          (fun hexact hcapable => ?_) fun mark hmark => ?_
        · rw [← hbinding] at hexact
          exact (hjoins (Option.some.inj (hbound.symm.trans hexact)) hcapable).participating
        · rcases hack with ⟨rfl, _⟩ | hjoins
          · rw [← hbinding] at hmark
            simp only [checkpointAck] at hmark
            rcases SubscriptionTable.add_cases hadd with ⟨_, rfl⟩ | ⟨_, _, _, hfresh, _⟩
            · rw [← hbinding] at halias
              exact hhere.reached a halias mark hmark
            · rw [hfresh] at hmark
              simp at hmark
          · rw [hjoins.sent, or_self] at hmark
            have hmark := hjoins.acked mark hmark
            cases decEq other track with
            | isTrue hexact => exact howing.behind mark (hexact ▸ hmark)
            | isFalse hother =>
                rw [checkpointOf, howing.single other hother] at hmark
                cases hmark
      refine howing.replaces (grouping_setConn t _) (.refl _) hlookup hreplaces hmember ?_
      refine howing.owed.replaces howing.unique hlookup hreplaces (.refl _) ?_
      intro entry hentry hawaits
      have halias := (hjoined.findAlias track).trans halias
      cases hcapable : bound.checkpointCapable with
      | false =>
          refine Or.inl ⟨a, halias, fun h => ?_⟩
          rw [hjoined.checkpointCapable, hcapable] at h
          cases h
      | true =>
          by_cases hlost : other = track → ∃ mark ∈ t.checkpointOf track,
              entry.objectId ≤ mark.objectId
          · exact Or.inr (hshared hkey c hc hcid entry hentry hlost hawaits)
          · rw [Classical.not_imp] at hlost
            obtain ⟨hexact, hbehind⟩ := hlost
            have hjoins := hjoins hexact hcapable
            refine Or.inl ⟨a, halias, fun _ => ?_⟩
            rw [hjoined.here]
            refine ⟨hjoins.participating, fun mark hmark => Nat.lt_of_not_le fun hle => ?_⟩
            exact hbehind ⟨mark, hjoins.acked mark hmark, hle⟩

/-! ### Releases -/

/-- What releasing relies on while connection `connId` goes. -/
structure Reckons (track : TrackId) (connId : Nat) (t : Transport) : Prop where
  others : ∀ d ∈ t.conns, d.id ≠ connId → AcksFirstGroup track d
  cached : ∀ entry ∈ t.sentCache.occupied, entry.trackId = track ∧ entry.groupId = 0

theorem Owing.reckons (howing : Owing track t) (connId : Nat) : t.Reckons track connId :=
  ⟨fun d hd _ => acksFirstGroup_of_participates (howing.member d hd), howing.cached⟩

theorem Reckons.replaces {t' : Transport} (hreckons : t.Reckons track connId)
    (hreplaces : Replaces connId c' t t') (hthins : Thins t.sentCache t'.sentCache) :
    t'.Reckons track connId where
  others d hd hother := by
    rcases (hreplaces.mem_iff d).mp hd with hold | rfl
    · exact hreckons.others d hold.1 hother
    · exact absurd hreplaces.id_eq hother
  cached entry' hentry' := by
    obtain ⟨entry, hentry, hsame⟩ := hthins.mem entry' hentry'
    rw [hsame.trackId, hsame.groupId]
    exact hreckons.cached entry hentry

/-- Once a subscriber that knows checkpoints has its state cleared, only others are waited
for. -/
theorem owedBeside_cleared {c : Conn} {a : TrackAlias} (hreckons : t.Reckons track connId)
    (hlookup : Keyed.lookup Conn.id connId t.conns = some c)
    (hcapable : c.checkpointCapable = true)
    (halias : c.sendSubscriptions.findAlias track = some a) :
    ((t.setConn (c.setCheckpointAck a {})).releaseAckedCheckpoints track).OwedBeside track
      connId := by
  have hset : Replaces connId (c.setCheckpointAck a {}) t (t.setConn (c.setCheckpointAck a {})) :=
    replaces_setConn hlookup rfl
  have hrestates := restates_setCheckpointAck (getState_isSome_of_findAlias halias) {}
  have honly : ∀ b, (c.setCheckpointAck a {}).sendSubscriptions.findAlias track = some b →
      b = a := by
    intro b hb
    rw [hrestates.findAlias, halias] at hb
    exact (Option.some.inj hb).symm
  have hconns : ∀ d ∈ (t.setConn (c.setCheckpointAck a {})).conns, AcksFirstGroup track d := by
    intro d hd
    rcases (hset.mem_iff d).mp hd with hold | rfl
    · exact hreckons.others d hold.1 hold.2
    · intro b hb mark hmark
      obtain rfl := honly b hb
      rw [hrestates.here] at hmark
      cases hmark
  intro entry hentry
  obtain ⟨d, hd, hkind, hawaits⟩ :=
    owed_releaseAckedCheckpoints hconns hreckons.cached entry hentry
  rw [conns_releaseAckedCheckpoints]
  refine ⟨d, hd, fun hid => ?_, hawaits⟩
  rcases (hset.mem_iff d).mp hd with hold | rfl
  · exact hold.2 hid
  rcases hkind with hlegacy | ⟨acked, hcounts⟩
  · rw [hrestates.checkpointCapable.symm.trans hlegacy.plain] at hcapable
    cases hcapable
  · obtain ⟨b, hb, hmember, _⟩ := hcounts.subscribed
    obtain rfl := honly b hb
    rw [hrestates.here] at hmember
    cases hmember

/-! ### UNSUBSCRIBE -/

/-- The subscriber knows checkpoints and names the track and its alias, or others wait for what
it waited for.  An UNSUBSCRIBE of another track does not name the alias of this one. -/
def LeavesShared (track : TrackId) (t : Transport) (connId : Nat) (a : TrackAlias)
    (other : TrackId) : Prop :=
  if other.key = track.key then
    (other = track ∧ ∀ c ∈ t.conns, c.id = connId →
      c.checkpointCapable = true ∧ c.sendSubscriptions.findAlias track = some a) ∨
        t.Shared track connId fun _ => True
  else
    ∀ c ∈ t.conns, c.id = connId → c.sendSubscriptions.findAlias track ≠ some a

instance (track : TrackId) (t : Transport) (connId : Nat) (a : TrackAlias) (other : TrackId) :
    Decidable (t.LeavesShared track connId a other) := by
  unfold LeavesShared
  infer_instance

theorem setConn_self (hunique : Keyed.UniqueKeys Conn.id t.conns)
    (hlookup : Keyed.lookup Conn.id connId t.conns = some c) : (t.setConn c).conns = t.conns := by
  obtain ⟨hc, _⟩ := Keyed.mem_of_lookup hlookup
  have hsame : ∀ d ∈ t.conns, (if d.id = c.id then c else d) = d := by
    intro d hd
    split
    · next hid => exact (Keyed.eq_of_key_eq hunique hd hc hid).symm
    · rfl
  exact (List.map_congr_left hsame).trans (List.map_id t.conns)

/-- The member is cleared, unless the alias names nothing. -/
theorem replaces_checkpointMemberRemoved {c : Conn}
    (hunique : Keyed.UniqueKeys Conn.id t.conns)
    (hlookup : Keyed.lookup Conn.id connId t.conns = some c) (other : TrackId) (a : TrackAlias) :
    ∃ c', Replaces connId c' t (t.checkpointMemberRemoved c other a) ∧
      (c' = c ∧ c.sendSubscriptions.getState a = none ∧
          t.checkpointMemberRemoved c other a = t ∨
        c' = c.setCheckpointAck a {} ∧ (c.sendSubscriptions.getState a).isSome = true ∧
          t.checkpointMemberRemoved c other a =
            (t.setConn (c.setCheckpointAck a {})).releaseAckedCheckpoints other) ∧
      Thins t.sentCache (t.checkpointMemberRemoved c other a).sentCache := by
  unfold checkpointMemberRemoved
  split
  · next hnone =>
      have hself : Replaces connId c t t :=
        (replaces_setConn hlookup rfl).of_conns (setConn_self hunique hlookup).symm rfl
      exact ⟨c, hself, Or.inl ⟨rfl, by simpa using hnone, rfl⟩, .refl _⟩
  · next hstate =>
    have hset : Replaces connId (c.setCheckpointAck a {}) t (t.setConn (c.setCheckpointAck a {})) :=
      replaces_setConn hlookup rfl
    obtain ⟨hconns, hnext⟩ := conns_nextConnId_release (t.setConn (c.setCheckpointAck a {})) other
    exact ⟨_, hset.of_conns hconns hnext, Or.inr ⟨rfl, by simpa [Option.isSome_iff_ne_none] using hstate, rfl⟩,
      thins_releaseAckedCheckpoints (t.setConn (c.setCheckpointAck a {})) other⟩

/-- The connection is found where it was. -/
theorem Replaces.lookup {t' : Transport} (hunique : Keyed.UniqueKeys Conn.id t.conns)
    (hreplaces : Replaces connId c' t t') :
    Keyed.lookup Conn.id connId t'.conns = some c' := by
  have hunique' : Keyed.UniqueKeys Conn.id t'.conns := by
    rw [Keyed.UniqueKeys, hreplaces.keys]
    exact hunique
  exact (Keyed.lookup_eq_some_iff hunique').mpr
    ⟨(hreplaces.mem_iff c').mpr (Or.inr rfl), hreplaces.id_eq⟩

theorem owing_unsubscribed (howing : Owing track t)
    (hlookup : Keyed.lookup Conn.id connId t.conns = some c)
    (hshared : t.LeavesShared track connId a other) :
    Owing track (t.receiveUnsubscribe c a other) := by
  obtain ⟨hc, rfl⟩ := Keyed.mem_of_lookup hlookup
  have hhere := howing.member c hc
  have hgrouping := grouping_receiveUnsubscribe t c a other
  obtain ⟨c', hremoved, hcleared, hthins⟩ :=
    replaces_checkpointMemberRemoved howing.unique hlookup other a
  have hunique' : Keyed.UniqueKeys Conn.id (t.checkpointMemberRemoved c other a).conns := by
    rw [Keyed.UniqueKeys, hremoved.keys]
    exact howing.unique
  have hid : ∀ d : Conn, ({ d with sendSubscriptions := d.sendSubscriptions.remove other }.emit
      (.unsubscribe other)).id = d.id := fun _ => rfl
  have hupdated := replaces_updateConn hunique' (hremoved.lookup howing.unique) hid
  have hreplaces := hremoved.trans hupdated
  have hstanding : other.key ≠ track.key → SameStance track c'
      ({ c' with sendSubscriptions := c'.sendSubscriptions.remove other }.emit
        (.unsubscribe other)) := fun hother =>
    (sameStance_remove c' hother).trans (sameStance_emit track _ _)
  unfold LeavesShared at hshared
  split at hshared
  · next hkey =>
      have hgone : ({ c' with sendSubscriptions := c'.sendSubscriptions.remove other }.emit
          (.unsubscribe other)).Participates track (t.groupCount track) :=
        participates_of_none (SubscriptionTable.findAlias_removed hkey) _
      refine howing.replaces hgrouping hthins hlookup hreplaces hgone ?_
      suffices hbeside : (t.receiveUnsubscribe c a other).OwedBeside track c.id from hbeside.owed
      rcases hshared with ⟨rfl, hleaves⟩ | hshared
      · obtain ⟨hcapable, halias⟩ := hleaves c hc rfl
        have hstate := getState_isSome_of_findAlias halias
        rcases hcleared with ⟨_, hnone, _⟩ | ⟨rfl, _, hreleased⟩
        · rw [hnone] at hstate
          cases hstate
        · have hbeside := owedBeside_cleared (howing.reckons _) hlookup hcapable halias
          rw [← hreleased] at hbeside
          exact hbeside.replaces hupdated (.refl _)
      · exact (howing.owed.beside hshared).replaces hreplaces hthins
  · next hother =>
      refine howing.stands hgrouping hthins hlookup hreplaces ?_
      refine SameStance.trans ?_ (hstanding hother)
      rcases hcleared with ⟨rfl, _⟩ | ⟨rfl, hstate, _⟩
      · exact .refl track _
      · exact .of_restates (restates_setCheckpointAck hstate {})
          fun halias => absurd halias (hshared c hc rfl)

/-! ### ACKs -/

/-- A subscriber's ACK releases what it covers, unless its subscription has other flags. -/
def AcksShared (track : TrackId) (t : Transport) (connId : Nat) (ack : TrackCheckpointAck) :
    Prop :=
  ∀ c ∈ t.conns, c.id = connId →
    ∀ other ∈ c.sendSubscriptions.findByAlias ack.trackAlias, other.key = track.key →
      other = track ∨ t.Shared track connId fun objectId => objectId ≤ ack.finalObjectId

instance (track : TrackId) (t : Transport) (connId : Nat) (ack : TrackCheckpointAck) :
    Decidable (t.AcksShared track connId ack) := by
  unfold AcksShared
  infer_instance

/-- An accepted ACK moves a participant's mark to an announced object. -/
theorem checkpointAcked_cases {c : Conn} {ack : TrackCheckpointAck} {t' : Transport}
    (hacked : t.checkpointAcked c ack other = some t') :
    c.checkpointCapable = true ∧ (c.checkpointAck ack.trackAlias).participating = true ∧
      ∃ state c', Restates ack.trackAlias state c c' ∧
        t' = (t.setConn c').releaseAckedCheckpoints other ∧ state.participating = true ∧
        state.sent = (c.checkpointAck ack.trackAlias).sent ∧
        ∀ mark ∈ state.acked, mark ∈ (c.checkpointAck ack.trackAlias).acked ∨
          ∃ sent ∈ state.sent, mark.groupId = sent.groupId ∧
            mark.objectId = ack.finalObjectId ∧ ack.finalObjectId ≤ sent.objectId := by
  unfold checkpointAcked at hacked
  split at hacked
  · cases hacked
  next hcapable =>
  extract_lets old advanced state cleared logged at hacked
  split at hacked
  · cases hacked
  next sent hsent =>
  split at hacked
  · cases hacked
  next hvalid =>
  simp only [Bool.or_eq_true, Bool.not_eq_true', bne_iff_ne, ne_eq, decide_eq_true_eq, not_or,
    Bool.not_eq_false, not_not, Nat.not_lt] at hvalid
  obtain ⟨⟨hmember, hgroup⟩, hreached⟩ := hvalid
  have hstate : (c.sendSubscriptions.getState ack.trackAlias).isSome = true := by
    cases hnone : c.sendSubscriptions.getState ack.trackAlias with
    | none =>
        simp only [old, checkpointAck, hnone] at hmember
        cases hmember
    | some _ => rfl
  have hcleared := restates_setCheckpointAck hstate state
  refine ⟨by simpa using hcapable, hmember, state, logged, hcleared.keep rfl rfl rfl rfl,
    (Option.some.inj hacked).symm, ?_, ?_, fun mark hmark => ?_⟩
  · simp only [state]
    split
    · exact hmember
    · exact hmember
  · simp only [state]
    split <;> rfl
  · simp only [state] at hmark ⊢
    split at hmark
    · next hadvanced =>
        obtain rfl := Option.some.inj hmark
        refine Or.inr ⟨sent, ?_, hgroup, rfl, hreached⟩
        rw [if_pos hadvanced]
        exact hsent
    · exact Or.inl hmark

theorem owing_acked {t' : Transport} {ack : TrackCheckpointAck} (howing : Owing track t)
    (hlookup : Keyed.lookup Conn.id connId t.conns = some c)
    (hbound : c.sendSubscriptions.findByAlias ack.trackAlias = some other)
    (hacked : t.checkpointAcked c ack other = some t') (hshared : t.AcksShared track connId ack) :
    Owing track t' := by
  obtain ⟨hc, hcid⟩ := Keyed.mem_of_lookup hlookup
  have hhere := howing.member c hc
  have hgrouping := grouping_checkpointAcked hacked
  obtain ⟨hcapable, hmember, state, c', hrestates, rfl, hstill, hsent, hadvanced⟩ :=
    checkpointAcked_cases hacked
  obtain ⟨hconns, hnext⟩ := conns_nextConnId_release (t.setConn c') other
  have hset := replaces_setConn hlookup hrestates.id_eq
  have hreplaces := hset.of_conns hconns hnext
  have hthins := thins_releaseAckedCheckpoints (t.setConn c') other
  cases decEq other.key track.key with
  | isFalse hother =>
      refine howing.stands hgrouping hthins hlookup hreplaces (.of_restates hrestates ?_)
      intro halias
      obtain ⟨bound, hsame, hkey⟩ := SubscriptionTable.findAlias_eq_some_iff_bound.mp halias
      rw [hbound] at hsame
      obtain rfl := Option.some.inj hsame
      exact absurd hkey hother
  | isTrue hkey =>
      have halias : c.sendSubscriptions.findAlias track = some ack.trackAlias :=
        SubscriptionTable.findAlias_eq_some_iff_bound.mpr ⟨other, hbound, hkey⟩
      have hmember' : c'.Participates track (t.groupCount track) := by
        refine participates_of_restates hrestates (hhere.greeted _ halias) halias
          (fun _ _ => hstill) fun mark hmark => ?_
        rcases hmark with hmark | hmark
        · rw [hsent] at hmark
          exact hhere.reached _ halias mark (Or.inl hmark)
        · rcases hadvanced mark hmark with hold | ⟨last, hlast, hgroup, hfinal, hle⟩
          · exact hhere.reached _ halias mark (Or.inr hold)
          · rw [hsent] at hlast
            obtain ⟨hzero, hbelow⟩ := hhere.reached _ halias last (Or.inl hlast)
            exact ⟨hgroup.trans hzero, by omega⟩
      refine howing.replaces hgrouping hthins hlookup hreplaces hmember' ?_
      rcases hshared c hc hcid other hbound hkey with rfl | hshared
      · intro entry hentry
        have hall : ∀ d ∈ (t.setConn c').conns, AcksFirstGroup other d := by
          intro d hd
          rcases (hset.mem_iff d).mp hd with hold | rfl
          · exact acksFirstGroup_of_participates (howing.member d hold.1)
          · exact acksFirstGroup_of_participates hmember'
        obtain ⟨d, hd, _, hawaits⟩ := owed_releaseAckedCheckpoints hall howing.cached entry hentry
        rw [conns_releaseAckedCheckpoints]
        exact ⟨d, hd, hawaits⟩
      · refine howing.owed.replaces howing.unique hlookup hreplaces hthins ?_
        intro entry hentry hawaits
        cases Nat.lt_or_ge ack.finalObjectId entry.objectId with
        | inr hcovered => exact Or.inr (hshared c hc hcid entry hentry hcovered hawaits)
        | inl hbehind =>
            obtain ⟨b, hb, hwaits⟩ := hawaits
            obtain rfl := Option.some.inj (halias.symm.trans hb)
            refine Or.inl ⟨_, (hrestates.findAlias track).trans halias, fun _ => ?_⟩
            rw [hrestates.here]
            refine ⟨hstill, fun mark hmark => ?_⟩
            rcases hadvanced mark hmark with hold | ⟨_, _, _, hfinal, _⟩
            · exact (hwaits hcapable).2 mark hold
            · exact hfinal ▸ hbehind

/-! ### Departures -/

/-- The connection that is taken down participates, or others wait for what it waited for. -/
def DepartsShared (track : TrackId) (t : Transport) (connId : Nat) : Prop :=
  (∀ c ∈ t.conns, c.id = connId → c.checkpointCapable = true ∧
    ∃ a ∈ c.sendSubscriptions.findAlias track,
      c.sendSubscriptions.findByAlias a = some track ∧
        (c.checkpointAck a).participating = true) ∨
    t.Shared track connId fun _ => True

instance (track : TrackId) (t : Transport) (connId : Nat) :
    Decidable (t.DepartsShared track connId) := by
  unfold DepartsShared
  infer_instance

/-- Clearing the states of a connection leaves to the others what they are owed. -/
theorem owedBeside_departing (hbeside : t.OwedBeside track connId)
    (entries : List Subscription) :
    (t.checkpointConnectionRemoved connId entries).OwedBeside track connId := by
  induction entries generalizing t with
  | nil => exact hbeside
  | cons entry rest ih =>
      unfold checkpointConnectionRemoved
      split
      · exact hbeside
      next c hlookup =>
      split
      · exact ih hbeside
      · have hset : Replaces connId (c.setCheckpointAck entry.trackAlias {}) t
            (t.setConn (c.setCheckpointAck entry.trackAlias {})) := replaces_setConn hlookup rfl
        obtain ⟨hconns, hnext⟩ := conns_nextConnId_release
          (t.setConn (c.setCheckpointAck entry.trackAlias {})) entry.trackId
        exact ih (hbeside.replaces (hset.of_conns hconns hnext)
          (thins_releaseAckedCheckpoints (t.setConn (c.setCheckpointAck entry.trackAlias {})) _))

/-- Clearing the states changes this connection only. -/
theorem replaces_departing (hlookup : Keyed.lookup Conn.id connId t.conns = some c)
    (hunique : Keyed.UniqueKeys Conn.id t.conns) (entries : List Subscription) :
    (∃ c', Replaces connId c' t (t.checkpointConnectionRemoved connId entries)) ∧
      Thins t.sentCache (t.checkpointConnectionRemoved connId entries).sentCache := by
  have hself : Replaces connId c t t :=
    (replaces_setConn hlookup rfl).of_conns (setConn_self hunique hlookup).symm rfl
  induction entries generalizing t c with
  | nil => exact ⟨⟨c, hself⟩, .refl _⟩
  | cons entry rest ih =>
      unfold checkpointConnectionRemoved
      rw [hlookup]
      simp only
      split
      · exact ih hlookup hunique hself
      · have hset : Replaces connId (c.setCheckpointAck entry.trackAlias {}) t
            (t.setConn (c.setCheckpointAck entry.trackAlias {})) := replaces_setConn hlookup rfl
        obtain ⟨hconns, hnext⟩ := conns_nextConnId_release
          (t.setConn (c.setCheckpointAck entry.trackAlias {})) entry.trackId
        have hreplaces := hset.of_conns hconns hnext
        have hunique' := hunique
        rw [Keyed.UniqueKeys, ← hreplaces.keys] at hunique'
        have hlater := hreplaces.lookup hunique
        obtain ⟨⟨c', hdone⟩, hthins⟩ := ih hlater hunique'
          ((replaces_setConn hlater rfl).of_conns (setConn_self hunique' hlater).symm rfl)
        exact ⟨⟨c', hreplaces.trans hdone⟩,
          (thins_releaseAckedCheckpoints (t.setConn (c.setCheckpointAck entry.trackAlias {}))
            entry.trackId).trans hthins⟩

/-- On the way past the track's entry, what this connection alone awaited is released. -/
theorem owedBeside_departed {entries : List Subscription} (hreckons : t.Reckons track connId)
    (hunique : Keyed.UniqueKeys Conn.id t.conns)
    (hlookup : Keyed.lookup Conn.id connId t.conns = some c)
    (hcapable : c.checkpointCapable = true)
    (halias : c.sendSubscriptions.findAlias track = some a)
    (hmember : (c.checkpointAck a).participating = true)
    (hnamed : ∃ entry ∈ entries, entry.trackAlias = a ∧ entry.trackId = track)
    (haliases : Keyed.UniqueKeys Subscription.trackAlias entries) :
    (t.checkpointConnectionRemoved connId entries).OwedBeside track connId := by
  induction entries generalizing t c with
  | nil => simp at hnamed
  | cons entry rest ih =>
      obtain ⟨named, hnamed, hnamedAlias, hnamedTrack⟩ := hnamed
      have hrest : Keyed.UniqueKeys Subscription.trackAlias rest := (List.nodup_cons.mp haliases).2
      unfold checkpointConnectionRemoved
      rw [hlookup]
      simp only
      have hset : Replaces connId (c.setCheckpointAck entry.trackAlias {}) t
          (t.setConn (c.setCheckpointAck entry.trackAlias {})) := replaces_setConn hlookup rfl
      obtain ⟨hconns, hnext⟩ := conns_nextConnId_release
        (t.setConn (c.setCheckpointAck entry.trackAlias {})) entry.trackId
      have hreplaces := hset.of_conns hconns hnext
      have hthins := thins_releaseAckedCheckpoints
        (t.setConn (c.setCheckpointAck entry.trackAlias {})) entry.trackId
      cases decEq entry.trackAlias a with
      | isTrue hhere =>
          have hentry : named = entry := Keyed.eq_of_key_eq haliases hnamed List.mem_cons_self
            (hnamedAlias.trans hhere.symm)
          subst hentry
          rw [hnamedAlias, hnamedTrack, hmember]
          exact owedBeside_departing (owedBeside_cleared hreckons hlookup hcapable halias) rest
      | isFalse hother =>
          have hlater : ∃ entry ∈ rest, entry.trackAlias = a ∧ entry.trackId = track := by
            cases List.mem_cons.mp hnamed with
            | inl hhere => exact absurd (hhere ▸ hnamedAlias) hother
            | inr hlater => exact ⟨named, hlater, hnamedAlias, hnamedTrack⟩
          split
          · exact ih hreckons hunique hlookup hcapable halias hmember hlater hrest
          · have hunique' := hunique
            rw [Keyed.UniqueKeys, ← hreplaces.keys] at hunique'
            have hstill : ((c.setCheckpointAck entry.trackAlias {}).checkpointAck a).participating =
                true := by
              rw [checkpointAck_setCheckpointAck, if_neg fun h => hother h.1.symm]
              exact hmember
            exact ih (hreckons.replaces hreplaces hthins) hunique' (hreplaces.lookup hunique)
              hcapable halias hstill hlater hrest

theorem owing_disconnect (howing : Owing track t) (hshared : t.DepartsShared track connId) :
    Owing track (t.disconnect connId) := by
  have hgrouping := grouping_disconnect t connId
  unfold disconnect at hgrouping ⊢
  split
  · exact howing
  next c hlookup =>
  rw [hlookup] at hgrouping
  simp only at hgrouping ⊢
  obtain ⟨hc, hcid⟩ := Keyed.mem_of_lookup hlookup
  obtain ⟨⟨c', hreplaces⟩, hthins⟩ :=
    replaces_departing hlookup howing.unique c.sendSubscriptions.entries
  have hbeside : (t.checkpointConnectionRemoved connId c.sendSubscriptions.entries).OwedBeside
      track connId := by
    rcases hshared with hmember | hshared
    · obtain ⟨hcapable, a, halias, hbound, hparticipating⟩ := hmember c hc hcid
      obtain ⟨entry, hentry, hnamed⟩ := SubscriptionTable.findByAlias_eq_some_iff.mp hbound
      exact owedBeside_departed (howing.reckons connId) howing.unique hlookup hcapable halias
        hparticipating ⟨entry, hentry, hnamed⟩ c.sendSubscriptions.aliases_unique
    · exact owedBeside_departing (howing.owed.beside hshared) _
  have hold : ∀ d ∈ Keyed.erase Conn.id connId
      (t.checkpointConnectionRemoved connId c.sendSubscriptions.entries).conns, d ∈ t.conns := by
    intro d hd
    obtain ⟨hd, hother⟩ := Keyed.mem_erase.mp hd
    rcases (hreplaces.mem_iff d).mp hd with hold | rfl
    · exact hold.1
    · exact absurd hreplaces.id_eq hother
  refine howing.quiet hgrouping.fecTracks hgrouping.limits hthins ?_ (fun d hd => ?_) (fun d hd => howing.member d (hold d hd))
    fun entry hentry => ?_
  · apply Keyed.unique_erase
    rw [Keyed.UniqueKeys, hreplaces.keys]
    exact howing.unique
  · rw [show _ = t.nextConnId from hreplaces.nextConnId]
    exact howing.below d (hold d hd)
  · obtain ⟨d, hd, hother, hawaits⟩ := hbeside entry hentry
    exact ⟨d, Keyed.mem_erase.mpr ⟨hd, hother⟩, hawaits⟩

end Transport

end Qlinq
