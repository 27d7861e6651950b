import Qlinq.Publisher
import Qlinq.ReceiveEffects

namespace Qlinq

open Conn (Receives receives_quiclyClose receives_protocolClose receives_emit
  receives_receiveTrackCheckpoint receives_receiveTrackEnd)

/-! What steps on the control stream leave alone: the traffic of every connection,
what its handshake settled, and the objects of the cache. -/

namespace Conn

/-- The connection without the fields that control frames write. -/
def lasting (c : Conn) : Conn :=
  { c.sendSide with
    sendSubscriptions := SubscriptionTable.init 0
    fecGroupDelivered := false
    acked := [] }

theorem lasting_unwritten {c c' : Conn} (hsame : c'.lasting = c.lasting)
    (field : Conn → β) (hfield : ∀ c : Conn, field c.lasting = field c) :
    field c' = field c := by
  rw [← hfield c', hsame, hfield]

theorem datagrams_of_lasting {c c' : Conn} (hsame : c'.lasting = c.lasting) :
    c'.datagrams = c.datagrams :=
  lasting_unwritten hsame Conn.datagrams fun _ => rfl

theorem negotiatedLimits_of_lasting {c c' : Conn} (hsame : c'.lasting = c.lasting) :
    c'.negotiatedLimits = c.negotiatedLimits :=
  lasting_unwritten hsame Conn.negotiatedLimits fun _ => rfl

theorem Receives.lasting {c c' : Conn} (hreceives : Receives c c') :
    c'.lasting = c.lasting := by
  unfold Conn.lasting
  rw [hreceives.sendSide]

theorem lasting_writeControlFrame (c : Conn) (frame : Sent ControlFrame) :
    (c.writeControlFrame frame).1.lasting = c.lasting := by
  unfold writeControlFrame
  split
  · rfl
  split
  · rfl
  · exact (receives_quiclyClose _ _ _).lasting

end Conn

namespace Transport

open Conn (lasting_writeControlFrame)

theorem lasting_checkpointMemberAdded (t : Transport) (c : Conn) (track : TrackId)
    (a : TrackAlias) : (t.checkpointMemberAdded c track a).lasting = c.lasting := by
  unfold checkpointMemberAdded
  extract_lets reset joined
  have hreset : reset.lasting = c.lasting := by
    simp only [reset]
    split <;> rfl
  split
  · exact hreset
  split
  · exact hreset
  split
  · exact hreset
  next last _ =>
  have hwrite := lasting_writeControlFrame joined (joined.sendFrame track a (.trackCheckpoint
    { trackAlias := a
      baseline := true
      groupId := last.groupId
      firstObjectId := last.objectId
      finalObjectId := last.objectId }))
  split
  · next hfailed =>
      rw [hfailed] at hwrite
      exact hwrite.trans hreset
  · next hsent =>
      rw [hsent] at hwrite
      exact hwrite.trans hreset

theorem lasting_memberOf (t : Transport) (c : Conn) (track : TrackId) (a : TrackAlias) :
    (if (c.checkpointAck a).participating = true then c
      else t.checkpointMemberAdded c track a).lasting = c.lasting := by
  split
  · rfl
  · exact lasting_checkpointMemberAdded t c track a

theorem lasting_emitCheckpointTo (t : Transport) (track : TrackId)
    (groupId firstObjectId finalObjectId : Nat) (c : Conn) :
    (t.emitCheckpointTo track groupId firstObjectId finalObjectId c).lasting =
      c.lasting := by
  unfold emitCheckpointTo
  split
  · rfl
  split
  · rfl
  next a _ =>
  extract_lets member
  have hmember : member.lasting = c.lasting := lasting_memberOf t c track a
  have hwrite := lasting_writeControlFrame member (member.sendFrame track a (.trackCheckpoint
    { trackAlias := a
      baseline := false
      groupId := groupId
      firstObjectId := firstObjectId
      finalObjectId := finalObjectId }))
  split
  · next hfailed =>
      rw [hfailed] at hwrite
      exact hwrite.trans hmember
  · next hsent =>
      rw [hsent] at hwrite
      exact hwrite.trans hmember

theorem lasting_finishTrackTo (t : Transport) (track : TrackId) (finalObjectId : Nat)
    (c : Conn) : (t.finishTrackTo track finalObjectId c).1.lasting = c.lasting := by
  unfold finishTrackTo
  split
  · rfl
  split
  · rfl
  next a _ =>
  have hwrite := lasting_writeControlFrame c (c.sendFrame track a (.trackEnd
    { trackAlias := a, groupId := 0, finalObjectId := finalObjectId }))
  split
  · next hfailed =>
      rw [hfailed] at hwrite
      exact hwrite
  · next c' hsent =>
      rw [hsent] at hwrite
      split
      · exact hwrite
      · exact (lasting_memberOf t c' track a).trans hwrite

/-- No connection and no cached object is new, and the connections keep their
traffic. -/
structure Stays (t t' : Transport) : Prop where
  conns : ∀ c' ∈ t'.conns, ∃ c ∈ t.conns, c'.lasting = c.lasting
  cached : ∀ entry ∈ t'.sentCache.occupied, entry ∈ t.sentCache.occupied

namespace Stays

theorem refl (t : Transport) : Stays t t :=
  ⟨fun c hc => ⟨c, hc, rfl⟩, fun _ hentry => hentry⟩

theorem trans (hfirst : Stays t t') (hsecond : Stays t' t'') : Stays t t'' where
  conns := by
    intro c'' hc''
    obtain ⟨c', hc', hlater⟩ := hsecond.conns c'' hc''
    obtain ⟨c, hc, hsame⟩ := hfirst.conns c' hc'
    exact ⟨c, hc, hlater.trans hsame⟩
  cached entry hentry := hfirst.cached entry (hsecond.cached entry hentry)

theorem of_subset {t t' : Transport} (hconns : ∀ c ∈ t'.conns, c ∈ t.conns)
    (hcache : t'.sentCache = t.sentCache) : Stays t t' :=
  ⟨fun c hc => ⟨c, hconns c hc, rfl⟩, fun _ hentry => by rwa [hcache] at hentry⟩

end Stays

theorem stays_map {t t' : Transport} {f : Conn → Conn}
    (hconns : t'.conns = t.conns.map f) (hsame : ∀ c, (f c).lasting = c.lasting)
    (hcache : t'.sentCache = t.sentCache) : Stays t t' := by
  refine ⟨fun c' hc' => ?_, fun entry hentry => by rwa [hcache] at hentry⟩
  rw [hconns] at hc'
  obtain ⟨c, hc, rfl⟩ := List.mem_map.mp hc'
  exact ⟨c, hc, hsame c⟩

theorem stays_updateConn (t : Transport) (connId : Nat) {update : Conn → Conn}
    (hupdate : ∀ c, (update c).lasting = c.lasting) : Stays t (t.updateConn connId update) := by
  refine ⟨fun c' hc' => ?_, fun _ hentry => hentry⟩
  cases Keyed.mem_adjust.mp hc' with
  | inl hold => exact ⟨c', hold.1, rfl⟩
  | inr hnew =>
      obtain ⟨c, hc, _, rfl⟩ := hnew
      exact ⟨c, hc, hupdate c⟩

theorem stays_setConn {t : Transport} {c c' : Conn} (hc : c ∈ t.conns)
    (hsame : c'.lasting = c.lasting) : Stays t (t.setConn c') := by
  refine ⟨fun other hother => ?_, fun _ hentry => hentry⟩
  cases Keyed.mem_adjust.mp hother with
  | inl hold => exact ⟨other, hold.1, rfl⟩
  | inr hnew =>
      obtain ⟨_, _, _, rfl⟩ := hnew
      exact ⟨c, hc, hsame⟩

theorem stays_receives {t : Transport} {c c' : Conn} (hc : c ∈ t.conns)
    (hreceives : Receives c c') : Stays t (t.setConn c') :=
  stays_setConn hc hreceives.lasting

theorem stays_releaseAckedCheckpoints (t : Transport) (track : TrackId) :
    Stays t (t.releaseAckedCheckpoints track) := by
  unfold releaseAckedCheckpoints
  split
  · exact .refl t
  split
  · exact .refl t
  split
  · exact ⟨fun c hc => ⟨c, hc, rfl⟩, fun _ hentry =>
      (SentCache.mem_releaseThrough.mp hentry).1⟩
  · exact ⟨fun c hc => ⟨c, hc, rfl⟩, fun _ hentry =>
      (SentCache.mem_releaseTrack.mp hentry).1⟩
  · exact .refl t

theorem stays_checkpointMemberRemoved {t : Transport} {c : Conn} (hc : c ∈ t.conns)
    (track : TrackId) (a : TrackAlias) : Stays t (t.checkpointMemberRemoved c track a) := by
  unfold checkpointMemberRemoved
  split
  · exact .refl t
  · have hcleared : Stays t (t.setConn (c.setCheckpointAck a {})) := stays_setConn hc rfl
    exact hcleared.trans (stays_releaseAckedCheckpoints _ track)

theorem stays_checkpointConnectionRemoved (t : Transport) (connId : Nat)
    (entries : List Subscription) :
    Stays t (t.checkpointConnectionRemoved connId entries) := by
  induction entries generalizing t with
  | nil => exact .refl t
  | cons entry rest ih =>
      unfold checkpointConnectionRemoved
      split
      · exact .refl t
      next c hlookup =>
      split
      · exact ih t
      · have hcleared : Stays t (t.setConn (c.setCheckpointAck entry.trackAlias {})) :=
          stays_setConn (Keyed.mem_of_lookup hlookup).1 rfl
        exact (hcleared.trans (stays_releaseAckedCheckpoints _ entry.trackId)).trans (ih _)

theorem stays_checkpointAcked {t : Transport} {c : Conn} {ack : TrackCheckpointAck}
    (hc : c ∈ t.conns) (hacked : t.checkpointAcked c ack track = some t') : Stays t t' := by
  simp only [checkpointAcked] at hacked
  split at hacked
  · simp at hacked
  split at hacked
  · simp at hacked
  split at hacked
  · simp at hacked
  · obtain rfl := Option.some.inj hacked
    refine Stays.trans ?_ (stays_releaseAckedCheckpoints _ track)
    exact stays_setConn hc rfl

theorem stays_receiveSubscribe {t : Transport} {c : Conn} (hc : c ∈ t.conns)
    (a : TrackAlias) (track : TrackId) : Stays t (t.receiveSubscribe c a track) := by
  unfold receiveSubscribe
  split
  · exact stays_receives hc (receives_quiclyClose _ _ _)
  split
  · exact stays_receives hc (receives_quiclyClose _ _ _)
  · next table _ =>
      exact stays_setConn hc
        (lasting_checkpointMemberAdded t { c with sendSubscriptions := table } track a)

theorem stays_receiveUnsubscribe {t : Transport} {c : Conn} (hc : c ∈ t.conns)
    (a : TrackAlias) (track : TrackId) : Stays t (t.receiveUnsubscribe c a track) :=
  (stays_checkpointMemberRemoved hc track a).trans (stays_updateConn _ _ fun _ => rfl)

theorem stays_receiveCheckpointAck {t : Transport} {c : Conn} (hc : c ∈ t.conns)
    (ack : TrackCheckpointAck) : Stays t (t.receiveCheckpointAck c ack) := by
  unfold receiveCheckpointAck
  split
  · exact stays_receives hc (receives_quiclyClose _ _ _)
  split
  · exact stays_receives hc (receives_quiclyClose _ _ _)
  · next hacked => exact stays_checkpointAcked hc hacked

/-- Every control frame but a NACK that the connection answers stays. -/
theorem receiveControlFrame_cases (t : Transport) (env : RepairEnv) (connId : Nat)
    (frame : ControlFrame) :
    Stays t (t.receiveControlFrame env connId frame) ∨
      ∃ c nack, Keyed.lookup Conn.id connId t.conns = some c ∧ frame = .nack nack ∧
        c.closed = none ∧ c.helloReceived = true ∧ c.authenticated = true ∧
        t.receiveControlFrame env connId frame = t.receiveNack env c nack := by
  unfold receiveControlFrame
  split
  · exact Or.inl (.refl t)
  next c hlookup =>
  have hc := (Keyed.mem_of_lookup hlookup).1
  have hclosed : ∀ code reason, Stays t (t.setConn (c.quiclyClose code reason)) :=
    fun code reason => stays_receives hc (receives_quiclyClose c code reason)
  split
  · exact Or.inl (.refl t)
  next hopen =>
  split
  · exact Or.inl (hclosed _ _)
  next hhello =>
  extract_lets unauthorized invalidTrack
  cases frame with
  | subscribe a track =>
      left
      simp only
      split
      · exact hclosed _ _
      split
      · exact hclosed _ _
      · exact stays_receiveSubscribe hc a track
  | unsubscribe a track =>
      left
      simp only
      split
      · exact hclosed _ _
      split
      · exact hclosed _ _
      · exact stays_receiveUnsubscribe hc a track
  | keyframeRequest a track =>
      left
      simp only
      split
      · exact hclosed _ _
      split
      · exact hclosed _ _
      · exact stays_receives hc (receives_emit c _)
  | unicast payload =>
      left
      simp only
      split
      · exact hclosed _ _
      split
      · exact hclosed _ _
      · exact stays_receives hc (receives_emit c _)
  | nack request =>
      simp only
      split
      · exact Or.inl (hclosed _ _)
      · next hauthenticated =>
          exact Or.inr ⟨c, request, hlookup, rfl, by simpa using hopen, by simpa using hhello,
            by simpa using hauthenticated, rfl⟩
  | trackCheckpoint checkpoint =>
      exact Or.inl (stays_receives hc (receives_receiveTrackCheckpoint c checkpoint))
  | trackCheckpointAck ack =>
      left
      simp only
      split
      · exact hclosed _ _
      · exact stays_receiveCheckpointAck hc ack
  | trackEnd finish =>
      exact Or.inl (stays_receives hc (receives_receiveTrackEnd c finish))

theorem stays_disconnect (t : Transport) (connId : Nat) : Stays t (t.disconnect connId) := by
  unfold disconnect
  split
  · exact .refl t
  · next c _ =>
    refine (stays_checkpointConnectionRemoved t connId c.sendSubscriptions.entries).trans ?_
    exact .of_subset (fun c hc => (Keyed.mem_erase.mp hc).1) rfl

/-! ### Announcements and the grouping buffer -/

theorem stays_commitGroup (t : Transport) (state : FecTrackState) (object : MoqObject) :
    Stays t (t.commitGroup state object) := by
  simp only [commitGroup]
  split
  · exact stays_map rfl (lasting_emitCheckpointTo _ _ _ _ _) rfl
  · exact .of_subset (fun _ hc => hc) rfl

theorem stays_announceEnd (t : Transport) (track : TrackId) (state : FecTrackState) :
    Stays t (t.announceEnd track state).1 := by
  refine stays_map ?_ (lasting_finishTrackTo t track (state.nextObjectId - 1)) rfl
  simp [announceEnd, setFecTrackState]

theorem stays_beginGroup (t : Transport) (object : MoqObject) :
    Stays t (t.beginGroup object) := by
  simp only [beginGroup]
  split
  · exact stays_map rfl (fun _ => rfl) rfl
  · exact .refl t

theorem stays_appendRecord {t t' : Transport}
    (happend : t.appendRecord grows object = some t') : Stays t t' := by
  simp only [appendRecord] at happend
  split at happend
  · simp at happend
  · obtain rfl := Option.some.inj happend
    exact .of_subset (fun _ hc => hc) rfl

theorem stays_createFecTrackState {t slotted : Transport}
    (hslot : t.createFecTrackState track = some (slotted, state)) :
    Stays t slotted.attempting := by
  cases createFecTrackState_cases hslot with
  | inl hfound =>
      obtain ⟨rfl, _⟩ := hfound
      exact .of_subset (fun _ hc => hc) rfl
  | inr hfresh =>
      obtain ⟨_, _, _, rfl⟩ := hfresh
      exact .of_subset (fun _ hc => hc) rfl

end Transport

end Qlinq
