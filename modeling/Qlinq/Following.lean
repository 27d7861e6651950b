import Qlinq.Moves
import Qlinq.ReceiveFrame

namespace Qlinq

/-! One connection of a publisher from operation to operation. -/

namespace Conn

/-- A relation that keeps the connection's id and that handling its control frames stays
within, subscriptions and checkpoint ACKs apart. -/
structure PeerFrames (R : Conn → Conn → Prop) : Prop extends ReceiveFrame R where
  id_eq : ∀ {c c'}, R c c' → c'.id = c.id
  events : ∀ c events, R c { c with events := events }
  datagrams : ∀ c datagrams, R c { c with datagrams := datagrams }

/-- A relation that keeps the connection's id and that handling its control frames stays
within, subscriptions apart. -/
structure ControlFrames (R : Conn → Conn → Prop) : Prop extends ReceiveFrame R where
  id_eq : ∀ {c c'}, R c c' → c'.id = c.id
  events : ∀ c events, R c { c with events := events }
  datagrams : ∀ c datagrams, R c { c with datagrams := datagrams }
  acked : ∀ c acked, R c { c with acked := acked }
  checkpointAck : ∀ c a ack, R c (c.setCheckpointAck a ack)

theorem ControlFrames.peer {R : Conn → Conn → Prop} (hR : ControlFrames R) : PeerFrames R :=
  { hR.toReceiveFrame with
    id_eq := hR.id_eq
    events := hR.events
    datagrams := hR.datagrams }

theorem controlFrames_id : ControlFrames fun c c' => c'.id = c.id where
  refl _ := rfl
  trans hfirst hsecond := hsecond.trans hfirst
  closed _ _ := rfl
  drained _ _ := rfl
  written _ _ _ _ := rfl
  acceptedWindows _ _ := rfl
  assemblers _ _ := rfl
  objectGap _ _ _ _ := rfl
  id_eq hsame := hsame
  events _ _ := rfl
  datagrams _ _ := rfl
  acked _ _ := rfl
  checkpointAck _ _ _ := rfl

/-- A relation that control frames stay within if they are the connection's own (`here`);
those of other connections ask for no more than that it is a preorder. -/
structure FramesAt (R : Conn → Conn → Prop) (here : Prop) : Prop where
  refl : ∀ c, R c c
  trans : ∀ {c c' c''}, R c c' → R c' c'' → R c c''
  own : here → ControlFrames R

theorem ControlFrames.framesAt {R : Conn → Conn → Prop} (hR : ControlFrames R) (here : Prop) :
    FramesAt R here :=
  ⟨hR.refl, hR.trans, fun _ => hR⟩

end Conn

namespace Transport

open Conn (ControlFrames FramesAt PeerFrames controlFrames_id)

variable {R P : Conn → Conn → Prop}

/-- Connection `connId` stems from the one it was, or is gone. -/
structure FollowsAt (R : Conn → Conn → Prop) (connId : Nat) (t t' : Transport) : Prop where
  nextConnId : t'.nextConnId = t.nextConnId
  conn : ∀ c', Keyed.lookup Conn.id connId t'.conns = some c' →
    ∃ c, Keyed.lookup Conn.id connId t.conns = some c ∧ R c c'

namespace FollowsAt

variable {t t' t'' : Transport}

theorem of_conns (hrefl : ∀ c, R c c) (hnext : t'.nextConnId = t.nextConnId)
    (hconns : t'.conns = t.conns) : FollowsAt R connId t t' :=
  ⟨hnext, fun c' hc' => ⟨c', by rwa [hconns] at hc', hrefl c'⟩⟩

theorem refl (hrefl : ∀ c, R c c) (t : Transport) : FollowsAt R connId t t :=
  of_conns hrefl rfl rfl

theorem trans (htrans : ∀ {c c' c''}, R c c' → R c' c'' → R c c'')
    (hfirst : FollowsAt R connId t t') (hsecond : FollowsAt R connId t' t'') :
    FollowsAt R connId t t'' where
  nextConnId := hsecond.nextConnId.trans hfirst.nextConnId
  conn := by
    intro c'' hc''
    obtain ⟨c', hc', hlater⟩ := hsecond.conn c'' hc''
    obtain ⟨c, hc, hfollows⟩ := hfirst.conn c' hc'
    exact ⟨c, hc, htrans hfollows hlater⟩

/-- Every connection follows in its place. -/
theorem of_pointwise (hid : ∀ c c', R c c' → c'.id = c.id)
    (hnext : t'.nextConnId = t.nextConnId) (hconns : List.Forall₂ R t.conns t'.conns) :
    FollowsAt R connId t t' := by
  refine ⟨hnext, fun c' hc' => ?_⟩
  obtain ⟨c, hc, hfollows⟩ := Keyed.exists_lookup (R := fun c' c => R c c')
    (fun c' c hfollows => (hid c c' hfollows).symm) hconns.flip hc'
  exact ⟨c, hc, hfollows⟩

end FollowsAt

theorem follows_updateConn {t : Transport} {other : Nat} {update : Conn → Conn}
    (hrefl : ∀ c, R c c) (hid : ∀ c, (update c).id = c.id)
    (hupdate : connId = other → ∀ c, R c (update c)) :
    FollowsAt R connId t (t.updateConn other update) := by
  refine ⟨rfl, fun c' hc' => ?_⟩
  simp only [updateConn] at hc'
  rw [Keyed.lookup_adjust (fun c hc => (hid c).trans hc)] at hc'
  split at hc'
  · next hsame =>
      obtain ⟨c, hc, rfl⟩ := Option.map_eq_some_iff.mp hc'
      rw [hsame]
      exact ⟨c, hc, hupdate hsame c⟩
  · exact ⟨c', hc', hrefl c'⟩

theorem follows_setConn {t : Transport} {c c' : Conn} (hrefl : ∀ c, R c c)
    (hlookup : Keyed.lookup Conn.id other t.conns = some c) (hid : c'.id = c.id)
    (hfollows : connId = other → R c c') : FollowsAt R connId t (t.setConn c') := by
  have hother := (Keyed.mem_of_lookup hlookup).2
  refine ⟨rfl, fun found hfound => ?_⟩
  simp only [setConn] at hfound
  rw [Keyed.lookup_adjust (fun _ _ => rfl)] at hfound
  split at hfound
  · next hsame =>
      rw [hid, hother] at hsame hfound
      rw [hlookup] at hfound
      obtain rfl := Option.some.inj hfound
      rw [hsame]
      exact ⟨c, hlookup, hfollows hsame⟩
  · exact ⟨found, hfound, hrefl found⟩

theorem follows_releaseAckedCheckpoints (hrefl : ∀ c, R c c) (t : Transport)
    (track : TrackId) : FollowsAt R connId t (t.releaseAckedCheckpoints track) := by
  unfold releaseAckedCheckpoints
  split
  · exact .refl hrefl t
  split
  · exact .refl hrefl t
  split
  · exact .of_conns hrefl rfl rfl
  · exact .of_conns hrefl rfl rfl
  · exact .refl hrefl t

/-- The connection's ACK state changes and what all have acknowledged is released. -/
theorem follows_setCheckpointAck (hR : FramesAt R (connId = other)) {t : Transport} {c : Conn}
    (hlookup : Keyed.lookup Conn.id other t.conns = some c) (a : TrackAlias)
    (ack : CheckpointAckState) (track : TrackId) :
    FollowsAt R connId t
      ((t.setConn (c.setCheckpointAck a ack)).releaseAckedCheckpoints track) := by
  have hset : FollowsAt R connId t (t.setConn (c.setCheckpointAck a ack)) :=
    follows_setConn hR.refl hlookup rfl fun hown => (hR.own hown).checkpointAck c a ack
  exact hset.trans hR.trans (follows_releaseAckedCheckpoints hR.refl _ track)

theorem follows_checkpointMemberRemoved (hR : FramesAt R (connId = other)) {t : Transport}
    {c : Conn} (hlookup : Keyed.lookup Conn.id other t.conns = some c) (track : TrackId)
    (a : TrackAlias) : FollowsAt R connId t (t.checkpointMemberRemoved c track a) := by
  unfold checkpointMemberRemoved
  split
  · exact .refl hR.refl t
  · exact follows_setCheckpointAck hR hlookup a {} track

theorem follows_checkpointConnectionRemoved {other : Nat} (hR : FramesAt R (connId = other))
    (t : Transport) (entries : List Subscription) :
    FollowsAt R connId t (t.checkpointConnectionRemoved other entries) := by
  induction entries generalizing t with
  | nil => exact .refl hR.refl t
  | cons entry rest ih =>
      unfold checkpointConnectionRemoved
      split
      · exact .refl hR.refl t
      next c hlookup =>
      split
      · exact ih t
      · exact (follows_setCheckpointAck hR hlookup _ _ _).trans hR.trans (ih _)

theorem follows_disconnect {other : Nat} (hR : FramesAt R (connId = other)) (t : Transport) :
    FollowsAt R connId t (t.disconnect other) := by
  unfold disconnect
  split
  · exact .refl hR.refl t
  next c _ =>
  refine (follows_checkpointConnectionRemoved hR t
    c.sendSubscriptions.entries).trans hR.trans ⟨rfl, fun found hfound => ?_⟩
  simp only at hfound
  rw [Keyed.lookup_erase] at hfound
  split at hfound
  · cases hfound
  · exact ⟨found, hfound, hR.refl found⟩

/-- Every close of the connection. -/
theorem follows_quiclyClose (hR : FramesAt R (connId = other)) {t : Transport} {c : Conn}
    (hlookup : Keyed.lookup Conn.id other t.conns = some c) (code : AppError)
    (reason : String) : FollowsAt R connId t (t.setConn (c.quiclyClose code reason)) := by
  exact follows_setConn hR.refl hlookup (controlFrames_id.quiclyClose c code reason)
    fun hown => (hR.own hown).quiclyClose c code reason

theorem follows_receiveCheckpointAck (hR : FramesAt R (connId = other)) {t : Transport} {c : Conn}
    (hlookup : Keyed.lookup Conn.id other t.conns = some c) (ack : TrackCheckpointAck) :
    FollowsAt R connId t (t.receiveCheckpointAck c ack) := by
  unfold receiveCheckpointAck
  split
  · exact follows_quiclyClose hR hlookup _ _
  split
  · exact follows_quiclyClose hR hlookup _ _
  · next track _ _ t' hacked =>
      simp only [checkpointAcked] at hacked
      split at hacked
      · cases hacked
      split at hacked
      · cases hacked
      split at hacked
      · cases hacked
      · obtain rfl := Option.some.inj hacked
        refine FollowsAt.trans hR.trans ?_ (follows_releaseAckedCheckpoints hR.refl _ track)
        exact follows_setConn hR.refl hlookup rfl fun hown =>
          hR.trans ((hR.own hown).checkpointAck c ack.trackAlias _) ((hR.own hown).acked _ _)

theorem follows_receiveNack (hrefl : ∀ c, R c c) {t : Transport} {c : Conn}
    (hlookup : Keyed.lookup Conn.id other t.conns = some c)
    (hclosed : connId = other → ∀ code reason, R c (c.quiclyClose code reason))
    (hdatagrams : connId = other → ∀ packets, R c { c with datagrams := packets })
    (env : RepairEnv) (nack : Nack) : FollowsAt R connId t (t.receiveNack env c nack) := by
  simp only [receiveNack]
  split
  · exact .refl hrefl t
  split
  · exact .refl hrefl t
  split
  · exact follows_setConn hrefl hlookup (controlFrames_id.quiclyClose c _ _)
      fun hown => hclosed hown _ _
  split
  · exact .refl hrefl t
  split
  · exact .refl hrefl t
  split
  · exact .refl hrefl t
  · have hqueued : ∀ packets, FollowsAt R connId t (t.setConn { c with datagrams := packets }) :=
      fun packets => follows_setConn hrefl hlookup rfl fun hown => hdatagrams hown packets
    exact ⟨rfl, (hqueued _).conn⟩

/-- Frames that are neither subscriptions nor checkpoint ACKs keep the connection within a
relation `P`; the others are left to the caller. -/
theorem follows_controlFrame {other : Nat} (hrefl : ∀ c, R c c) (hP : PeerFrames P)
    (hown : connId = other → ∀ c c', P c c' → R c c') (t : Transport) (env : RepairEnv)
    (frame : ControlFrame)
    (hsubscribe : ∀ c a track, Keyed.lookup Conn.id other t.conns = some c → c.closed = none →
      frame = .subscribe a track → FollowsAt R connId t (t.receiveSubscribe c a track))
    (hunsubscribe : ∀ c a track, Keyed.lookup Conn.id other t.conns = some c → c.closed = none →
      frame = .unsubscribe a track → FollowsAt R connId t (t.receiveUnsubscribe c a track))
    (hacked : ∀ c ack, Keyed.lookup Conn.id other t.conns = some c → c.closed = none →
      frame = .trackCheckpointAck ack → FollowsAt R connId t (t.receiveCheckpointAck c ack)) :
    FollowsAt R connId t (t.receiveControlFrame env other frame) := by
  unfold receiveControlFrame
  split
  · exact .refl hrefl t
  next c hlookup =>
  have hclosed : ∀ code reason, FollowsAt R connId t (t.setConn (c.quiclyClose code reason)) :=
    fun code reason => follows_setConn hrefl hlookup (controlFrames_id.quiclyClose c code reason)
      fun hsame => hown hsame _ _ (hP.quiclyClose c code reason)
  have hemitted : ∀ event, FollowsAt R connId t (t.setConn (c.emit event)) :=
    fun event => follows_setConn hrefl hlookup rfl fun hsame => hown hsame _ _ (hP.events c _)
  split
  · exact .refl hrefl t
  next hopen =>
  have hopen : c.closed = none := by simpa using hopen
  split
  · exact hclosed _ _
  extract_lets unauthorized invalidTrack
  cases frame with
  | subscribe a track =>
      simp only
      split
      · exact hclosed _ _
      split
      · exact hclosed _ _
      · exact hsubscribe c a track hlookup hopen rfl
  | unsubscribe a track =>
      simp only
      split
      · exact hclosed _ _
      split
      · exact hclosed _ _
      · exact hunsubscribe c a track hlookup hopen rfl
  | keyframeRequest a track =>
      simp only
      split
      · exact hclosed _ _
      split
      · exact hclosed _ _
      · exact hemitted _
  | unicast payload =>
      simp only
      split
      · exact hclosed _ _
      split
      · exact hclosed _ _
      · exact hemitted _
  | nack request =>
      simp only
      split
      · exact hclosed _ _
      · exact follows_receiveNack hrefl hlookup
          (fun hsame code reason => hown hsame _ _ (hP.quiclyClose c code reason))
          (fun hsame packets => hown hsame _ _ (hP.datagrams c packets)) env request
  | trackCheckpoint checkpoint =>
      exact follows_setConn hrefl hlookup
        (controlFrames_id.receiveTrackCheckpoint c checkpoint)
        fun hsame => hown hsame _ _ (hP.receiveTrackCheckpoint c checkpoint)
  | trackCheckpointAck ack =>
      simp only
      split
      · exact hclosed _ _
      · exact hacked c ack hlookup hopen rfl
  | trackEnd finish =>
      exact follows_setConn hrefl hlookup (controlFrames_id.receiveTrackEnd c finish)
        fun hsame => hown hsame _ _ (hP.receiveTrackEnd c finish)

theorem follows_receiveControlFrame {other : Nat} (hR : FramesAt R (connId = other))
    (t : Transport) (env : RepairEnv) (frame : ControlFrame)
    (hsubscribe : ∀ c table a track, connId = other → frame = .subscribe a track →
      R c ((t.checkpointMemberAdded { c with sendSubscriptions := table } track a).emit
        (.subscribe track)))
    (hunsubscribe : ∀ c a track, connId = other → frame = .unsubscribe a track →
      R c ({ c with sendSubscriptions := c.sendSubscriptions.remove track }.emit
        (.unsubscribe track))) :
    FollowsAt R connId t (t.receiveControlFrame env other frame) := by
  have hsubscribed : ∀ c a track, Keyed.lookup Conn.id other t.conns = some c → c.closed = none →
      frame = .subscribe a track → FollowsAt R connId t (t.receiveSubscribe c a track) := by
    intro c a track hlookup _ hframe
    unfold receiveSubscribe
    split
    · exact follows_quiclyClose hR hlookup _ _
    split
    · exact follows_quiclyClose hR hlookup _ _
    · next table _ =>
        exact follows_setConn hR.refl hlookup (moved_checkpointMemberAdded t
          { c with sendSubscriptions := table } track a).id_eq fun hsame =>
            hsubscribe c table a track hsame hframe
  have hunsubscribed : ∀ c a track, Keyed.lookup Conn.id other t.conns = some c →
      c.closed = none → frame = .unsubscribe a track →
        FollowsAt R connId t (t.receiveUnsubscribe c a track) := by
    intro c a track hlookup _ hframe
    have hid := (Keyed.mem_of_lookup hlookup).2
    refine (follows_checkpointMemberRemoved hR hlookup track a).trans hR.trans ?_
    exact follows_updateConn hR.refl (fun _ => rfl) fun hsame c =>
      hunsubscribe c a track (hsame.trans hid) hframe
  have hacked : ∀ c ack, Keyed.lookup Conn.id other t.conns = some c → c.closed = none →
      frame = .trackCheckpointAck ack → FollowsAt R connId t (t.receiveCheckpointAck c ack) :=
    fun c ack hlookup _ _ => follows_receiveCheckpointAck hR hlookup ack
  by_cases hsame : connId = other
  · exact follows_controlFrame hR.refl (hR.own hsame).peer (fun _ _ _ h => h) t env frame
      hsubscribed hunsubscribed hacked
  · exact follows_controlFrame hR.refl controlFrames_id.peer (fun h => absurd h hsame) t env frame
      hsubscribed hunsubscribed hacked

end Transport

end Qlinq
