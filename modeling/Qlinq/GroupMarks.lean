import Qlinq.Following
import Qlinq.GroupIds
import Qlinq.GroupOffers

namespace Qlinq

/-! The delivery marks from operation to operation. -/

open Conn (KeepsMark)

namespace Conn

theorem controlFrames_keepsMark : ControlFrames KeepsMark where
  refl c := .refl c
  trans hfirst hsecond := hfirst.trans hsecond
  closed _ _ := ⟨rfl, (fun h => by cases h), rfl⟩
  drained _ _ := ⟨rfl, fun h => h, rfl⟩
  written _ _ _ _ := ⟨rfl, fun h => h, rfl⟩
  acceptedWindows _ _ := ⟨rfl, fun h => h, rfl⟩
  assemblers _ _ := ⟨rfl, fun h => h, rfl⟩
  objectGap _ _ _ _ := ⟨rfl, fun h => h, rfl⟩
  id_eq hkeeps := hkeeps.id_eq
  events _ _ := ⟨rfl, fun h => h, rfl⟩
  datagrams _ _ := ⟨rfl, fun h => h, rfl⟩
  acked _ _ := ⟨rfl, fun h => h, rfl⟩
  checkpointAck _ _ _ := ⟨rfl, fun h => h, rfl⟩

theorem keepsMark_writeControlFrame (c : Conn) (frame : Sent ControlFrame) :
    KeepsMark c (c.writeControlFrame frame).1 :=
  controlFrames_keepsMark.writeControlFrame c frame fun _ => ⟨rfl, fun h => h, rfl⟩

end Conn

namespace Transport

open Conn (controlFrames_keepsMark keepsMark_writeControlFrame)

/-- A SUBSCRIBE for the track of the pending group clears the mark. -/
def resetMark (t : Transport) (c : Conn) (track : TrackId) : Conn :=
  if t.fecFlushPending && track == t.fecTrackId then
    { c with fecGroupDelivered := false }
  else
    c

theorem keepsMark_checkpointMemberAdded (t : Transport) (c : Conn) (track : TrackId)
    (a : TrackAlias) :
    KeepsMark (t.resetMark c track) (t.checkpointMemberAdded c track a) := by
  unfold checkpointMemberAdded
  extract_lets reset joined
  have hjoined : KeepsMark reset joined := controlFrames_keepsMark.checkpointAck reset a _
  show KeepsMark reset _
  split
  · exact .refl reset
  split
  · exact .refl reset
  split
  · exact hjoined
  next last _ =>
  have hwrite := hjoined.trans (keepsMark_writeControlFrame joined
    (joined.sendFrame track a (.trackCheckpoint
      { trackAlias := a
        baseline := true
        groupId := last.groupId
        firstObjectId := last.objectId
        finalObjectId := last.objectId })))
  split
  · next hfailed =>
      rw [hfailed] at hwrite
      exact hwrite
  · next hsent =>
      rw [hsent] at hwrite
      exact hwrite.trans (controlFrames_keepsMark.checkpointAck _ a _)

/-- The track is not that of a pending group. -/
def Settles (t : Transport) (track : TrackId) : Prop :=
  (t.fecFlushPending && track == t.fecTrackId) = false

theorem keepsMark_memberOf {t : Transport} (hsettles : t.Settles track) (c : Conn)
    (a : TrackAlias) :
    KeepsMark c (if (c.checkpointAck a).participating = true then c
      else t.checkpointMemberAdded c track a) := by
  split
  · exact .refl c
  · have hadded := keepsMark_checkpointMemberAdded t c track a
    rw [resetMark, if_neg (by rw [hsettles]; exact Bool.false_ne_true)] at hadded
    exact hadded

theorem keepsMark_finishTrackTo {t : Transport} (hsettles : t.Settles track)
    (finalObjectId : Nat) (c : Conn) :
    KeepsMark c (t.finishTrackTo track finalObjectId c).1 := by
  unfold finishTrackTo
  split
  · exact .refl c
  split
  · exact .refl c
  next a _ =>
  have hwrite := keepsMark_writeControlFrame c (c.sendFrame track a (.trackEnd
    { trackAlias := a, groupId := 0, finalObjectId := finalObjectId }))
  split
  · next hfailed =>
      rw [hfailed] at hwrite
      exact hwrite
  · next written hsent =>
      rw [hsent] at hwrite
      split
      · exact hwrite
      · exact (hwrite.trans (keepsMark_memberOf hsettles written a)).trans
          (controlFrames_keepsMark.checkpointAck _ a _)

theorem follows_announceEnd {t : Transport} (hsettles : t.Settles track)
    (state : FecTrackState) :
    FollowsAt KeepsMark connId t (t.announceEnd track state).1 := by
  refine .of_pointwise (fun _ _ hkeeps => hkeeps.id_eq) rfl ?_
  have hconns : (t.announceEnd track state).1.conns =
      t.conns.map fun c => (t.finishTrackTo track (state.nextObjectId - 1) c).1 := by
    simp [announceEnd, setFecTrackState]
  rw [hconns]
  exact Pointwise.of_map fun c _ => keepsMark_finishTrackTo hsettles _ c

/-- Outside flushes an attempt leaves the marks. -/
theorem follows_direct (t : Transport) (env : FlushEnv) (object : MoqObject) :
    FollowsAt KeepsMark connId t (t.publishUngrouped env object false).1 := by
  refine .of_pointwise (fun _ _ hkeeps => hkeeps.id_eq)
    (nextConnId_publishUngrouped t env object false) ?_
  refine (offered_publishUngrouped t env object false).imp fun c c' hoffered => ?_
  have hmark := hoffered.marked
  rw [Bool.false_and, Bool.or_false] at hmark
  exact ⟨hoffered.id_eq, hoffered.still_open, hmark⟩

/-- A SUBSCRIBE of the connection for the track. -/
def Op.subscribesTo (connId : Nat) (track : TrackId) : Op → Bool
  | .receive _ other (.subscribe _ requested) => other == connId && requested == track
  | _ => false

/-- Operations that publish nothing leave the marks, but for a new connection and a
SUBSCRIBE for the track of the pending group. -/
theorem follows_quiet {t : Transport} {op : Op} (hquiet : op.quiet = true)
    (hconnect : op ≠ .connect)
    (hsubscribes : t.fecFlushPending = true → op.subscribesTo connId t.fecTrackId = false) :
    FollowsAt KeepsMark connId t (t.apply op) := by
  cases op with
  | publish env object => cases hquiet
  | flush env => cases hquiet
  | finish env track => cases hquiet
  | connect => exact absurd rfl hconnect
  | hello other hello =>
      have hkeeps : ∀ c : Conn, KeepsMark c (c.receiveHello t.limits hello) := by
        intro c
        unfold Conn.receiveHello
        split
        · exact .refl c
        split
        · exact .quiclyClose c _ _
        · exact ⟨rfl, fun h => h, rfl⟩
      exact follows_updateConn .refl (fun c => (hkeeps c).id_eq) fun _ c => hkeeps c
  | respondAuth other success =>
      have hkeeps : ∀ c : Conn, KeepsMark c (c.respondAuth success) := by
        intro c
        unfold Conn.respondAuth
        split
        · exact .refl c
        split
        · exact ⟨rfl, fun h => h, rfl⟩
        · exact .quiclyClose c _ _
      exact follows_updateConn .refl (fun c => (hkeeps c).id_eq) fun _ c => hkeeps c
  | receive env other frame =>
      refine follows_receiveControlFrame (controlFrames_keepsMark.framesAt _) t env frame
        (fun c table a track hsame hframe => ?_)
        fun c a track _ _ => ⟨rfl, fun h => h, rfl⟩
      subst hsame hframe
      have hadded := keepsMark_checkpointMemberAdded t { c with sendSubscriptions := table }
        track a
      have hother : (t.fecFlushPending && track == t.fecTrackId) = false := by
        cases hpending : t.fecFlushPending with
        | false => rfl
        | true => simpa [Op.subscribesTo] using hsubscribes hpending
      rw [resetMark, if_neg (by rw [hother]; exact Bool.false_ne_true)] at hadded
      exact ⟨hadded.id_eq, hadded.still_open, hadded.mark⟩
  | admissions other admissions =>
      exact follows_updateConn .refl (fun _ => rfl) fun _ c => ⟨rfl, fun h => h, rfl⟩
  | close other code reason =>
      exact follows_updateConn .refl (fun c => (KeepsMark.quiclyClose c code reason).id_eq)
        fun _ c => .quiclyClose c code reason
  | disconnect other => exact follows_disconnect (controlFrames_keepsMark.framesAt _) t

end Transport

end Qlinq
