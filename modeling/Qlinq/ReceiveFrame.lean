import Qlinq.Receiver
import Qlinq.RecoveryLedger

namespace Qlinq

/-! What a connection writes while it handles recovery frames, ACKs and NACKs. -/

/-- The frames a receiver writes of itself: ACKs and NACKs. -/
def ControlFrame.replies : ControlFrame → Bool
  | .trackCheckpointAck _ => true
  | .nack _ => true
  | _ => false

theorem ControlFrame.subscribes_of_replies {frame : ControlFrame}
    (hreplies : frame.replies = true) : frame.subscribes = false := by
  cases frame with
  | subscribe a track => cases hreplies
  | unsubscribe a track => cases hreplies
  | _ => rfl

namespace ObjectGapState

/-- The states remember the same deliveries. -/
structure SameHistory (left right : ObjectGapState) : Prop where
  largest : right.largestDelivered = left.largestDelivered
  mask : right.deliveredMask = left.deliveredMask

theorem SameHistory.refl (state : ObjectGapState) : SameHistory state state := ⟨rfl, rfl⟩

theorem SameHistory.trans (hfirst : SameHistory first second)
    (hsecond : SameHistory second third) : SameHistory first third :=
  ⟨hsecond.largest.trans hfirst.largest, hsecond.mask.trans hfirst.mask⟩

theorem SameHistory.represents (hsame : SameHistory left right)
    (hrepresents : left.Represents marked) : right.Represents marked where
  initialized := by simpa only [hsame.largest] using hrepresents.initialized
  largest_marked := by simpa only [hsame.largest] using hrepresents.largest_marked
  test_iff := by simpa only [hsame.largest, hsame.mask] using hrepresents.test_iff
  blank := by simpa only [hsame.largest, hsame.mask] using hrepresents.blank

theorem sameHistory_queueMissingObjects (state : ObjectGapState)
    (groupId firstMissing missingCount : Nat) :
    SameHistory state (state.queueMissingObjects groupId firstMissing missingCount) := by
  simp only [queueMissingObjects]
  split
  · exact SameHistory.refl state
  split <;> split <;> exact ⟨rfl, rfl⟩

theorem sameHistory_observe (state : ObjectGapState) (groupId objectId : Nat) :
    SameHistory state (state.observe groupId objectId) := by
  unfold observe
  split
  · exact ⟨rfl, rfl⟩
  split
  · split
    · have hqueued := sameHistory_queueMissingObjects state groupId
      exact ⟨(hqueued _ _).largest, (hqueued _ _).mask⟩
    · exact ⟨rfl, rfl⟩
  · split <;> exact ⟨rfl, rfl⟩

/-- The later state waits for no object that the earlier one did not wait for. -/
structure Narrows (left right : ObjectGapState) : Prop where
  lastSeen : right.lastSeen = left.lastSeen
  pendingBase : right.pendingBase = left.pendingBase
  groupId : right.groupId = left.groupId
  pending : ∀ bit, right.pendingMask.getLsbD bit = true → left.pendingMask.getLsbD bit = true

theorem Narrows.refl (state : ObjectGapState) : Narrows state state :=
  ⟨rfl, rfl, rfl, fun _ h => h⟩

theorem Narrows.trans (hfirst : Narrows first second) (hsecond : Narrows second third) :
    Narrows first third where
  lastSeen := hsecond.lastSeen.trans hfirst.lastSeen
  pendingBase := hsecond.pendingBase.trans hfirst.pendingBase
  groupId := hsecond.groupId.trans hfirst.groupId
  pending bit h := hfirst.pending bit (hsecond.pending bit h)

theorem narrows_markObjectDelivered (state : ObjectGapState) (objectId : Nat) :
    Narrows state (state.markObjectDelivered objectId) := by
  unfold markObjectDelivered
  split
  · exact ⟨rfl, rfl, rfl, fun _ h => h⟩
  split
  · exact ⟨rfl, rfl, rfl, fun _ h => h⟩
  split
  · exact ⟨rfl, rfl, rfl, fun _ h => h⟩
  · exact .refl state

/-- What recovery does to a state: no delivery is added and no gap. -/
structure Settles (left right : ObjectGapState) : Prop where
  history : SameHistory left right
  narrows : Narrows left right

theorem settles_retirePending (state : ObjectGapState) (groupId finalObjectId : Nat) :
    Settles state (state.retirePending groupId finalObjectId) := by
  unfold retirePending
  split
  · refine ⟨⟨rfl, rfl⟩, rfl, rfl, rfl, fun bit hbit => ?_⟩
    rw [BitVec.getLsbD_and, Bool.and_eq_true] at hbit
    exact hbit.1
  · exact ⟨.refl state, .refl state⟩

theorem settles_dropWindowsThrough (state : ObjectGapState) (groupId finalObjectId : Nat) :
    Settles state (state.dropWindowsThrough groupId finalObjectId) :=
  ⟨⟨rfl, rfl⟩, rfl, rfl, rfl, fun _ h => h⟩

theorem settles_clearMissing (state : ObjectGapState) (groupId objectId : Nat) :
    Settles state (state.clearMissing groupId objectId) :=
  ⟨⟨rfl, rfl⟩, rfl, rfl, rfl, fun _ h => h⟩

/-- The states keep the same windows. -/
structure SameWindows (left right : ObjectGapState) : Prop where
  windows : right.recoveryWindows = left.recoveryWindows
  lastCheckpoint : right.lastCheckpointObjectId = left.lastCheckpointObjectId

theorem sameWindows_markObjectDelivered (state : ObjectGapState) (objectId : Nat) :
    SameWindows state (state.markObjectDelivered objectId) := by
  unfold markObjectDelivered
  split
  · exact ⟨rfl, rfl⟩
  split
  · exact ⟨rfl, rfl⟩
  split <;> exact ⟨rfl, rfl⟩

theorem sameWindows_queueMissingObjects (state : ObjectGapState)
    (groupId firstMissing missingCount : Nat) :
    SameWindows state (state.queueMissingObjects groupId firstMissing missingCount) := by
  simp only [queueMissingObjects]
  split
  · exact ⟨rfl, rfl⟩
  split <;> split <;> exact ⟨rfl, rfl⟩

theorem sameWindows_observe (state : ObjectGapState) (groupId objectId : Nat) :
    SameWindows state (state.observe groupId objectId) := by
  unfold observe
  split
  · exact ⟨rfl, rfl⟩
  split
  · split
    · have hqueued := sameWindows_queueMissingObjects state groupId
      exact ⟨(hqueued _ _).windows, (hqueued _ _).lastCheckpoint⟩
    · exact ⟨rfl, rfl⟩
  · split <;> exact ⟨rfl, rfl⟩

theorem sameWindows_retirePending (state : ObjectGapState) (groupId finalObjectId : Nat) :
    SameWindows state (state.retirePending groupId finalObjectId) := by
  unfold retirePending
  split <;> exact ⟨rfl, rfl⟩

/-- Recovery settles the state and tracks no window that it did not track before. -/
structure Completes (left right : ObjectGapState) : Prop where
  settles : Settles left right
  windows : ∀ window ∈ right.recoveryWindows, ∃ held ∈ left.recoveryWindows, window.Spans held
  lastCheckpoint : right.lastCheckpointObjectId = left.lastCheckpointObjectId

theorem completes_retirePending (state : ObjectGapState) (groupId finalObjectId : Nat) :
    Completes state (state.retirePending groupId finalObjectId) := by
  have hsame := sameWindows_retirePending state groupId finalObjectId
  refine ⟨settles_retirePending state groupId finalObjectId, fun window hmem => ?_,
    hsame.lastCheckpoint⟩
  rw [hsame.windows] at hmem
  exact ⟨window, hmem, rfl, rfl, rfl⟩

theorem completes_dropWindowsThrough (state : ObjectGapState) (groupId finalObjectId : Nat) :
    Completes state (state.dropWindowsThrough groupId finalObjectId) :=
  ⟨settles_dropWindowsThrough state groupId finalObjectId,
    fun window hmem => ⟨window, (List.mem_filter.mp hmem).1, rfl, rfl, rfl⟩, rfl⟩

theorem completes_clearMissing (state : ObjectGapState) (groupId objectId : Nat) :
    Completes state (state.clearMissing groupId objectId) := by
  refine ⟨settles_clearMissing state groupId objectId, fun window hmem => ?_, rfl⟩
  obtain ⟨held, hheld, rfl⟩ := List.mem_map.mp hmem
  exact ⟨held, hheld, held.spans_cleared groupId objectId⟩

/-- The object a run of complete windows ends with is the last of one of them. -/
theorem completedThrough_mem {windows : List RecoveryWindow} (groupId fuel : Nat)
    (hfinal : ∃ held ∈ windows, held.groupId = groupId ∧ held.finalObjectId = finalObjectId) :
    ∃ held ∈ windows, held.groupId = groupId ∧
      held.finalObjectId = completedThrough windows groupId fuel finalObjectId := by
  induction fuel generalizing finalObjectId with
  | zero => exact hfinal
  | succ fuel ih =>
      unfold completedThrough
      split
      · exact hfinal
      next next hnext =>
      split
      · next hruns =>
          rw [Bool.and_eq_true, beq_iff_eq] at hruns
          exact ih ⟨next, (List.mem_filter.mp (earliest_spec hnext).1).1, hruns.2, rfl⟩
      · exact hfinal

end ObjectGapState

namespace Conn

/-- A relation that closing, NACKs, ACKs of tracked windows, dropped assemblers and gap
states of completed windows stay within. -/
structure AnswerFrame (R : Conn → Conn → Prop) : Prop where
  refl : ∀ c, R c c
  trans : ∀ {c c' c''}, R c c' → R c' c'' → R c c''
  closed : ∀ c close, R c { c with closed := some close }
  drained : ∀ c admissions, R c { c with admissions := admissions }
  requested : ∀ c a (request : Nack) admissions, R c { c with
    control := c.control ++ [c.receiveFrame a (.nack request)], admissions := admissions }
  answered : ∀ c a window admissions, window ∈ (c.objectGap a).recoveryWindows → R c { c with
    control := c.control ++ [c.receiveFrame a (.trackCheckpointAck
      { trackAlias := a
        groupId := window.groupId
        finalObjectId := window.finalObjectId })]
    admissions := admissions }
  assemblers : ∀ c keep, R c { c with assemblers := c.assemblers.map (Option.filter keep) }
  completed : ∀ c a gap, (c.objectGap a).Completes gap → R c (c.setObjectGap a gap)

namespace AnswerFrame

variable {R : Conn → Conn → Prop}

theorem quiclyClose (hR : AnswerFrame R) (c : Conn) (code : AppError) (reason : String) :
    R c (c.quiclyClose code reason) := by
  unfold Conn.quiclyClose
  split
  · exact hR.refl c
  · exact hR.closed c _

theorem protocolClose (hR : AnswerFrame R) (c : Conn) (reason : String) :
    R c (c.protocolClose reason) :=
  hR.quiclyClose c _ reason

theorem writeControlFrame (hR : AnswerFrame R) (c : Conn) (frame : Sent ControlFrame)
    (hwritten : ∀ admissions,
      R c { c with control := c.control ++ [frame], admissions := admissions }) :
    R c (c.writeControlFrame frame).1 := by
  unfold Conn.writeControlFrame
  split
  · exact hR.refl c
  split
  · exact hwritten _
  · exact hR.trans (hR.drained c _) (hR.quiclyClose _ _ _)

/-- The ACK of a tracked window. -/
theorem sendCheckpointAck (hR : AnswerFrame R) (c : Conn) (a : TrackAlias)
    (hmem : window ∈ (c.objectGap a).recoveryWindows) :
    R c (c.sendCheckpointAck a window.groupId window.finalObjectId).1 := by
  unfold Conn.sendCheckpointAck
  split
  · exact hR.refl c
  · exact hR.writeControlFrame c _ fun admissions => hR.answered c a window admissions hmem

theorem retireRecoveryThrough (hR : AnswerFrame R) (c : Conn) (a : TrackAlias)
    (groupId finalObjectId : Nat) :
    R c (c.retireRecoveryThrough a groupId finalObjectId) := by
  have hretired := hR.completed c a _
    (ObjectGapState.completes_retirePending (c.objectGap a) groupId finalObjectId)
  exact hR.trans hretired (hR.assemblers _ _)

theorem acknowledgeRounds (hR : AnswerFrame R) (a : TrackAlias) (fuel : Nat) (c : Conn) :
    R c (Conn.acknowledgeRounds a fuel c).1 := by
  induction fuel generalizing c with
  | zero => exact hR.refl c
  | succ fuel ih =>
      unfold Conn.acknowledgeRounds
      simp only
      split
      · exact hR.refl c
      next first hfirst =>
      split
      · exact hR.refl c
      split
      · exact hR.refl c
      obtain ⟨last, hlast, hgroup, hfinal⟩ := ObjectGapState.completedThrough_mem first.groupId
        (c.objectGap a).recoveryWindows.length
        ⟨first, (ObjectGapState.earliest_spec hfirst).1, rfl, rfl⟩
      have hack := hR.sendCheckpointAck c a hlast
      rw [hgroup, hfinal] at hack
      split
      · next hfailed =>
          rw [hfailed] at hack
          exact hack
      · next hsent =>
          rw [hsent] at hack
          exact hR.trans (hR.trans (hR.trans hack (hR.retireRecoveryThrough _ _ _ _))
            (hR.completed _ _ _ (ObjectGapState.completes_dropWindowsThrough _ _ _))) (ih _)

theorem acknowledge (hR : AnswerFrame R) (c : Conn) (a : TrackAlias) :
    R c (c.acknowledgeCompletedRecoveryWindows a).1 :=
  hR.acknowledgeRounds a _ c

theorem acknowledgeAll (hR : AnswerFrame R) (entries : List Subscription) (c : Conn) :
    R c (entries.foldl (fun c entry =>
      if entry.trackId.isRatelessData then
        (c.acknowledgeCompletedRecoveryWindows entry.trackAlias).1
      else
        c) c) := by
  induction entries generalizing c with
  | nil => exact hR.refl c
  | cons entry rest ih =>
      simp only [List.foldl_cons]
      split
      · exact hR.trans (hR.acknowledge c entry.trackAlias) (ih _)
      · exact ih c

theorem flushRecoveryAcks (hR : AnswerFrame R) (c : Conn) : R c c.flushRecoveryAcks := by
  unfold Conn.flushRecoveryAcks
  split
  · exact hR.refl c
  · exact hR.acknowledgeAll c.receiveSubscriptions.entries c

theorem sendNack (hR : AnswerFrame R) (c : Conn) (request : Nack) (withheld : Bool) :
    R c (c.sendNack request withheld) := by
  unfold Conn.sendNack
  split
  · exact hR.refl c
  · exact hR.writeControlFrame c _ fun admissions => hR.requested c _ request admissions

theorem recoveryMarkDelivered (hR : AnswerFrame R) (c : Conn) (a : TrackAlias)
    (groupId objectId : Nat) : R c (c.recoveryMarkDelivered a groupId objectId) :=
  hR.trans
    (hR.completed c a _ (ObjectGapState.completes_clearMissing _ groupId objectId))
    (hR.acknowledge _ a)

end AnswerFrame

/-- A relation that closing, ACKs and NACKs, dropped assemblers, recorded windows and
gap states that recovery settles stay within. -/
structure ReceiveFrame (R : Conn → Conn → Prop) : Prop where
  refl : ∀ c, R c c
  trans : ∀ {c c' c''}, R c c' → R c' c'' → R c c''
  closed : ∀ c close, R c { c with closed := some close }
  drained : ∀ c admissions, R c { c with admissions := admissions }
  written : ∀ c (frame : Sent ControlFrame) admissions, frame.message.replies = true →
    R c { c with control := c.control ++ [frame], admissions := admissions }
  acceptedWindows : ∀ c windows, R c { c with acceptedWindows := windows }
  assemblers : ∀ c keep, R c { c with assemblers := c.assemblers.map (Option.filter keep) }
  objectGap : ∀ c a gap, (c.objectGap a).Settles gap → R c (c.setObjectGap a gap)

namespace ReceiveFrame

variable {R : Conn → Conn → Prop}

theorem answers (hR : ReceiveFrame R) : AnswerFrame R where
  refl := hR.refl
  trans := hR.trans
  closed := hR.closed
  drained := hR.drained
  requested c _ _ admissions := hR.written c _ admissions rfl
  answered c _ _ admissions _ := hR.written c _ admissions rfl
  assemblers := hR.assemblers
  completed c a gap hcompletes := hR.objectGap c a gap hcompletes.settles

theorem quiclyClose (hR : ReceiveFrame R) (c : Conn) (code : AppError) (reason : String) :
    R c (c.quiclyClose code reason) :=
  hR.answers.quiclyClose c code reason

theorem protocolClose (hR : ReceiveFrame R) (c : Conn) (reason : String) :
    R c (c.protocolClose reason) :=
  hR.quiclyClose c _ reason

theorem writeControlFrame (hR : ReceiveFrame R) (c : Conn) (frame : Sent ControlFrame)
    (hwritten : ∀ admissions,
      R c { c with control := c.control ++ [frame], admissions := admissions }) :
    R c (c.writeControlFrame frame).1 :=
  hR.answers.writeControlFrame c frame hwritten

theorem sendCheckpointAck (hR : ReceiveFrame R) (c : Conn) (a : TrackAlias)
    (groupId finalObjectId : Nat) : R c (c.sendCheckpointAck a groupId finalObjectId).1 := by
  unfold Conn.sendCheckpointAck
  split
  · exact hR.refl c
  · exact hR.writeControlFrame c _ fun _ => hR.written c _ _ rfl

theorem openWindow (hR : ReceiveFrame R) (c : Conn) (a : TrackAlias)
    (window : RecoveryWindow) (acknowledge : Bool) :
    R c (c.openWindow a window acknowledge).1 := by
  have hopened : ∀ windows, R { c with acceptedWindows :=
      c.acceptedWindows ++ [c.receiveFrame a (a, window)] } _ := fun windows =>
    hR.objectGap _ a { c.objectGap a with
      lastCheckpointObjectId := some window.finalObjectId
      recoveryWindows := windows } ⟨⟨rfl, rfl⟩, rfl, rfl, rfl, fun _ h => h⟩
  unfold Conn.openWindow
  simp only
  split
  · exact hR.trans (hR.trans (hR.acceptedWindows c _) (hopened _)) (hR.answers.acknowledge _ _)
  split
  · exact hR.trans (hR.acceptedWindows c _) (hopened _)
  · exact hR.trans (hR.acceptedWindows c _) (hopened _)

theorem receiveRecoveryCheckpoint (hR : ReceiveFrame R) (c : Conn) (a : TrackAlias)
    (groupId firstObjectId finalObjectId : Nat) (acknowledge : Bool) :
    R c (c.receiveRecoveryCheckpoint a groupId firstObjectId finalObjectId acknowledge).1 := by
  unfold Conn.receiveRecoveryCheckpoint
  split
  · exact hR.refl c
  simp only
  split
  · exact hR.refl c
  split
  · split
    · exact hR.sendCheckpointAck c a _ _
    · exact hR.refl c
  split
  · exact hR.refl c
  split
  · exact hR.refl c
  · exact hR.openWindow c a _ acknowledge

theorem receiveBaseline (hR : ReceiveFrame R) (c : Conn) (checkpoint : TrackCheckpoint) :
    R c (c.receiveBaseline checkpoint) := by
  have hack := hR.sendCheckpointAck c checkpoint.trackAlias checkpoint.groupId
    checkpoint.finalObjectId
  unfold Conn.receiveBaseline
  simp only
  split
  · exact hR.protocolClose c _
  split
  · next hfailed =>
      rw [hfailed] at hack
      exact hR.trans hack (hR.protocolClose _ _)
  · next hsent =>
      rw [hsent] at hack
      exact hR.trans hack (hR.objectGap _ _ _
        ⟨⟨rfl, rfl⟩, rfl, rfl, rfl, fun _ h => h⟩)

theorem receiveTrackCheckpoint (hR : ReceiveFrame R) (c : Conn)
    (checkpoint : TrackCheckpoint) : R c (c.receiveTrackCheckpoint checkpoint) := by
  have hwindow := hR.receiveRecoveryCheckpoint c checkpoint.trackAlias
    checkpoint.groupId checkpoint.firstObjectId checkpoint.finalObjectId true
  unfold Conn.receiveTrackCheckpoint
  split
  · exact hR.protocolClose c _
  split
  · exact hR.receiveBaseline c checkpoint
  split
  · next haccepted =>
      rw [haccepted] at hwindow
      exact hwindow
  · next hrefused =>
      rw [hrefused] at hwindow
      exact hR.trans hwindow (hR.protocolClose _ _)

theorem receiveTrackEnd (hR : ReceiveFrame R) (c : Conn) (finish : TrackEnd) :
    R c (c.receiveTrackEnd finish) := by
  have hack := hR.sendCheckpointAck c finish.trackAlias finish.groupId finish.finalObjectId
  have hwindow := hR.receiveRecoveryCheckpoint c finish.trackAlias finish.groupId
    (trackEndFirst (c.objectGap finish.trackAlias).lastCheckpointObjectId
      c.checkpointCapable finish.finalObjectId) finish.finalObjectId c.checkpointCapable
  unfold Conn.receiveTrackEnd
  split
  · exact hR.protocolClose c _
  simp only
  split
  · split
    · exact hR.refl c
    split
    · next hfailed =>
        rw [hfailed] at hack
        exact hR.trans hack (hR.protocolClose _ _)
    · next hsent =>
        rw [hsent] at hack
        exact hR.trans hack (hR.answers.retireRecoveryThrough _ _ _ _)
  · split
    · next haccepted =>
        rw [haccepted] at hwindow
        exact hwindow
    · next hrefused =>
        rw [hrefused] at hwindow
        exact hR.trans hwindow (hR.protocolClose _ _)

theorem receiveRecoveryFrame (hR : ReceiveFrame R) {c : Conn} (frame : Conn → Conn)
    (hframe : R c (frame c)) : R c (c.receiveRecoveryFrame frame) := by
  unfold Conn.receiveRecoveryFrame
  split
  · exact hR.refl c
  split
  · exact hR.protocolClose c _
  · exact hframe

end ReceiveFrame

end Conn

end Qlinq
