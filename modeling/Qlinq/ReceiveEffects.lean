import Qlinq.Protocol

namespace Qlinq

/-! What the receiving side of a connection can do to its sending side: nothing,
but for closing it and for ACKs on the shared control stream. -/

namespace Conn

/-- The connection without the fields its receiving side writes. -/
def sendSide (c : Conn) : Conn :=
  { c with
    closed := none
    receiveSubscriptions := SubscriptionTable.init 0
    admissions := []
    assemblers := []
    assemblerIndex := 0
    completedObjects := []
    boundStreams := []
    control := []
    acceptedWindows := []
    events := [] }

structure Receives (c c' : Conn) : Prop where
  sendSide : c'.sendSide = c.sendSide
  closed : c'.closed = c.closed ∨ c.closed = none
  control : ∃ frames, c'.control = c.control ++ frames ∧
    ∀ frame ∈ frames, ∃ ack, frame.message = .trackCheckpointAck ack

namespace Receives

variable {c c' : Conn}

theorem refl (c : Conn) : Receives c c := ⟨rfl, Or.inl rfl, [], by simp⟩

theorem trans (hfirst : Receives c c') (hsecond : Receives c' c'') : Receives c c'' where
  sendSide := hsecond.sendSide.trans hfirst.sendSide
  closed := by
    rcases hfirst.closed with hsame | hopen
    · rcases hsecond.closed with hnext | hopen
      · exact Or.inl (hnext.trans hsame)
      · exact Or.inr (hsame.symm.trans hopen)
    · exact Or.inr hopen
  control := by
    obtain ⟨first, hframes, hacks⟩ := hfirst.control
    obtain ⟨second, hmore, hlater⟩ := hsecond.control
    refine ⟨first ++ second, by rw [hmore, hframes, List.append_assoc], ?_⟩
    intro frame hframe
    rcases List.mem_append.mp hframe with hmem | hmem
    · exact hacks frame hmem
    · exact hlater frame hmem

theorem unwritten (h : Receives c c') (field : Conn → β)
    (hfield : ∀ c : Conn, field c.sendSide = field c) : field c' = field c := by
  rw [← hfield c', h.sendSide, hfield]

theorem datagrams_eq (h : Receives c c') : c'.datagrams = c.datagrams :=
  h.unwritten Conn.datagrams fun _ => rfl

theorem id_eq (h : Receives c c') : c'.id = c.id :=
  h.unwritten Conn.id fun _ => rfl

end Receives

theorem receives_quiclyClose (c : Conn) (code : AppError) (reason : String) :
    Receives c (c.quiclyClose code reason) := by
  simp only [quiclyClose]
  split
  · exact Receives.refl c
  · next hopen => exact ⟨rfl, Or.inr hopen, [], by simp⟩

theorem receives_protocolClose (c : Conn) (reason : String) :
    Receives c (c.protocolClose reason) :=
  receives_quiclyClose c _ reason

theorem receives_emit (c : Conn) (event : Event) : Receives c (c.emit event) :=
  ⟨rfl, Or.inl rfl, [], by simp [emit]⟩

theorem receives_setObjectGap (c : Conn) (a : TrackAlias) (gap : ObjectGapState) :
    Receives c (c.setObjectGap a gap) :=
  ⟨rfl, Or.inl rfl, [], by simp [setObjectGap]⟩

theorem receives_sendCheckpointAck (c : Conn) (a : TrackAlias)
    (groupId finalObjectId : Nat) :
    Receives c (c.sendCheckpointAck a groupId finalObjectId).1 := by
  simp only [sendCheckpointAck]
  split
  · exact Receives.refl c
  simp only [writeControlFrame]
  split
  · exact Receives.refl c
  split
  · refine ⟨rfl, Or.inl rfl, _, rfl, fun frame hframe => ?_⟩
    obtain rfl := List.mem_singleton.mp hframe
    exact ⟨_, rfl⟩
  · have hdropped : Receives c { c with admissions := c.admissions.tail } :=
      ⟨rfl, Or.inl rfl, [], by simp⟩
    exact hdropped.trans (receives_quiclyClose _ _ _)

theorem receives_retireRecoveryThrough (c : Conn) (a : TrackAlias)
    (groupId finalObjectId : Nat) :
    Receives c (c.retireRecoveryThrough a groupId finalObjectId) :=
  ⟨rfl, Or.inl rfl, [], by simp [retireRecoveryThrough, setObjectGap]⟩

theorem receives_acknowledgeRounds (a : TrackAlias) (fuel : Nat) (c : Conn) :
    Receives c (acknowledgeRounds a fuel c).1 := by
  induction fuel generalizing c with
  | zero => exact Receives.refl c
  | succ fuel ih =>
      simp only [acknowledgeRounds]
      split
      · exact Receives.refl c
      split
      · exact Receives.refl c
      split
      · exact Receives.refl c
      next first _ _ _ =>
      have hack := receives_sendCheckpointAck c a first.groupId
        (ObjectGapState.completedThrough (c.objectGap a).recoveryWindows first.groupId
          (c.objectGap a).recoveryWindows.length first.finalObjectId)
      split
      · next hfailed =>
          rw [hfailed] at hack
          exact hack
      · next hsent =>
          rw [hsent] at hack
          exact ((hack.trans (receives_retireRecoveryThrough _ _ _ _)).trans
            (receives_setObjectGap _ _ _)).trans (ih _)

theorem receives_acknowledge (c : Conn) (a : TrackAlias) :
    Receives c (c.acknowledgeCompletedRecoveryWindows a).1 :=
  receives_acknowledgeRounds a _ c

theorem receives_openWindow (c : Conn) (a : TrackAlias) (window : RecoveryWindow)
    (acknowledge : Bool) : Receives c (c.openWindow a window acknowledge).1 := by
  have haccepted : ∀ windows : List (Sent (TrackAlias × RecoveryWindow)),
      Receives c { c with acceptedWindows := windows } := fun _ =>
    ⟨rfl, Or.inl rfl, [], by simp⟩
  simp only [openWindow]
  split
  · exact ((haccepted _).trans (receives_setObjectGap _ _ _)).trans
      (receives_acknowledge _ _)
  · split <;> exact (haccepted _).trans (receives_setObjectGap _ _ _)

theorem receives_receiveRecoveryCheckpoint (c : Conn) (a : TrackAlias)
    (groupId firstObjectId finalObjectId : Nat) (acknowledge : Bool) :
    Receives c (c.receiveRecoveryCheckpoint a groupId firstObjectId finalObjectId
      acknowledge).1 := by
  simp only [receiveRecoveryCheckpoint]
  split
  · exact Receives.refl c
  split
  · exact Receives.refl c
  split
  · split
    · exact receives_sendCheckpointAck c a _ _
    · exact Receives.refl c
  split
  · exact Receives.refl c
  split
  · exact Receives.refl c
  · exact receives_openWindow c a _ acknowledge

theorem receives_receiveBaseline (c : Conn) (checkpoint : TrackCheckpoint) :
    Receives c (c.receiveBaseline checkpoint) := by
  have hack := receives_sendCheckpointAck c checkpoint.trackAlias checkpoint.groupId
    checkpoint.finalObjectId
  simp only [receiveBaseline]
  split
  · exact receives_protocolClose c _
  split
  · next hfailed =>
      rw [hfailed] at hack
      exact hack.trans (receives_protocolClose _ _)
  · next hsent =>
      rw [hsent] at hack
      exact hack.trans (receives_setObjectGap _ _ _)

theorem receives_receiveTrackCheckpoint (c : Conn) (checkpoint : TrackCheckpoint) :
    Receives c (c.receiveTrackCheckpoint checkpoint) := by
  have hwindow := receives_receiveRecoveryCheckpoint c checkpoint.trackAlias
    checkpoint.groupId checkpoint.firstObjectId checkpoint.finalObjectId true
  simp only [receiveTrackCheckpoint]
  split
  · exact receives_protocolClose c _
  split
  · exact receives_receiveBaseline c checkpoint
  split
  · next haccepted =>
      rw [haccepted] at hwindow
      exact hwindow
  · next hrefused =>
      rw [hrefused] at hwindow
      exact hwindow.trans (receives_protocolClose _ _)

theorem receives_receiveTrackEnd (c : Conn) (finish : TrackEnd) :
    Receives c (c.receiveTrackEnd finish) := by
  simp only [receiveTrackEnd]
  split
  · exact receives_protocolClose c _
  split
  · split
    · exact Receives.refl c
    have hack := receives_sendCheckpointAck c finish.trackAlias finish.groupId
      finish.finalObjectId
    split
    · next hfailed =>
        rw [hfailed] at hack
        exact hack.trans (receives_protocolClose _ _)
    · next hsent =>
        rw [hsent] at hack
        exact hack.trans (receives_retireRecoveryThrough _ _ _ _)
  · have hwindow := receives_receiveRecoveryCheckpoint c finish.trackAlias finish.groupId
      (trackEndFirst (c.objectGap finish.trackAlias).lastCheckpointObjectId
        c.checkpointCapable finish.finalObjectId) finish.finalObjectId c.checkpointCapable
    split
    · next haccepted =>
        rw [haccepted] at hwindow
        exact hwindow
    · next hrefused =>
        rw [hrefused] at hwindow
        exact hwindow.trans (receives_protocolClose _ _)

end Conn

end Qlinq
