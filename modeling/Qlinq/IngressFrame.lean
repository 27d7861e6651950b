import Qlinq.ReceiveFrame

namespace Qlinq

namespace Conn

/-! What a connection does with everything it receives. -/

/-- The datagram passes every check and is counted as seen on a rateless DATA track. -/
def observes (c : Conn) (datagram : Datagram) : Bool :=
  c.closed.isNone && c.authenticated &&
    match c.receiveSubscriptions.findByAlias datagram.header.trackAlias with
    | none => false
    | some track =>
        !(trackProfile track).reliable && c.datagramValid datagram &&
          !c.duplicateObject track datagram.header && track.isRatelessData

theorem observes_iff {c : Conn} {datagram : Datagram} :
    c.observes datagram = true ↔ (c.closed.isSome || !c.authenticated) = false ∧
      ∃ track, c.receiveSubscriptions.findByAlias datagram.header.trackAlias = some track ∧
        (trackProfile track).reliable = false ∧ c.datagramValid datagram = true ∧
        c.duplicateObject track datagram.header = false ∧ track.isRatelessData = true := by
  unfold observes
  cases c.receiveSubscriptions.findByAlias datagram.header.trackAlias with
  | none => simp
  | some track => simp [and_assoc]

/-- The connection once the datagram's object is noted as seen. -/
def observed (c : Conn) (header : FecHeader) : Conn :=
  c.setObjectGap header.trackAlias
    ((c.objectGap header.trackAlias).observe header.groupId header.objectId)

/-- A relation that storing, delivering and losing objects stay within: moreover
assemblers, the completion ring, bound streams and events are free, and gap states that
wait for nothing new and track the same windows. -/
structure DeliveryFrame (R : Conn → Conn → Prop) : Prop extends AnswerFrame R where
  stored : ∀ c slots index completed bound emitted,
    R c { c with
      assemblers := slots
      assemblerIndex := index
      completedObjects := completed
      boundStreams := bound
      events := emitted }
  marked : ∀ c a gap, (c.objectGap a).Narrows gap → (c.objectGap a).SameWindows gap →
    R c (c.setObjectGap a gap)

/-- Gap states that wait for nothing new are free, whatever windows they track. -/
structure StorageFrame (R : Conn → Conn → Prop) : Prop extends ReceiveFrame R where
  stored : ∀ c slots index completed bound emitted,
    R c { c with
      assemblers := slots
      assemblerIndex := index
      completedObjects := completed
      boundStreams := bound
      events := emitted }
  marked : ∀ c a gap, (c.objectGap a).Narrows gap → R c (c.setObjectGap a gap)

/-- A relation that what is received stays within: moreover assemblers, the completion
ring, bound streams, events and gap states are free. -/
structure IngressFrame (R : Conn → Conn → Prop) : Prop extends ReceiveFrame R where
  stored : ∀ c slots index completed bound emitted,
    R c { c with
      assemblers := slots
      assemblerIndex := index
      completedObjects := completed
      boundStreams := bound
      events := emitted }
  marked : ∀ c a gap, R c (c.setObjectGap a gap)

namespace DeliveryFrame

variable {R : Conn → Conn → Prop}

theorem bindStream (hR : DeliveryFrame R) (c : Conn) (stream : Nat) (a : TrackAlias) :
    R c (c.bindStream stream a) := by
  unfold Conn.bindStream
  split
  · exact hR.stored c _ _ _ _ _
  · exact hR.refl c

theorem parseTrackObject (hR : DeliveryFrame R) (c : Conn) (stream : Nat)
    (object : Sent TrackObject) : R c (c.parseTrackObject stream object).1 := by
  unfold Conn.parseTrackObject
  split
  · exact hR.quiclyClose c _ _
  split
  · exact hR.quiclyClose c _ _
  simp only
  split
  · exact hR.protocolClose c _
  have hbind := hR.bindStream c stream object.message.trackAlias
  split
  · exact hbind
  split
  · exact hR.trans hbind (hR.quiclyClose _ _ _)
  · exact hR.trans hbind (hR.stored _ _ _ _ _ _)

theorem expireAssembler (hR : DeliveryFrame R) (c : Conn) (slot : Nat) :
    R c (c.expireAssembler slot) := by
  unfold Conn.expireAssembler
  split
  · exact hR.refl c
  split
  · exact hR.refl c
  simp only
  split
  · exact hR.stored c _ _ _ _ _
  · exact hR.stored c _ _ _ _ _

theorem openAssembler (hR : DeliveryFrame R) (c : Conn) (env : ReceiveEnv)
    (header : FecHeader) : R c (c.openAssembler env header).1 := by
  unfold Conn.openAssembler
  extract_lets selected lost moved
  have hlost : R c lost := by
    simp only [lost]
    split
    · exact hR.refl c
    split
    · exact hR.refl c
    · exact hR.stored c _ _ _ _ _
  split
  · exact hR.trans hlost (hR.stored lost _ _ _ _ _)
  · exact hR.trans hlost (hR.stored lost _ _ _ _ _)

theorem completeObject (hR : DeliveryFrame R) (c : Conn) (slot : Nat) (track : TrackId)
    (assembler : FrameAssembler) (blocks : List Bytes) :
    R c (c.completeObject slot track assembler blocks) := by
  unfold Conn.completeObject
  extract_lets a generation completed ringed marked
  have hringed : R c ringed := hR.stored c _ _ _ _ _
  have hmarked : R ringed marked := by
    simp only [marked]
    split
    · exact hR.trans (hR.marked ringed a _ (ObjectGapState.narrows_markObjectDelivered _ _)
          (ObjectGapState.sameWindows_markObjectDelivered _ _))
        (hR.recoveryMarkDelivered _ _ _ _)
    · exact hR.refl ringed
  exact hR.trans (hR.trans hringed hmarked) (hR.stored marked _ _ _ _ _)

theorem assemble (hR : DeliveryFrame R) (c : Conn) (env : ReceiveEnv) (track : TrackId)
    (slot : Nat) (assembler : FrameAssembler) (datagram : Sent Datagram) :
    R c (c.assemble env track slot assembler datagram) := by
  unfold Conn.assemble
  simp only
  split
  · exact hR.refl c
  have hstored : ∀ held : FrameAssembler,
      R c { c with assemblers := c.assemblers.set slot (some held) } :=
    fun held => hR.stored c _ _ _ _ _
  split
  · exact hstored _
  split
  · exact hstored _
  · exact hR.trans (hstored _) (hR.completeObject _ slot track _ _)

/-- What follows the checks of a datagram, and the note that its object was seen. -/
theorem handled (hR : DeliveryFrame R) (c : Conn) (env : ReceiveEnv) (track : TrackId)
    (datagram : Sent Datagram) :
    R c (match c.findAssembler datagram.message.header with
      | some (slot, assembler) =>
          if assembler.symbolSize ≠ datagram.message.header.symbolSize ∨
              assembler.dataSymbols ≠ datagram.message.header.dataSymbols ∨
              assembler.originalSize ≠ datagram.message.header.originalSize then
            c
          else
            c.assemble env track slot assembler datagram
      | none =>
          match c.openAssembler env datagram.message.header with
          | (c, none) => c
          | (c, some (slot, assembler)) => c.assemble env track slot assembler datagram) := by
  split
  · split
    · exact hR.refl c
    · exact hR.assemble c env track _ _ datagram
  · have hopened := hR.openAssembler c env datagram.message.header
    split
    · next hnone =>
        rw [hnone] at hopened
        exact hopened
    · next hsome =>
        rw [hsome] at hopened
        exact hR.trans hopened (hR.assemble _ env track _ _ datagram)

/-- A datagram is noted as seen and then handled, or handled only. -/
theorem receiveDatagram (hR : DeliveryFrame R) (c : Conn) (env : ReceiveEnv)
    (datagram : Sent Datagram) :
    (c.observes datagram.message = false ∧ R c (c.receiveDatagram env datagram)) ∨
      (c.observes datagram.message = true ∧
        R (c.observed datagram.message.header) (c.receiveDatagram env datagram)) := by
  cases hobserves : c.observes datagram.message with
  | true =>
      obtain ⟨hopen, track, hbound, hreliable, hvalid, hduplicate, hrateless⟩ :=
        observes_iff.mp hobserves
      refine .inr ⟨rfl, ?_⟩
      unfold Conn.receiveDatagram
      simp only [hopen, hbound, hreliable, hvalid, hduplicate, hrateless, if_true, if_false,
        Bool.false_eq_true, Bool.not_true]
      exact hR.handled (c.observed datagram.message.header) env track datagram
  | false =>
      refine .inl ⟨rfl, ?_⟩
      unfold Conn.receiveDatagram
      extract_lets header
      split
      · exact hR.refl c
      next hopen =>
      split
      · exact hR.refl c
      next track hbound =>
      split
      · exact hR.protocolClose c _
      next hreliable =>
      split
      · exact hR.refl c
      next hvalid =>
      split
      · exact hR.refl c
      next hduplicate =>
      have hrateless : track.isRatelessData = false := by
        by_contra hrateless
        refine Bool.false_ne_true (hobserves.symm.trans (observes_iff.mpr
          ⟨Bool.eq_false_iff.mpr hopen, track, hbound, Bool.eq_false_iff.mpr hreliable, ?_,
            Bool.eq_false_iff.mpr hduplicate, Bool.not_eq_false _ |>.mp hrateless⟩))
        simpa using hvalid
      rw [hrateless, if_neg Bool.false_ne_true]
      exact hR.handled c env track datagram

end DeliveryFrame

theorem StorageFrame.delivers (hR : StorageFrame R) : DeliveryFrame R :=
  { hR.answers with
    stored := hR.stored
    marked := fun c a gap hnarrows _ => hR.marked c a gap hnarrows }

namespace IngressFrame

variable {R : Conn → Conn → Prop}

theorem storage (hR : IngressFrame R) : StorageFrame R :=
  { hR.toReceiveFrame with stored := hR.stored, marked := fun c a gap _ => hR.marked c a gap }

theorem parseTrackObject (hR : IngressFrame R) (c : Conn) (stream : Nat)
    (object : Sent TrackObject) : R c (c.parseTrackObject stream object).1 :=
  hR.storage.delivers.parseTrackObject c stream object

theorem expireAssembler (hR : IngressFrame R) (c : Conn) (slot : Nat) :
    R c (c.expireAssembler slot) :=
  hR.storage.delivers.expireAssembler c slot

theorem receiveDatagram (hR : IngressFrame R) (c : Conn) (env : ReceiveEnv)
    (datagram : Sent Datagram) : R c (c.receiveDatagram env datagram) := by
  rcases hR.storage.delivers.receiveDatagram c env datagram with ⟨-, hhandled⟩ | ⟨-, hhandled⟩
  · exact hhandled
  · exact hR.trans (hR.marked c _ _) hhandled

end IngressFrame

/-- An operation that neither moves the handshake on nor calls for a subscription. -/
def ReceiveOp.ingress : ReceiveOp → Bool
  | .hello _ => false
  | .respondAuth _ => false
  | .subscribe _ => false
  | .unsubscribe _ => false
  | _ => true

theorem StorageFrame.receive {R : Conn → Conn → Prop} (hR : StorageFrame R)
    (limits : TransportLimits) (c : Conn) {op : ReceiveOp} (hingress : op.ingress = true)
    (hdatagram : ∀ env datagram, op ≠ .datagram env datagram) : R c (c.receive limits op) := by
  cases op with
  | hello hello => cases hingress
  | respondAuth success => cases hingress
  | subscribe track => cases hingress
  | unsubscribe track => cases hingress
  | datagram env datagram => exact absurd rfl (hdatagram env datagram)
  | trackObject stream object => exact hR.delivers.parseTrackObject c stream object
  | trackCheckpoint checkpoint =>
      exact hR.receiveRecoveryFrame (·.receiveTrackCheckpoint checkpoint)
        (hR.receiveTrackCheckpoint c checkpoint)
  | trackEnd finish =>
      exact hR.receiveRecoveryFrame (·.receiveTrackEnd finish) (hR.receiveTrackEnd c finish)
  | expire slot => exact hR.delivers.expireAssembler c slot
  | flushAcks => exact hR.answers.flushRecoveryAcks c
  | sendNack request withheld => exact hR.answers.sendNack c request withheld
  | admissions admissions => exact hR.drained c admissions
  | close code reason => exact hR.quiclyClose c code reason

theorem IngressFrame.receive {R : Conn → Conn → Prop} (hR : IngressFrame R)
    (limits : TransportLimits) (c : Conn) {op : ReceiveOp} (hingress : op.ingress = true) :
    R c (c.receive limits op) := by
  cases op with
  | datagram env datagram => exact hR.receiveDatagram c env datagram
  | _ => exact hR.storage.receive limits c hingress (fun _ _ h => nomatch h)

end Conn

end Qlinq
